import CodeAtlas.Proofs.Comments
import CodeAtlas.Proofs.Words

/-!
# Methods of TypeScript classes

The words that may stand before the name of a method need no white space behind them. So a name that
begins with such a word loses it, unless no name is left (`leads_methodName`), and a route is read
back exactly if its handler does not begin so (`routes_read_back_iff`). The methods of a class are
looked for up to the first closing brace, which is that of its first method: no other is found
(`classMethods_first`).
-/

open List

namespace CodeAtlas.Pattern

variable {p q : Pattern} {taken rest text : List Char} {groups : List (Nat × List Char)}

/-- `opt` takes nothing where nothing leads on behind its part. -/
theorem Leads.opt_skip {bound : Nat} (h : (p ++ q).FailsAt (taken ++ rest))
    (hq : q.Leads bound taken rest groups) : (Pattern.opt p ++ q).Leads bound taken rest groups := by
  refine hq.imp fun s hrest next r hfirst => ?_
  have hnone : advance bound p (advance bound q next) s = none := h bound next s hrest
  rw [advance_append, advance_opt_of_none hnone]
  exact hfirst

theorem FailsAt.anyOf {texts : List String} (h : ∀ w ∈ texts, (Pattern.lit w ++ q).FailsAt text) :
    (Pattern.anyOf texts ++ q).FailsAt text := by
  refine .of_ways fun bound s hs t ht => ?_
  obtain ⟨u, hu, hq⟩ := mem_ways_append.mp ht
  obtain ⟨w, hw, rest, hs', rfl⟩ := mem_ways_anyOf.mp hu
  exact (h w hw).not_mem_ways hs
    (mem_ways_append.mpr ⟨_, mem_ways_lit.mpr ⟨rest, hs', rfl⟩, hq⟩)

theorem FailsAt.edge {holds : Option Char → Option Char → Bool} (h : p.FailsAt text) :
    (Pattern.edge holds ++ p).FailsAt text := by
  intro bound next s hrest
  rw [advance_append, advance]
  split
  · exact h bound next s hrest
  · rfl

end CodeAtlas.Pattern

namespace CodeAtlas

open Pattern Outline Text

namespace TypeScript

variable {bound : Nat} {rest : List Char}

/-! ## Names behind words -/

def accessWords : List String :=
  ["public", "private", "protected"]

/-- The words that may stand before the name of a method. -/
def methodWords : List String :=
  accessWords ++ ["async"]

/-- A name begins with a word, and a name is left behind it. -/
def Hides (word : String) (name : List Char) : Prop :=
  word.toList <+: name ∧ (name.drop word.toList.length).head?.any beginsName = true

instance (word : String) (name : List Char) : Decidable (Hides word name) :=
  inferInstanceAs (Decidable (_ ∧ _))

/-- What is left of a name behind the first of some words that it hides. -/
def unhide (words : List String) (name : List Char) : List Char :=
  ((words.find? (Hides · name)).map fun word => name.drop word.toList.length).getD name

def shownName (name : List Char) : List Char :=
  unhide ["async"] (unhide accessWords name)

theorem unhide_cases (words : List String) (name : List Char) :
    ((∀ w ∈ words, ¬ Hides w name) ∧ unhide words name = name) ∨
      ∃ w ∈ words, Hides w name ∧ unhide words name = name.drop w.toList.length := by
  unfold unhide
  cases hfind : words.find? (Hides · name) with
  | none =>
    refine .inl ⟨fun w hw => ?_, rfl⟩
    simpa using find?_eq_none.mp hfind w hw
  | some w =>
    exact .inr ⟨w, mem_of_find?_eq_some hfind, by simpa using find?_some hfind, rfl⟩

theorem length_unhide_le (words : List String) (name : List Char) :
    (unhide words name).length ≤ name.length := by
  rcases unhide_cases words name with ⟨-, h⟩ | ⟨w, -, -, h⟩ <;> simp [h]

theorem unhide_eq_iff {words : List String} (hwords : ∀ w ∈ words, w.toList ≠ [])
    (name : List Char) : unhide words name = name ↔ ∀ w ∈ words, ¬ Hides w name := by
  rcases unhide_cases words name with ⟨hnone, h⟩ | ⟨w, hw, hhides, h⟩
  · exact ⟨fun _ => hnone, fun _ => h⟩
  · refine ⟨fun heq => ?_, fun hnone => absurd hhides (hnone w hw)⟩
    have hlength := congrArg length (h.symm.trans heq)
    have hword := length_pos_iff.mpr (hwords w hw)
    have hle := hhides.1.length_le
    rw [length_drop] at hlength
    omega

/-- `shownName` is the whole name exactly if it hides no word. -/
theorem shownName_eq_iff (name : List Char) :
    shownName name = name ↔ ∀ w ∈ methodWords, ¬ Hides w name := by
  have haccess : unhide accessWords name = name ↔ _ := unhide_eq_iff (by decide) name
  have hasync : ∀ name, unhide ["async"] name = name ↔ _ := unhide_eq_iff (by decide)
  rw [methodWords, forall_mem_append, ← haccess]
  constructor
  · intro h
    have hall : unhide accessWords name = name := by
      by_contra hne
      rcases unhide_cases accessWords name with ⟨-, heq⟩ | ⟨w, hw, hhides, heq⟩
      · exact hne heq
      · have hshort := length_unhide_le ["async"] (unhide accessWords name)
        have hword : 0 < w.toList.length := by
          have hlong : ∀ w ∈ accessWords, 0 < w.toList.length := by decide
          exact hlong w hw
        have hle := hhides.1.length_le
        rw [show unhide ["async"] (unhide accessWords name) = name from h, heq, length_drop]
          at hshort
        omega
    rw [shownName, hall] at h
    exact ⟨hall, (hasync name).mp h⟩
  · rintro ⟨hall, hnone⟩
    rw [shownName, hall]
    exact (hasync name).mpr hnone

variable (i : Identifier) (index : Nat)

theorem leads_name (hrest : rest.head?.any isWord = false) :
    (group index name).Leads bound i.text rest [(index, i.text)] :=
  i.leads index (fun _ => isWord_of_isAsciiWord) hrest

/-- A word does not lead to a name where it hides none. -/
theorem failsAt_word {q : Pattern} {word : String} (hword : ∀ c ∈ word.toList, isAsciiWord c)
    (hq : ∀ c, isBlank c = false → beginsName c = false → q.Refuses (some c)) (i : Identifier)
    (h : ¬ Hides word i.text) : (lit word ++ q).FailsAt (i.text ++ '(' :: rest) := by
  by_cases hbegins : word.toList <+: i.text ++ '(' :: rest
  · obtain ⟨left, hleft⟩ := hbegins
    obtain ⟨name, hname, rfl⟩ := exists_append_of_append_eq hleft hword (by decide)
    rw [← hleft]
    refine .lit_append (.of_refuses ?_)
    have hhead : name.head?.any beginsName = false := by
      rw [← Bool.not_eq_true]
      refine fun hhead => h ⟨⟨name, hname.symm⟩, ?_⟩
      rwa [hname, drop_left]
    cases name with
    | nil => exact hq '(' (by decide) (by decide)
    | cons c name => exact hq c (i.isBlank_eq_false (by simp [hname])) hhead
  · exact (FailsAt.lit hbegins).append q

/-- An optional word is read as one where a name `Hides` it. -/
theorem leads_unhide {p q : Pattern} {words : List String} {g : List Char → List (Nat × List Char)}
    (i : Identifier) (hp : ∀ w ∈ words, ∀ rest : List Char, rest.head?.any isBlank = false →
      p.Leads bound w.toList rest [])
    (hq : ∀ i : Identifier, q.Leads bound i.text ('(' :: rest) (g i.text))
    (hnone : (∀ w ∈ words, ¬ Hides w i.text) → (p ++ q).FailsAt (i.text ++ '(' :: rest)) :
    (opt p ++ q).Leads bound i.text ('(' :: rest) (g (unhide words i.text)) := by
  rcases unhide_cases words i.text with ⟨hhides, heq⟩ | ⟨w, hw, ⟨⟨left, hleft⟩, hbegins⟩, heq⟩
  · rw [heq]
    exact .opt_skip (hnone hhides) (hq i)
  · rw [heq]
    rw [← hleft, drop_left] at hbegins ⊢
    let j : Identifier := ⟨left, hbegins, fun c hc => i.word c (by simp [← hleft, hc])⟩
    have hleads := (hp w hw _ (j.head?_isBlank _)).opt.append (hq j)
    rwa [append_nil] at hleads

/-- Behind white space, only `async` is taken from a name. -/
theorem leads_asyncName :
    (opt (lit "async" ++ blanks) ++ group index name).Leads bound i.text ('(' :: rest)
      [(index, unhide ["async"] i.text)] := by
  refine leads_unhide (g := fun name => [(index, name)]) i (fun w hw rest hrest => ?_)
    (fun i => leads_name i index rfl) fun hnone => ?_
  · obtain rfl := mem_singleton.mp hw
    exact (Leads.lit "async" _).append (.many (by simp) hrest)
  · have hfails : (lit "async" ++ (blanks ++ group index name)).FailsAt (i.text ++ '(' :: rest) :=
      failsAt_word (q := blanks ++ group index name) (by decide) (fun c hblank hbegins =>
        .of_heads rfl (show ∀ a ∈ [isBlank, beginsName], a c = false by simp [hblank, hbegins])) i
        (hnone _ mem_cons_self)
    exact hfails

/-- **The name of a method** is read as its `shownName`. -/
theorem leads_methodName :
    (methodModifiers ++ group index name).Leads bound i.text ('(' :: rest)
      [(index, shownName i.text)] := by
  refine .of_advance_eq (p := opt (anyOf accessWords) ++
    (blanks ++ (opt (lit "async" ++ blanks) ++ group index name))) (fun _ _ => rfl) ?_
  refine leads_unhide (g := fun name => [(index, unhide ["async"] name)]) i
    (fun w hw rest _ => .anyOf (by decide) hw rest) (fun i => ?_) fun hnone => .anyOf fun w hw => ?_
  · have hblanks : blanks.Leads bound [] (i.text ++ '(' :: rest) [] :=
      .many (by simp) (i.head?_isBlank _)
    exact hblanks.append (leads_asyncName i index)
  · have hwords : ∀ w ∈ accessWords, ∀ c ∈ w.toList, isAsciiWord c := by decide
    refine failsAt_word (hwords w hw) (fun c hblank hbegins => ?_) i (hnone w hw)
    have hne : c ≠ 'a' := by
      rintro rfl
      exact absurd hbegins (by decide)
    exact .of_heads rfl (forall_mem_cons.mpr ⟨hblank, forall_mem_cons.mpr
      ⟨beq_eq_false_iff_ne.mpr hne, forall_mem_singleton.mpr hbegins⟩⟩)

/-! ## Routes -/

def routeOf (m : Match) : Route :=
  ⟨String.ofList (m.group 1), String.ofList (m.group 3), String.ofList (m.group 4)⟩

/-- A route as written: a decorator with a path in a line, and a method in the next. -/
structure RouteText where
  decorator : String
  path : List Char
  handler : Identifier
  known : decorator ∈ routeDecorators
  unquoted : ∀ c ∈ path, notAmong "'\"" c = true
  uncommented : ¬ "/*".toList <:+: path ∧ ¬ "//".toList <:+: path

namespace RouteText

/-- What stands before the path, up to the quotation mark. -/
def lead (r : RouteText) : List Char :=
  "@".toList ++ r.decorator.toList ++ "('".toList

def trail (r : RouteText) : List Char :=
  "')\n".toList ++ r.handler.text ++ "() \x7b\x7d\n".toList

def text (r : RouteText) : List Char :=
  r.lead ++ (r.path ++ r.trail)

def routeTo (r : RouteText) (name : List Char) : Route :=
  ⟨r.decorator, String.ofList r.path, String.ofList name⟩

def route (r : RouteText) : Route :=
  r.routeTo r.handler.text

theorem slashless (r : RouteText) : '/' ∉ r.lead ∧ '/' ∉ r.trail := by
  have hknown : ∀ w ∈ routeDecorators, '/' ∉ w.toList := by decide
  have hhandler : '/' ∉ r.handler.text :=
    fun h => absurd (r.handler.word _ h) (by decide)
  simp [lead, trail, hknown _ r.known, hhandler]

theorem kept (r : RouteText) {out : List Char → List Char} {mark : List Char} {b : Char}
    (hout : ∀ {gap rest : List Char}, ¬ mark <:+: gap →
      (gap.getLast? = some '/' → rest.head? ≠ some b) → out (gap ++ rest) = gap ++ out rest)
    (hmark : '/' ∈ mark) (hb : b ≠ '\'') (hpath : ¬ mark <:+: r.path) (rest : List Char) :
    out (r.text ++ rest) = r.text ++ out rest := by
  have hplain : ∀ {gap : List Char}, '/' ∉ gap → ∀ rest, out (gap ++ rest) = gap ++ out rest :=
    fun hgap rest => hout (fun h => hgap (h.subset hmark))
      fun hlast => absurd (mem_of_getLast? hlast) hgap
  have hquote : (r.trail ++ rest).head? = some '\'' := rfl
  rw [text, append_assoc, append_assoc, hplain r.slashless.1, hout hpath, hplain r.slashless.2,
    append_assoc, append_assoc]
  rw [hquote]
  exact fun _ h => hb (Option.some.inj h).symm

theorem reads (r : RouteText) (tail : List Char) :
    Reads routePattern routeOf r.text [r.routeTo (shownName r.handler.text)] tail := by
  have hleads : ∀ bound, routePattern.Leads bound ("@".toList ++ r.decorator.toList ++ [] ++
      "(".toList ++ [] ++ ['\''] ++ r.path ++ ['\''] ++ [] ++ ")".toList ++ ['\n'] ++ r.handler.text ++
      [] ++ "(".toList) (") \x7b\x7d\n".toList ++ tail)
      [(4, shownName r.handler.text), (3, r.path), (1, r.decorator.toList)] := by
    intro bound
    refine .of_advance_eq (p := lit "@" ++ group 1 (anyOf routeDecorators) ++ blanks ++ lit "(" ++
      blanks ++ one (among "'\"") ++ group 3 (many (notAmong "'\"")) ++ one (among "'\"") ++
      blanks ++ lit ")" ++ blanks ++ (methodModifiers ++ group 4 name) ++ blanks ++ lit "(")
      (fun _ _ => rfl) ?_
    exact (((((((((((((Leads.lit "@" _).append ((Leads.anyOf (by decide) r.known _).group 1)).append
      (.many (by simp) rfl)).append (.lit "(" _)).append (.many (by simp) rfl)).append
      (.one (by decide) _)).append ((Leads.many r.unquoted rfl).group 3)).append
      (.one (by decide) _)).append (.many (by simp) rfl)).append (.lit ")" _)).append
      (.many (by decide) (r.handler.head?_isBlank _))).append (leads_methodName r.handler 4)).append
      (.many (by simp) rfl)).append (.lit "(" _)
  have htrail : Passes routePattern ") \x7b\x7d\n".toList tail := .of_not_mem rfl rfl (by decide)
  have hmeaning : ∀ m : Match, (∀ index, m.group? index =
      [(4, shownName r.handler.text), (3, r.path), (1, r.decorator.toList)].lookup index) →
      routeOf m = r.routeTo (shownName r.handler.text) := by
    intro m hgroups
    rw [routeOf, Match.group, Match.group, Match.group, hgroups, hgroups, hgroups]
    exact congrArg (Route.mk · _ _) (String.ofList_toList ..)
  have hreads := (Reads.of_leads (by simp) hleads hmeaning).append_passes htrail
  simpa [text, lead, trail] using hreads

end RouteText

theorem withoutComments_routes (rs : List RouteText) :
    withoutComments (rs.flatMap RouteText.text) = rs.flatMap RouteText.text := by
  have hblocks : withoutBlocks (rs.flatMap RouteText.text) = rs.flatMap RouteText.text := by
    induction rs with
    | nil => rfl
    | cons r rs ih =>
      rw [flatMap_cons, r.kept withoutBlocks_append (by decide) (by decide) r.uncommented.1, ih]
  have hlines : withoutLines (rs.flatMap RouteText.text) = rs.flatMap RouteText.text := by
    clear hblocks
    induction rs with
    | nil => rfl
    | cons r rs ih =>
      rw [flatMap_cons, r.kept withoutLines_append (by decide) (by decide) r.uncommented.2, ih]
  exact (congrArg withoutLines hblocks).trans hlines

theorem routes_text (rs : List RouteText) : (outline (rs.flatMap RouteText.text)).routes =
    rs.map fun r => r.routeTo (shownName r.handler.text) := by
  have hreads : Reads routePattern routeOf (rs.flatMap RouteText.text) _ [] :=
    .flatMap fun _ r back (_ : rs = _ ++ r :: back) => r.reads (back.flatMap RouteText.text ++ [])
  show routes (withoutComments _) = _
  rw [withoutComments_routes, map_eq_flatMap]
  exact hreads.findAll ⟨rfl, rfl⟩

/-- **Routes are read back exactly if** no handler begins with an access word or `async` and a name
behind it. -/
theorem routes_read_back_iff (rs : List RouteText) :
    (outline (rs.flatMap RouteText.text)).routes = rs.map RouteText.route ↔
      ∀ r ∈ rs, ∀ w ∈ methodWords, ¬ Hides w r.handler.text := by
  rw [routes_text, map_inj_left]
  refine forall₂_congr fun r _ => ?_
  rw [← shownName_eq_iff]
  simp [RouteText.route, RouteText.routeTo, String.ofList_inj]

/-! ## Methods up to the first closing brace -/

theorem withoutComments_of_not_mem {code : List Char} (h : '/' ∉ code) :
    withoutComments code = code := by
  have hblocks : withoutBlocks (code ++ []) = code ++ [] :=
    withoutBlocks_append (fun hc => h (hc.subset (by decide))) (by simp)
  have hlines : withoutLines (code ++ []) = code ++ [] :=
    withoutLines_append (fun hc => h (hc.subset (by decide))) (by simp)
  rw [append_nil] at hblocks hlines
  exact (congrArg withoutLines hblocks).trans hlines

/-- A name that begins with no word that may stand before the name of a method. -/
structure MethodName extends Identifier where
  plain : ∀ w ∈ methodWords, ¬ w.toList <+: text

def MethodName.lines (m : MethodName) : List Char :=
  m.text ++ "() \x7b\n\x7d\n".toList

def classText (name : Identifier) (methods : List MethodName) : List Char :=
  "class ".toList ++ name.text ++ (" \x7b\n".toList ++ methods.flatMap MethodName.lines ++ ['\x7d'])

/-- No type parameters stand before an opening brace. -/
theorem failsAt_generics (q : Pattern) (rest : List Char) :
    (blanks ++ lit "<" ++ q).FailsAt (' ' :: '\x7b' :: rest) := by
  have hbrace : (lit "<").FailsAt ('\x7b' :: rest) := .of_refuses ⟨rfl, rfl⟩
  have hspace : Passes (lit "<") [' '] ('\x7b' :: rest) := .single ⟨rfl, rfl⟩
  exact (FailsAt.within .span hspace rfl hbrace).append q

def classOf (m : Match) : Class :=
  ⟨String.ofList (m.group 1), (m.group? 2).map fun g => String.ofList (trim g)⟩

/-- A class behind the edge of its keyword. -/
def classTail : Pattern :=
  lit "class" ++ (blanks1 ++ (group 1 name ++ opt (blanks ++ lit "<" ++
    (blanks ++ group 2 (many1 (notAmong ">\x7b")) ++ blanks ++ lit ">"))))

variable (n : Identifier) (methods : List MethodName)

/-- Behind the name of a class, no white space follows the letters of the keyword. -/
theorem passes_classPattern :
    Passes classPattern (" \x7b\n".toList ++ methods.flatMap MethodName.lines ++ ['\x7d']) [] := by
  have hedge : ∀ {gap rest : List Char}, Passes classTail gap rest → Passes classPattern gap rest := by
    intro gap rest h left hleft hne
    have hfails : (wordEdge ++ classTail).FailsAt (left ++ rest) := (h left hleft hne).edge
    exact hfails
  have hplain : ∀ {gap : List Char}, 'c' ∉ gap → ∀ rest, Passes classPattern gap rest :=
    fun hgap rest => hedge ((Passes.lit rfl hgap).extend _)
  have hmethods : ∀ tail, Passes classPattern (methods.flatMap MethodName.lines) tail := by
    intro tail
    induction methods with
    | nil => exact .nil _ _
    | cons m methods ih =>
      have hname : Passes classTail m.text ("() \x7b\n\x7d\n".toList ++
          (methods.flatMap MethodName.lines ++ tail)) := by
        refine .lit_word (.of_refuses fun c hc => .append_left ⟨m.isBlank_eq_false hc, rfl⟩) ?_ ?_
        · rintro _ ⟨⟩
          decide
        · exact fun _ => .of_refuses (.append_left ⟨rfl, rfl⟩)
      rw [flatMap_cons, MethodName.lines]
      exact ((hedge hname).append (hplain (by decide) _)).append ih
  exact ((hplain (by decide) _).append (hmethods _)).append (hplain (by decide) _)

theorem classes_classText : classes (classText n methods) = [⟨String.ofList n.text, none⟩] := by
  let after := " \x7b\n".toList ++ methods.flatMap MethodName.lines ++ ['\x7d']
  have hblank : (n.text ++ [] ++ after).head?.any isBlank = false := by
    rw [append_nil]
    exact n.head?_isBlank _
  have hleads : ∀ bound, classTail.Leads bound ("class".toList ++ ([' '] ++ (n.text ++ []))) after
      [(1, n.text)] := fun bound => (Leads.lit "class" _).append ((Leads.space hblank).append
        ((leads_name n 1 rfl).append (.opt_nil (failsAt_generics _ _))))
  have hrest : (Cursor.start (classText n methods)).rest =
      "class".toList ++ ([' '] ++ (n.text ++ [])) ++ after := by
    change classText n methods = _
    unfold classText
    simp [after]
  obtain ⟨m, hmatch, -, hstop, -, hgroups⟩ := (hleads (classText n methods).length).matchAt? hrest
  have hclass : matchAt? classPattern (classText n methods).length false
      (.start (classText n methods)) = some m := by
    have hhead : (Cursor.start (classText n methods)).rest.head? = some 'c' := by
      rw [hrest]
      rfl
    have hedge : ∀ next, advance (classText n methods).length wordEdge next
        ⟨.start (classText n methods), []⟩ = next ⟨.start (classText n methods), []⟩ := by
      refine fun next => advance_edge ?_
      rw [hhead]
      rfl
    rw [← hmatch, matchAt?_eq, matchAt?_eq]
    exact congrArg (Option.map _) (hedge _)
  have hmeaning : classOf m = ⟨String.ofList n.text, none⟩ := by
    rw [classOf, Match.group, hgroups, hgroups]
    rfl
  show (classPattern.findAll _).map classOf = _
  rw [findAll_eq_searchFrom, searchFrom_of_some hrest (by simp) hclass hstop, map_cons, hmeaning,
    (passes_classPattern methods).searchFrom_eq_nil ⟨rfl, rfl⟩ rfl, map_nil]

/-- What is searched for methods: up to the first closing brace. -/
def firstBody (methods : List MethodName) : List Char :=
  '\n' :: (methods.take 1).flatMap fun m => m.text ++ "() \x7b\n".toList

theorem methodsOf_classText :
    methodsOf (classText n methods) (String.ofList n.text) =
      (collectTexts methodPattern 1 (firstBody methods)).eraseDups := by
  obtain ⟨after, hafter⟩ : ∃ after, classText n methods = "class".toList ++ [' '] ++
      (String.ofList n.text).toList ++ [] ++ [' '] ++ "\x7b".toList ++
      (firstBody methods ++ "\x7d".toList) ++ after := by
    unfold classText
    cases methods with
    | nil => exact ⟨[], by simp [firstBody]⟩
    | cons m methods =>
      exact ⟨'\n' :: methods.flatMap MethodName.lines ++ ['\x7d'],
        by simp [firstBody, MethodName.lines]⟩
  have hopen : '\x7d' ∉ firstBody methods := by
    have hname : ∀ m : MethodName, '\x7d' ∉ m.text :=
      fun m h => absurd (m.word _ h) (by decide)
    cases methods <;> simp [firstBody, hname]
  have hblank : ((String.ofList n.text).toList ++ ([] ++ ([' '] ++ ("\x7b".toList ++
      (firstBody methods ++ "\x7d".toList ++ after))))).head?.any isBlank = false := by
    rw [String.toList_ofList]
    exact n.head?_isBlank _
  have hleads : ∀ bound, (bodyPattern (String.ofList n.text)).Leads bound ("class".toList ++ [' '] ++
      (String.ofList n.text).toList ++ [] ++ [' '] ++ "\x7b".toList ++
      (firstBody methods ++ "\x7d".toList)) after [(1, firstBody methods)] := by
    intro bound
    refine .of_advance_eq (p := lit "class" ++ blanks1 ++ lit (String.ofList n.text) ++
      opt (blanks ++ lit "<" ++ many1 (notAmong ">") ++ lit ">") ++ blanks ++ lit "\x7b" ++
      (group 1 (fewest anyChar) ++ lit "\x7d")) (fun _ _ => rfl) ?_
    exact ((((((Leads.lit "class" _).append (.space hblank)).append (.lit _ _)).append
      (.opt_nil ((failsAt_generics _ _).append _))).append (.many (by decide) rfl)).append
      (.lit "\x7b" _)).append (.group_fewest (.lit rfl hopen) (.lit "\x7d" after))
  obtain ⟨m, hfirst, hgroups⟩ := (hleads (classText n methods).length).firstAt? (.nil _ _)
    (c := .start (classText n methods)) hafter
  rw [methodsOf, find?_eq_firstAt?, hfirst]
  show (collectTexts methodPattern 1 (m.group 1)).eraseDups = _
  rw [Match.group, hgroups]
  rfl

/-- The name of a method in a new line is read in full if it hides no `async`. -/
theorem leads_methodName_feed (m : MethodName) :
    (methodModifiers ++ group 1 name).Leads bound ('\n' :: m.text) ('(' :: rest) [(1, m.text)] := by
  have hname : unhide ["async"] m.text = m.text :=
    (unhide_eq_iff (by decide) _).mpr fun w hw hhides => m.plain w (mem_append_right _ hw) hhides.1
  have hleads : Leads bound _ m.text ('(' :: rest) _ := leads_asyncName m.toIdentifier 1
  rw [hname] at hleads
  refine .of_advance_eq (p := opt (anyOf accessWords) ++
    (blanks ++ (opt (lit "async" ++ blanks) ++ group 1 name))) (fun _ _ => rfl) ?_
  have hblanks : blanks.Leads bound ['\n'] (m.text ++ '(' :: rest) [] :=
    .many (by decide) (m.head?_isBlank _)
  exact (Leads.opt_nil (.of_refuses ⟨rfl, rfl⟩)).append (hblanks.append hleads)

theorem collectTexts_firstBody :
    collectTexts methodPattern 1 (firstBody methods) =
      (methods.take 1).map fun m => String.ofList m.text := by
  have hfeed : Passes methodPattern ['\n'] [] := by
    refine passes_cons_iff.mpr ⟨?_, .nil _ _⟩
    have hfails : (methodModifiers ++ (group 1 name ++ (blanks ++ (lit "(" ++ (many (notAmong ")") ++
        (lit ")" ++ (blanks ++ one (among ":\x7b")))))))).FailsAt ['\n'] := by
      refine .of_suffixes fun left hleft => .of_refuses (.append_left ?_)
      rcases suffix_cons_iff.mp hleft with rfl | hleft
      · exact ⟨rfl, rfl⟩
      · rw [suffix_nil.mp hleft]
        exact ⟨rfl, rfl⟩
    exact hfails
  have hreads : Reads methodPattern (·.group 1) (firstBody methods)
      ((methods.take 1).map (·.text)) [] := by
    cases methods with
    | nil => exact .of_passes hfeed
    | cons m methods =>
      have hleads : ∀ bound, methodPattern.Leads bound ('\n' :: m.text ++ [] ++ "(".toList ++ [] ++
          ")".toList ++ [' '] ++ ['\x7b']) (['\n'] ++ []) [(1, m.text)] := fun bound =>
        ((((((leads_methodName_feed m).append (.many (by simp) rfl)).append (.lit "(" _)).append
          (.many (by simp) rfl)).append (.lit ")" _)).append (.many (by decide) rfl)).append
          (.one (by decide) _)
      have hbody : Reads methodPattern (·.group 1) _ [m.text] [] :=
        (Reads.of_leads (by simp) hleads fun m' hgroups =>
          (congrArg (·.getD []) (hgroups 1))).append_passes hfeed
      simpa [firstBody] using hbody
  rw [collectTexts, collect, hreads.findAll ⟨rfl, rfl⟩, map_map]
  rfl

/-- **`classMethods` has the first method of a class only**, so all are found exactly if there are
no two. -/
theorem classMethods_first (n : Identifier) (methods : List MethodName) :
    (outline (classText n methods)).classMethods =
        [(String.ofList n.text, (methods.take 1).map fun m => String.ofList m.text)] ∧
      ((outline (classText n methods)).classMethods =
        [(String.ofList n.text, methods.map fun m => String.ofList m.text)] ↔
          methods.length ≤ 1) := by
  have hslash : '/' ∉ classText n methods := by
    have hplain : ∀ i : Identifier, '/' ∉ i.text := fun i h => absurd (i.word _ h) (by decide)
    unfold classText
    simp [MethodName.lines, hplain]
  have hfound : (outline (classText n methods)).classMethods =
      [(String.ofList n.text, (methods.take 1).map fun m => String.ofList m.text)] := by
    have houtline : ∀ code, (outline code).classMethods = classMethods (withoutComments code) :=
      fun _ => rfl
    rw [houtline, withoutComments_of_not_mem hslash, classMethods, classes_classText, foldl_cons,
      foldl_nil, methodsOf_classText, collectTexts_firstBody]
    cases methods <;> simp [Json.setField, eraseDups_cons]
  refine ⟨hfound, ?_⟩
  rw [hfound, cons.injEq, Prod.mk.injEq]
  constructor
  · intro h
    have hlength := congrArg length h.1.2
    rw [length_map, length_map, length_take] at hlength
    omega
  · intro h
    rw [take_of_length_le h]
    exact ⟨⟨rfl, rfl⟩, rfl⟩

/-- Of two methods the second is lost. -/
theorem classMethods_twoMethods :
    (outline "class N \x7b\na() \x7b\n\x7d\nb() \x7b\n\x7d\n\x7d".toList).classMethods =
      [("N", ["a"])] := by
  decide +kernel

end TypeScript

end CodeAtlas
