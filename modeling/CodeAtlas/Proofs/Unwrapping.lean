import CodeAtlas.Proofs.Calls
import CodeAtlas.Proofs.Words
import CodeAtlas.Readme

/-!
# Documents taken out of their fence

A reply of the assistant is read line by line. A line that opens a fence goes, line feed and all,
and a fence at the end of any other line goes alone (`keptFrom_lines`). White space around the text
goes next, and escaped line feeds become line feeds. Each of these makes a text shorter, so a
document comes out as it went in exactly if there is nothing in it to take away
(`generate_wrapped`).
-/

open List

namespace CodeAtlas.Pattern

/-! ## Taking matches out from a place on -/

section Kept

variable {p : Pattern} {bound : Nat} {c : Cursor}

/-- What `replaceAll` leaves behind a place if every match is replaced by nothing. -/
def keptFrom (p : Pattern) (bound : Nat) (c : Cursor) : List Char :=
  replaceFrom (fun _ => []) c.position c.rest (searchFrom p bound c)

theorem replaceAll_eq_keptFrom (p : Pattern) (text : List Char) :
    p.replaceAll (fun _ => []) text = p.keptFrom text.length (.start text) := by
  rw [replaceAll, findAll_eq_searchFrom]
  rfl

/-- `searchFrom` finds no match before the place where it begins. -/
theorem position_le_of_mem_searchFrom {m : Match} (h : m ∈ searchFrom p bound c) :
    c.position ≤ m.start ∧ m.start ≤ m.stop := by
  obtain ⟨passed, rest, -, t, ht, rfl⟩ := exists_way_of_mem_findFrom h
  obtain ⟨_, _, -, ⟨_, -, hcursor⟩, -⟩ := spells_of_mem_ways ht
  refine ⟨Nat.le_add_right _ _, ?_⟩
  show (c.pass passed rest).position ≤ t.cursor.position
  rw [hcursor]
  exact Nat.le_add_right _ _

/-- Where no match begins, `keptFrom` keeps the character. -/
theorem keptFrom_of_none {d : Char} {rest : List Char} (hrest : c.rest = d :: rest)
    (h : matchAt? p bound false c = none) :
    p.keptFrom bound c = d :: p.keptFrom bound (c.pass [d] rest) := by
  rw [keptFrom, keptFrom, searchFrom_of_none hrest h, hrest]
  cases hfound : searchFrom p bound (c.pass [d] rest) with
  | nil => rfl
  | cons m ms =>
    have hm : m ∈ searchFrom p bound (c.pass [d] rest) := by
      rw [hfound]
      exact mem_cons_self
    obtain ⟨hstart, hstop⟩ := position_le_of_mem_searchFrom hm
    have hstart : c.position + 1 ≤ m.start := hstart
    have hbefore : m.start - c.position = m.start - (c.position + 1) + 1 := by omega
    have hafter : m.stop - c.position = m.stop - (c.position + 1) + 1 := by omega
    rw [replaceFrom, replaceFrom, hbefore, hafter, take_succ_cons, drop_succ_cons]
    rfl

theorem keptFrom_of_some {taken rest : List Char} (hrest : c.rest = taken ++ rest) (hne : taken ≠ [])
    (h : advance bound p some ⟨c, []⟩ = some ⟨c.pass taken rest, []⟩) :
    p.keptFrom bound c = p.keptFrom bound (c.pass taken rest) := by
  have hmatch : matchAt? p bound false c =
      some ⟨c.position, c.position + taken.length, c.rest, []⟩ := by
    rw [matchAt?_eq, h]
    rfl
  rw [keptFrom, keptFrom, searchFrom_of_some hrest hne hmatch rfl, replaceFrom, hrest, Nat.sub_self,
    Nat.add_sub_cancel_left, drop_left]
  rfl

theorem keptFrom_of_end (hrest : c.rest = []) (h : p.Refuses none) : p.keptFrom bound c = [] := by
  rw [keptFrom, searchFrom_of_refuses hrest h]
  exact hrest

end Kept

end CodeAtlas.Pattern

namespace CodeAtlas.Text

/-! ## Lines -/

variable {x y a b : List Char}

/-- At the end of a line: nothing or a line feed follows. -/
def EndsLine (text : List Char) : Prop :=
  text = [] ∨ ∃ rest, text = '\n' :: rest

theorem line_unique (h : x ++ a = y ++ b) (hx : '\n' ∉ x) (hy : '\n' ∉ y) (ha : EndsLine a)
    (hb : EndsLine b) : x = y ∧ a = b := by
  have hline : ∀ {x a : List Char}, '\n' ∉ x → EndsLine a → (x ++ a).takeWhile (· != '\n') = x := by
    intro x a hx ha
    have hall : ∀ e ∈ x, (e != '\n') := fun e he => bne_iff_ne.mpr fun heq => hx (heq ▸ he)
    rw [takeWhile_append_of_pos hall]
    rcases ha with rfl | ⟨rest, rfl⟩ <;> simp
  have hxy : x = y := by rw [← hline hx ha, h, hline hy hb]
  subst hxy
  exact ⟨rfl, append_cancel_left h⟩

theorem joinWith_append_feed {lines : List (List Char)} (h : lines ≠ []) :
    joinWith ['\n'] lines ++ ['\n'] = lines.flatMap (· ++ ['\n']) := by
  induction lines with
  | nil => exact absurd rfl h
  | cons line lines ih =>
    cases lines with
    | nil => simp [joinWith]
    | cons line' lines =>
      rw [joinWith_cons_cons, append_assoc, ih (cons_ne_nil _ _)]
      simp

theorem length_trim_le (text : List Char) : (trim text).length ≤ text.length := by
  have hdrop : ∀ text : List Char, (text.dropWhile isBlank).length ≤ text.length :=
    fun text => (dropWhile_suffix isBlank).length_le
  calc (trim text).length
      = ((text.dropWhile isBlank).reverse.dropWhile isBlank).length := length_reverse
    _ ≤ (text.dropWhile isBlank).reverse.length := hdrop _
    _ = (text.dropWhile isBlank).length := length_reverse
    _ ≤ text.length := hdrop text

end CodeAtlas.Text

namespace CodeAtlas.Readme

open Pattern Text Act

variable {bound : Nat} {c : Cursor} {line more : List Char}

/-! ## Fences -/

def opening : List Char :=
  "```markdown".toList

def closing : List Char :=
  "```".toList

/-- A line without the `closing` fence at its end. -/
def unfence (line : List Char) : List Char :=
  if closing <:+ line then line.take (line.length - 3) else line

/-- What `fence` leaves of a line and its line feed. -/
def stripped (line : List Char) : List Char :=
  if line = opening then [] else unfence line ++ ['\n']

/-- A line from which `stripped` takes nothing. -/
def Intact (line : List Char) : Prop :=
  ¬ closing <:+ line ∧ line ≠ opening

instance (line : List Char) : Decidable (Intact line) :=
  inferInstanceAs (Decidable (_ ∧ _))

theorem unfence_cons {d : Char} (h : d :: line ≠ closing) :
    unfence (d :: line) = d :: unfence line := by
  unfold unfence
  by_cases hclose : closing <:+ line
  · have hlength : 3 ≤ line.length := hclose.length_le
    have hcount : (d :: line).length - 3 = line.length - 3 + 1 := by
      rw [length_cons]
      omega
    rw [if_pos hclose, if_pos (hclose.trans (suffix_cons d line)), hcount, take_succ_cons]
  · have hcons : ¬ closing <:+ d :: line := by
      rw [suffix_cons_iff]
      rintro (heq | hsuffix)
      · exact h heq.symm
      · exact hclose hsuffix
    rw [if_neg hclose, if_neg hcons]

/-- `stripped` takes nothing from a line, or three characters at least. -/
theorem stripped_cases (line : List Char) : Intact line ∧ stripped line = line ++ ['\n'] ∨
    ¬ Intact line ∧ (stripped line).length + 3 ≤ (line ++ ['\n']).length := by
  by_cases hopen : line = opening
  · refine .inr ⟨fun h => h.2 hopen, ?_⟩
    rw [stripped, if_pos hopen, hopen]
    decide
  · rw [stripped, if_neg hopen]
    by_cases hclose : closing <:+ line
    · have hlength : 3 ≤ line.length := hclose.length_le
      refine .inr ⟨fun h => h.1 hclose, ?_⟩
      rw [unfence, if_pos hclose, length_append, length_append, length_take]
      omega
    · exact .inl ⟨⟨hclose, hopen⟩, by rw [unfence, if_neg hclose]⟩

/-! ## Matches of a fence -/

/-- The first alternative of `fence` matches here. -/
def Opens (c : Cursor) : Prop :=
  c.AtLineStart ∧ "```markdown\n".toList <+: c.rest

theorem advance_fence_of_not_opens (h : ¬ Opens c) :
    advance bound fence some ⟨c, []⟩ = advance bound (lit "```" ++ lineEnd) some ⟨c, []⟩ := by
  refine advance_either_of_none ?_
  by_cases hstart : c.AtLineStart
  · have hword : ¬ "```markdown\n".toList <+: c.rest := fun hword => h ⟨hstart, hword⟩
    rw [advance_append, advance_lineStart hstart]
    exact advance_lit_of_not_prefix hword
  · exact anchored_lineStart.append _ bound some ⟨c, []⟩ hstart

theorem advance_lineEnd {next : State → Option State} {s : State} (h : EndsLine s.cursor.rest) :
    advance bound lineEnd next s = next s := by
  refine advance_edge ?_
  rcases h with h | ⟨rest, h⟩
  · rw [h]
    rfl
  · rw [h]
    rfl

variable {rest : List Char} {lines : List (List Char)}

theorem keptFrom_opening (hstart : c.AtLineStart) (hrest : c.rest = opening ++ '\n' :: rest) :
    fence.keptFrom bound c = fence.keptFrom bound (c.pass (opening ++ ['\n']) rest) := by
  have hrest : c.rest = (opening ++ ['\n']) ++ rest := by rw [hrest, append_assoc]; rfl
  refine keptFrom_of_some hrest (by decide) (advance_either_of_some ?_)
  rw [advance_append, advance_lineStart hstart]
  exact advance_lit hrest

theorem keptFrom_closing (hopen : ¬ Opens c) (hmore : EndsLine more)
    (hrest : c.rest = closing ++ more) :
    fence.keptFrom bound c = fence.keptFrom bound (c.pass closing more) := by
  refine keptFrom_of_some hrest (by decide) ?_
  rw [advance_fence_of_not_opens hopen, advance_append, advance_lit hrest]
  exact advance_lineEnd hmore

theorem matchAt?_fence_eq_none (hopen : ¬ Opens c)
    (hclose : ∀ more, c.rest = closing ++ more → ¬ EndsLine more) :
    matchAt? fence bound false c = none := by
  refine matchAt?_eq_none_iff.mpr ?_
  rw [advance_fence_of_not_opens hopen, advance_append]
  by_cases hword : closing <+: c.rest
  · obtain ⟨more, hmore⟩ := hword
    have hends := hclose more hmore.symm
    rw [advance_lit hmore.symm, lineEnd, advance, if_neg]
    intro hedge
    rw [Bool.or_eq_true, beq_iff_eq, beq_iff_eq] at hedge
    exact hends (hedge.imp head?_eq_none_iff.mp head?_eq_some_iff.mp)
  · exact advance_lit_of_not_prefix hword

theorem keptFrom_feed (hrest : c.rest = '\n' :: rest) :
    fence.keptFrom bound c = '\n' :: fence.keptFrom bound (c.pass ['\n'] rest) := by
  exact keptFrom_of_none hrest (Refuses.matchAt? (by rw [hrest]; exact ⟨rfl, rfl⟩))

/-! ## Lines -/

theorem keptFrom_line (hline : '\n' ∉ line) (hmore : EndsLine more) (hopen : ¬ Opens c)
    (hrest : c.rest = line ++ more) :
    fence.keptFrom bound c = unfence line ++ fence.keptFrom bound (c.pass line more) := by
  induction line generalizing c with
  | nil =>
    rw [nil_append] at hrest
    rw [← hrest, Cursor.pass_nil]
    rfl
  | cons d line ih =>
    by_cases hclose : d :: line = closing
    · rw [hclose] at hrest ⊢
      exact keptFrom_closing hopen hmore hrest
    · have hnone : matchAt? fence bound false c = none := by
        refine matchAt?_fence_eq_none hopen fun more' hmore' hends => hclose ?_
        exact (line_unique (hrest.symm.trans hmore') hline (by decide) hmore hends).1
      have hinside : ¬ Opens (c.pass [d] (line ++ more)) := by
        rintro ⟨hbefore | hbefore, -⟩
        · cases hbefore
        · obtain rfl : d = '\n' := Option.some.inj hbefore
          exact hline mem_cons_self
      have hkept := ih (fun hmem => hline (mem_cons_of_mem _ hmem)) hinside rfl
      rw [Cursor.pass_pass] at hkept
      rw [unfence_cons hclose, cons_append]
      exact (keptFrom_of_none hrest hnone).trans (congrArg (d :: ·) hkept)

theorem keptFrom_stripped (hstart : c.AtLineStart) (hline : '\n' ∉ line)
    (hrest : c.rest = line ++ '\n' :: rest) :
    fence.keptFrom bound c = stripped line ++ fence.keptFrom bound (c.pass (line ++ ['\n']) rest) := by
  by_cases hopen : line = opening
  · rw [stripped, if_pos hopen, hopen]
    rw [hopen] at hrest
    exact keptFrom_opening hstart hrest
  · have hnot : ¬ Opens c := by
      rintro ⟨-, left, hleft⟩
      have hsplit : opening ++ '\n' :: left = line ++ '\n' :: rest := by
        rw [← hrest, ← hleft]
        rfl
      exact hopen (line_unique hsplit (by decide) hline (.inr ⟨_, rfl⟩) (.inr ⟨_, rfl⟩)).1.symm
    rw [keptFrom_line hline (.inr ⟨rest, rfl⟩) hnot hrest, keptFrom_feed rfl, Cursor.pass_pass,
      stripped, if_neg hopen, append_assoc]
    rfl

/-- **What `fence` leaves of lines** is what `stripped` leaves of each of them. -/
theorem keptFrom_lines (hstart : c.AtLineStart) (hlines : ∀ line ∈ lines, '\n' ∉ line)
    (hrest : c.rest = lines.flatMap (· ++ ['\n']) ++ rest) :
    ∃ c' : Cursor, c'.AtLineStart ∧ c'.rest = rest ∧
      fence.keptFrom bound c = lines.flatMap stripped ++ fence.keptFrom bound c' := by
  induction lines generalizing c with
  | nil => exact ⟨c, hstart, hrest, rfl⟩
  | cons line lines ih =>
    have hsplit : c.rest = line ++ '\n' :: (lines.flatMap (· ++ ['\n']) ++ rest) := by
      rw [hrest, flatMap_cons, append_assoc, append_assoc]
      rfl
    have hnext : (c.pass (line ++ ['\n']) (lines.flatMap (· ++ ['\n']) ++ rest)).AtLineStart := by
      refine .inr ?_
      simp [Cursor.pass]
    obtain ⟨c', hc', hrest', hkept⟩ := ih hnext (fun l hl => hlines l (mem_cons_of_mem _ hl)) rfl
    refine ⟨c', hc', hrest', ?_⟩
    rw [keptFrom_stripped hstart (hlines line mem_cons_self) hsplit, hkept, flatMap_cons, append_assoc]

/-! ## Documents -/

/-- A document: a text without white space at its ends. -/
structure Document where
  text : List Char
  firm : Firm isBlank text

/-- The end of a text whose last line may be ended. -/
def lastFeed (ended : Bool) : List Char :=
  if ended then ['\n'] else []

/-- A document in a fence of its own lines. -/
def Document.wrapped (d : Document) (ended : Bool) : List Char :=
  opening ++ '\n' :: (d.text ++ '\n' :: (closing ++ lastFeed ended))

theorem replaceAll_wrapped (d : Document) (ended : Bool) :
    fence.replaceAll (fun _ => []) (d.wrapped ended) =
      (splitAt '\n' d.text).flatMap stripped ++ lastFeed ended := by
  have hlines : ∀ line ∈ opening :: splitAt '\n' d.text, '\n' ∉ line := by
    intro line hline
    rcases mem_cons.mp hline with rfl | hline
    · decide
    · exact not_mem_of_mem_splitAt hline
  have hrest : (Cursor.start (d.wrapped ended)).rest =
      (opening :: splitAt '\n' d.text).flatMap (· ++ ['\n']) ++ (closing ++ lastFeed ended) := by
    rw [flatMap_cons, ← joinWith_append_feed (splitAt_ne_nil _ _), joinWith_splitAt]
    simp [Cursor.start, Document.wrapped]
  obtain ⟨c, hc, hclosing, hkept⟩ := keptFrom_lines (.inl rfl) hlines hrest
  have hopen : ¬ Opens c := by
    rintro ⟨-, hword⟩
    rw [hclosing] at hword
    revert hword
    cases ended <;> decide
  have hend : ∀ {c : Cursor}, c.rest = [] → fence.keptFrom (d.wrapped ended).length c = [] :=
    fun hrest => keptFrom_of_end hrest ⟨by decide, by decide⟩
  rw [replaceAll_eq_keptFrom, hkept]
  refine congrArg _ ?_
  cases ended with
  | false =>
    rw [keptFrom_line (by decide) (.inl rfl) hopen hclosing, hend rfl]
    decide
  | true =>
    rw [keptFrom_line (by decide) (.inr ⟨[], rfl⟩) hopen hclosing, keptFrom_feed rfl, hend rfl]
    decide

theorem length_flatMap_le {f g : List Char → List Char}
    (h : ∀ line ∈ lines, (f line).length ≤ (g line).length) :
    (lines.flatMap f).length ≤ (lines.flatMap g).length := by
  induction lines with
  | nil => exact Nat.le_refl _
  | cons line lines ih =>
    rw [flatMap_cons, flatMap_cons, length_append, length_append]
    exact Nat.add_le_add (h line mem_cons_self) (ih fun l hl => h l (mem_cons_of_mem _ hl))

/-- Without fences and white space, `wrapped` is the document again, or something shorter. -/
theorem trim_wrapped (d : Document) (ended : Bool) : (∀ line ∈ splitAt '\n' d.text, Intact line) ∧
        trim (fence.replaceAll (fun _ => []) (d.wrapped ended)) = d.text ∨
      ¬ (∀ line ∈ splitAt '\n' d.text, Intact line) ∧
        (trim (fence.replaceAll (fun _ => []) (d.wrapped ended))).length < d.text.length := by
  have hfeeds : (splitAt '\n' d.text).flatMap (· ++ ['\n']) = d.text ++ ['\n'] := by
    rw [← joinWith_append_feed (splitAt_ne_nil _ _), joinWith_splitAt]
  rw [replaceAll_wrapped]
  by_cases hintact : ∀ line ∈ splitAt '\n' d.text, Intact line
  · refine .inl ⟨hintact, ?_⟩
    have hsame : (splitAt '\n' d.text).flatMap stripped = d.text ++ ['\n'] := by
      rw [← hfeeds]
      refine flatMap_congr fun line hline => ?_
      exact ((stripped_cases line).resolve_right fun h => h.1 (hintact line hline)).2
    rw [hsame, append_assoc]
    exact trimBoth_enclosed [] _ (by simp) (by cases ended <;> decide) d.firm
  · refine .inr ⟨hintact, Nat.lt_of_le_of_lt (length_trim_le _) ?_⟩
    obtain ⟨line, hline, hdamaged⟩ : ∃ line ∈ splitAt '\n' d.text, ¬ Intact line := by
      simpa using hintact
    obtain ⟨front, back, hsplit⟩ := append_of_mem hline
    have hle : ∀ line, (stripped line).length ≤ (line ++ ['\n']).length := by
      intro line
      rcases stripped_cases line with ⟨-, h⟩ | ⟨-, h⟩
      · rw [h]
      · omega
    have hloss := ((stripped_cases line).resolve_left fun h => hdamaged h.1).2
    have hfront : (front.flatMap stripped).length ≤ _ := length_flatMap_le fun line _ => hle line
    have hback : (back.flatMap stripped).length ≤ _ := length_flatMap_le fun line _ => hle line
    have hfeed : (lastFeed ended).length ≤ 1 := by cases ended <;> decide
    have htotal := congrArg length hfeeds
    rw [hsplit] at htotal ⊢
    simp only [flatMap_append, flatMap_cons, length_append, length_singleton]
      at htotal hfront hback hloss ⊢
    omega

/-! ## Escaped line feeds -/

/-- A line feed as `unwrap` finds it escaped. -/
def escape : List Char :=
  ['\\', 'n']

theorem splitTextFrom_ne_nil (separator : List Char) (skip : Nat) (piece text : List Char) :
    splitTextFrom separator skip piece text ≠ [] := by
  fun_induction splitTextFrom separator skip piece text with
  | case1 => exact cons_ne_nil _ _
  | case2 skip piece c rest hskip ih => exact ih
  | case3 skip piece c rest hskip hbegins ih => exact cons_ne_nil _ _
  | case4 skip piece c rest hskip hbegins ih => exact ih

/-- A text with escapes is longer than it is with line feeds in their place. -/
theorem length_unescaped (skip : Nat) (piece text : List Char) :
    (joinWith ['\n'] (splitTextFrom escape skip piece text)).length ≤
        piece.length + (text.length - skip) ∧ (skip = 0 → escape <:+: text →
        (joinWith ['\n'] (splitTextFrom escape skip piece text)).length <
          piece.length + text.length) := by
  fun_induction splitTextFrom escape skip piece text with
  | case1 skip piece =>
    refine ⟨by simp [joinWith], fun _ hescape => ?_⟩
    exact absurd (infix_nil.mp hescape) (by decide)
  | case2 skip piece c rest hskip ih =>
    refine ⟨Nat.le_trans ih.1 ?_, fun hzero => absurd hskip (by omega)⟩
    rw [length_cons]
    omega
  | case3 skip piece c rest hskip hbegins ih =>
    have hescape := isPrefixOf_iff_prefix.mp hbegins
    have hrest : 2 ≤ (c :: rest).length := hescape.length_le
    have hpieces := ih.1
    obtain ⟨next, more, hmore⟩ := exists_cons_of_ne_nil
      (splitTextFrom_ne_nil escape (escape.length - 1) [] rest)
    rw [hmore] at hpieces ⊢
    have hone : escape.length = 2 := rfl
    rw [joinWith_cons_cons]
    simp only [length_append, length_reverse, length_cons, length_nil] at hpieces hrest ⊢
    exact ⟨by omega, fun _ _ => by omega⟩
  | case4 skip piece c rest hskip hbegins ih =>
    obtain ⟨hpieces, hlater⟩ := ih
    rw [length_cons] at hpieces hlater ⊢
    refine ⟨by omega, fun _ hescape => ?_⟩
    rcases infix_cons_iff.mp hescape with hbegins' | hinside
    · rw [← isPrefixOf_iff_prefix] at hbegins'
      exact absurd hbegins' hbegins
    · have hlater := hlater rfl hinside
      omega

theorem splitTextFrom_of_absent {text : List Char} (h : ¬ escape <:+: text) (piece : List Char) :
    splitTextFrom escape 0 piece text = [piece.reverse ++ text] := by
  induction text generalizing piece with
  | nil =>
    rw [append_nil]
    rfl
  | cons c text ih =>
    have hbegins : ¬ escape.isPrefixOf (c :: text) := by
      intro hbegins
      have hescape := isPrefixOf_iff_prefix.mp hbegins
      exact h hescape.isInfix
    rw [splitTextFrom, if_neg (Nat.lt_irrefl 0), if_neg hbegins,
      ih (fun hinside => h (infix_cons_iff.mpr (.inr hinside)))]
    simp

/-- The last step of `unwrap` leaves a text as it is exactly if no `escape` is in it. -/
theorem unescaped_eq_iff (text : List Char) :
    joinWith ['\n'] (splitText escape text) = text ↔ ¬ escape <:+: text := by
  constructor
  · intro heq hescape
    have hshorter := (length_unescaped 0 [] text).2 rfl hescape
    rw [← splitText, heq, length_nil, Nat.zero_add] at hshorter
    exact Nat.lt_irrefl _ hshorter
  · intro h
    rw [splitText, splitTextFrom_of_absent h]
    rfl

/-- **`unwrap` gives a document as it was `wrapped`** exactly if all its lines are `Intact` and no
`escape` is in it. -/
theorem unwrap_wrapped (d : Document) (ended : Bool) : unwrap (d.wrapped ended) = d.text ↔
    (∀ line ∈ splitAt '\n' d.text, Intact line) ∧ ¬ escape <:+: d.text := by
  unfold unwrap
  rcases trim_wrapped d ended with ⟨hintact, htrim⟩ | ⟨hdamaged, hshorter⟩
  · rw [htrim, and_iff_right hintact]
    exact unescaped_eq_iff d.text
  · refine ⟨fun heq => ?_, fun h => absurd h.1 hdamaged⟩
    have hlength := (length_unescaped 0 []
      (trim (fence.replaceAll (fun _ => []) (d.wrapped ended)))).1
    have heq := congrArg length heq
    simp only [length_nil, Nat.zero_add, Nat.sub_zero] at hlength
    exact absurd (heq.symm.le.trans hlength) (Nat.not_le.mpr hshorter)

/-- **`generate` gives a document as the assistant wrote it** exactly if all its lines are `Intact`
and no `escape` is in it. -/
theorem generate_wrapped (d : Document) (ended : Bool) (project : Json) (s : Services) (k : Desk)
    {nodes : List Json} (hnodes : (Graph.nodes project s k).1 = .ok nodes)
    (hreply : s.assistant = .reply (some (String.ofList (d.wrapped ended)))) :
    ∃ readme, (generate project s k).1 = .ok readme ∧
      (readme = String.ofList d.text ↔
        (∀ line ∈ splitAt '\n' d.text, ¬ closing <:+ line ∧ line ≠ opening) ∧
          ¬ escape <:+: d.text) := by
  refine ⟨String.ofList (unwrap (d.wrapped ended)), ?_, ?_⟩
  · have hnodes : Graph.nodes project s k = (.ok nodes, (Graph.nodes project s k).2) :=
      Prod.ext hnodes rfl
    rw [generate, bind_of_ok hnodes, bind_apply, ask_apply, hreply]
    simp only [String.toList_ofList]
    rfl
  · rw [String.ofList_inj]
    exact unwrap_wrapped d ended

def codeBlock : Document :=
  ⟨"a\n```\nb\n```".toList, by decide, by decide⟩

/-- Services with an empty graph and an assistant that replies with a `wrapped` document. -/
def replying (d : Document) : Services :=
  { Repository.twoRepositories with assistant := .reply (some (String.ofList (d.wrapped false))) }

/-- `generate` takes the fences of a code block away. -/
theorem generate_codeBlock :
    (Graph.nodes .null (replying codeBlock) (.empty "/")).1 = .ok [] ∧
      (replying codeBlock).assistant = .reply (some (String.ofList (codeBlock.wrapped false))) ∧
      ∃ readme, (generate .null (replying codeBlock) (.empty "/")).1 = .ok readme ∧
        readme ≠ String.ofList codeBlock.text := by
  refine ⟨rfl, rfl, ?_⟩
  obtain ⟨readme, hreadme, hiff⟩ :=
    generate_wrapped codeBlock false .null (replying codeBlock) (.empty "/") rfl rfl
  refine ⟨readme, hreadme, fun heq => ?_⟩
  exact ((hiff.mp heq).1 closing (by decide)).1 suffix_rfl

end CodeAtlas.Readme
