import CodeAtlas.Proofs.Reading

/-!
# What a path spells

The components of an absolute path that mean something, `properComponents`, are the names it spells
(`Spells`). A joined name is spelled after them (`Spells.join`), and all that `makeDirectories`
looks at on the way to a path spells a beginning of them (`mem_ancestry`).

Where a path leads can then be told from the places on the way alone: to the place that it spells if
no link is on the way (`Spells.location`), to something if something is there
(`Spells.resolve_ne_notFound`), and to the same in two trees that hold nodes of one kind on the way
(`Spells.resolve_congr`).
-/

open List

namespace CodeAtlas

open CodeAtlas.Path Node

variable {path name : String} {names : List String}

namespace Path

/-! ## Components that mean something -/

/-- Whether a component means something: it is neither empty nor a single point. -/
def isProper (component : String) : Bool :=
  component != "" && component != "."

theorem properComponents_eq (path : String) :
    properComponents path = (components path).filter isProper := rfl

theorem isProper_of_isName (h : isName name) : isProper name := by
  obtain ⟨hempty, hpoint, -, -⟩ := isName_iff.mp h
  simp [isProper, hempty, hpoint]

theorem isProper_eq_false : isProper name = false ↔ (name = "" || name = ".") = true := by
  by_cases hempty : name = "" <;> simp [isProper, hempty]

theorem isProper_eq_true : isProper name = true ↔ (name = "" || name = ".") = false := by
  rw [← Bool.not_eq_false, isProper_eq_false, Bool.not_eq_true]

theorem properComponents_append (left right : String) :
    properComponents (left ++ "/" ++ right) = properComponents left ++ properComponents right := by
  simp only [properComponents_eq, components_append, filter_append]

theorem properComponents_slash (path : String) :
    properComponents (path ++ "/") = properComponents path := by
  have happend := properComponents_append path ""
  rw [String.append_empty] at happend
  rw [happend, properComponents_eq "", components_empty]
  exact append_nil _

theorem properComponents_join (path : String) (hname : isName name) :
    properComponents (join path name) = properComponents path ++ [name] := by
  have hlead : (lead path).filter isProper = properComponents path := by
    rcases components_eq_lead path with heq | heq
    · rw [properComponents_eq, heq]
    · rw [properComponents_eq, heq, filter_append]
      exact (append_nil _).symm
  rw [properComponents_eq, components_join path hname, filter_append, hlead,
    filter_cons_of_pos (isProper_of_isName hname), filter_nil]

/-- Slashes at the end mean nothing. -/
theorem properComponents_rdropWhile (text : List Char) :
    properComponents (String.ofList (text.rdropWhile (· == '/'))) =
      properComponents (String.ofList text) := by
  induction text using reverseRecOn with
  | nil => rfl
  | append_singleton text c ih =>
    by_cases hc : c = '/'
    · subst hc
      rw [rdropWhile_concat_pos _ _ _ (by simp), ih, String.ofList_append]
      exact (properComponents_slash _).symm
    · rw [rdropWhile_concat_neg _ _ _ (by simpa using hc)]

/-! ## What is above a path -/

/-- The `parent` of a path with a slash in it means what precedes the slash. -/
theorem properComponents_parent_append (directory : String) (hname : '/' ∉ name.toList) :
    properComponents (parent (directory ++ "/" ++ name)) = properComponents directory := by
  have htext : (directory ++ "/" ++ name).toList = directory.toList ++ '/' :: name.toList := by
    simp
  have hhead : properComponents (String.ofList (directory.toList ++ ['/'])) =
      properComponents directory := by
    rw [String.ofList_append, String.ofList_toList]
    exact properComponents_slash directory
  rw [parent_eq, htext, rdropWhile_slash_append hname]
  split
  · exact hhead
  · rw [properComponents_rdropWhile, hhead]

theorem properComponents_parent_join (path : String) (hname : isName name) :
    properComponents (parent (join path name)) = properComponents path := by
  have hslash := (isName_iff.mp hname).2.2.2
  cases hsolid : isSolid path with
  | true => rw [join_name hsolid hname, properComponents_parent_append path hslash]
  | false =>
    by_cases hne : path = ""
    · subst hne
      have hjoin : join "" name = name := by simp [join, not_isAbsolute_name hname]
      have hhead : name.toList.rdropWhile (· != '/') = [] := by
        rw [rdropWhile_eq_nil_iff]
        intro c hc
        simpa using fun heq : c = '/' => hslash (heq ▸ hc)
      rw [hjoin, parent_eq, hhead]
      rfl
    · obtain ⟨front, rfl⟩ := eq_slash_of_not_isSolid hsolid hne
      have hjoin : join (front ++ "/" ++ "") name = front ++ "/" ++ name := by
        simp [join, not_isAbsolute_name hname]
      rw [hjoin, properComponents_parent_append front hslash, String.append_empty,
        properComponents_slash]

/-- The `parent` of a path means a beginning of what the path means. -/
theorem properComponents_parent_prefix (path : String) :
    properComponents (parent path) <+: properComponents path := by
  by_cases hhead : path.toList.rdropWhile (· != '/') = []
  · rw [parent_eq, hhead]
    exact nil_prefix
  · -- the path is cut at its last slash
    have hlast : (path.toList.rdropWhile (· != '/')).getLast hhead = '/' := by
      simpa using rdropWhile_last_not (· != '/') path.toList hhead
    obtain ⟨rest, hrest⟩ := rdropWhile_prefix (· != '/') path.toList
    obtain ⟨front, hfront⟩ : ∃ front, path.toList.rdropWhile (· != '/') = front ++ ['/'] := by
      have hsplit := dropLast_append_getLast hhead
      rw [hlast] at hsplit
      exact ⟨_, hsplit.symm⟩
    have hparent : properComponents (parent path) = properComponents (String.ofList front) := by
      rw [parent_eq]
      split
      · rw [hfront, String.ofList_append]
        exact properComponents_slash _
      · rw [properComponents_rdropWhile, hfront, String.ofList_append]
        exact properComponents_slash _
    have hpath : path = String.ofList front ++ "/" ++ String.ofList rest := by
      rw [hfront] at hrest
      apply String.toList_inj.mp
      rw [← hrest]
      simp
    rw [hparent]
    conv => rhs; rw [hpath, properComponents_append]
    exact prefix_append _ _

theorem isAbsolute_of_start {start : String} (h : start.toList <+: path.toList)
    (habs : isAbsolute path) (hne : start ≠ "") : isAbsolute start := by
  have hlist : start.toList ≠ [] := by simpa using hne
  obtain ⟨tail, htail⟩ := h
  obtain ⟨c, rest, hstart⟩ := exists_cons_of_ne_nil hlist
  unfold isAbsolute at habs ⊢
  rw [← htail, hstart] at habs
  rw [hstart]
  exact habs

theorem parent_start (path : String) : (parent path).toList <+: path.toList := by
  have hhead := rdropWhile_prefix (· != '/') path.toList
  rw [parent_eq, String.toList_ofList]
  split
  · exact hhead
  · exact (List.rdropWhile_prefix _ _).trans hhead

/-- An absolute path has a `parent`: at least the root. -/
theorem parent_ne_empty (habs : isAbsolute path) : parent path ≠ "" := by
  obtain ⟨rest, hrest⟩ := head?_eq_some_iff.mp (beq_iff_eq.mp habs)
  have hhead : path.toList.rdropWhile (· != '/') ≠ [] := by
    rw [ne_eq, rdropWhile_eq_nil_iff]
    intro hnone
    have := hnone '/' (by rw [hrest]; exact mem_cons_self)
    simp at this
  rw [parent_eq]
  split
  · simpa using hhead
  · rename_i htrimmed
    simpa using htrimmed

theorem dropTrailingSlashes_eq (path : String) :
    dropTrailingSlashes path = String.ofList (path.toList.rdropWhile (· == '/')) := rfl

/-! ## Paths that spell names -/

/-- An absolute path whose `properComponents` are given names. -/
structure Spells (path : String) (l : List String) : Prop where
  absolute : isAbsolute path = true
  proper : properComponents path = l
  names : ∀ name ∈ l, isName name = true

theorem Spells.ne_empty {l : List String} (h : Spells path l) : path ≠ "" := by
  rintro rfl
  cases h.absolute

theorem Spells.join {l : List String} (h : Spells path l) (hname : isName name) :
    Spells (Path.join path name) (l ++ [name]) where
  absolute := by rw [isAbsolute_join path (not_isAbsolute_name hname), h.absolute]
  proper := by rw [properComponents_join path hname, h.proper]
  names n hn := by
    rcases mem_append.mp hn with hn | hn
    · exact h.names n hn
    · exact mem_singleton.mp hn ▸ hname

theorem Spells.below {l : List String} (h : Spells path l) (hnames : ∀ name ∈ names, isName name) :
    Spells (Path.below path names) (l ++ names) := by
  induction names using reverseRecOn with
  | nil => simpa using h
  | append_singleton names name ih =>
    rw [below_concat, ← append_assoc]
    exact (ih fun n hn => hnames n (by simp [hn])).join (hnames name (by simp))

/-- What `ancestry` goes on with spells a beginning of the path. -/
theorem Spells.above {l : List String} (h : Spells path l)
    (hne : parent (dropTrailingSlashes path) ≠ "") :
    ∃ k, k <+: l ∧ Spells (parent (dropTrailingSlashes path)) k := by
  have hstart : (dropTrailingSlashes path).toList <+: path.toList := by
    rw [dropTrailingSlashes_eq, String.toList_ofList]
    exact rdropWhile_prefix _ _
  have hproper : properComponents (dropTrailingSlashes path) = l := by
    rw [dropTrailingSlashes_eq, properComponents_rdropWhile, String.ofList_toList, h.proper]
  have hbegin : properComponents (parent (dropTrailingSlashes path)) <+: l :=
    hproper ▸ properComponents_parent_prefix _
  refine ⟨_, hbegin, ?_, rfl, fun n hn => h.names n (hbegin.subset hn)⟩
  exact isAbsolute_of_start ((parent_start _).trans hstart) h.absolute hne

end Path

namespace Workspace

variable {w w' : Workspace} {p : String} {steps : Nat} {l : Location} {followLast : Bool}

/-- Whatever is in the `ancestry` of a path spells a beginning of it. -/
theorem mem_ancestry (h : Spells path l) (hp : p ∈ ancestry steps path) :
    ∃ k, k <+: l ∧ Spells p k := by
  induction steps generalizing path l with
  | zero =>
    rw [ancestry, mem_singleton] at hp
    exact ⟨l, prefix_rfl, hp ▸ h⟩
  | succ steps ih =>
    rw [ancestry] at hp
    split at hp
    · rw [mem_singleton] at hp
      exact ⟨l, prefix_rfl, hp ▸ h⟩
    rename_i hgo
    rcases mem_append.mp hp with hp | hp
    · obtain ⟨k, hk, habove⟩ := h.above fun hempty => by simp [hempty] at hgo
      obtain ⟨k', hk', hspells⟩ := ih habove hp
      exact ⟨k', hk'.trans hk, hspells⟩
    · rw [mem_singleton] at hp
      exact ⟨l, prefix_rfl, hp ▸ h⟩

/-- What is in the `ancestry` of a joined path, but for the path itself, spells a beginning of what
it was joined to. -/
theorem mem_ancestry_join (h : Spells path l) (hname : isName name)
    (hp : p ∈ ancestry steps (join path name)) :
    p = join path name ∨ ∃ k, k <+: l ∧ Spells p k := by
  cases steps with
  | zero =>
    rw [ancestry, mem_singleton] at hp
    exact .inl hp
  | succ steps =>
    have htrim := dropTrailingSlashes_of_isSolid (isSolid_join path hname)
    rw [ancestry] at hp
    split at hp
    · exact .inl (mem_singleton.mp hp)
    rename_i hgo
    rcases mem_append.mp hp with hp | hp
    · obtain ⟨k, -, habove⟩ := (h.join hname).above fun hempty => by simp [hempty] at hgo
      obtain ⟨k', hk', hspells⟩ := mem_ancestry habove hp
      have hparent := habove.proper
      rw [htrim, properComponents_parent_join path hname, h.proper] at hparent
      exact .inr ⟨k', hparent ▸ hk', hspells⟩
    · exact .inl (mem_singleton.mp hp)

/-! ## Where components lead -/

variable {links : Nat} {here : Location} {place : Place} {n : Node}

/-- Where something is at the place that components spell, `resolveFrom` may only be stopped by a
closed directory or a name that is too long. -/
theorem resolveFrom_ne_notFound (hup : ".." ∉ names)
    (hat : w.root.at? (here ++ names.filter isProper) = some n) (hlink : n.isLink = false) :
    w.resolveFrom followLast links here names ≠ .error .notFound := by
  induction names generalizing here with
  | nil =>
    rw [filter_nil, append_nil] at hat
    rw [resolveFrom_nil, hat]
    simp
  | cons name rest ih =>
    rw [mem_cons, not_or] at hup
    have hhere : ∃ m, w.root.at? here = some m := by
      rw [at?_append] at hat
      obtain ⟨m, hm, -⟩ := Option.bind_eq_some_iff.mp hat
      exact ⟨m, hm⟩
    obtain ⟨m, hm⟩ := hhere
    rw [resolveFrom_cons, hm]
    cases m with
    | file _ | link _ => simp
    | directory isOpen es =>
    cases isOpen with
    | false => simp
    | true =>
    cases hproper : isProper name with
    | false =>
      rw [filter_cons_of_neg (by simp [hproper])] at hat
      simp only [isProper_eq_false.mp hproper, if_true]
      exact ih hup.2 hat
    | true =>
      have hblank := isProper_eq_true.mp hproper
      rw [filter_cons_of_pos hproper, append_cons] at hat
      simp only [hblank, Ne.symm hup.1, Bool.false_eq_true, if_false]
      split
      · simp
      have hentry := hat
      rw [at?_append, at?_concat hm] at hentry
      cases hlook : es.lookup name with
      | none => rw [hlook] at hentry; cases hentry
      | some c =>
        rw [hlook] at hentry
        cases c with
        | file _ | directory _ _ => exact ih hup.2 hat
        | link target =>
          -- a link holds nothing, so it would be what is at the end
          cases hrest : rest.filter isProper with
          | nil =>
            rw [hrest] at hentry
            cases hentry
            cases hlink
          | cons _ _ => rw [hrest] at hentry; cases hentry

/-- Where no link is on the way, `resolveFrom` follows none. -/
theorem linksLeft_of_no_link (hup : ".." ∉ names)
    (hway : ∀ k, k <+: here ++ names.filter isProper → ∀ target,
      w.root.at? k ≠ some (.link target))
    (h : w.resolveFrom followLast links here names = .ok place) : place.linksLeft = links := by
  replace h := leads_of_resolveFrom h
  induction h with
  | here | link => rfl
  | stay _ hname _ ih =>
    rw [mem_cons, not_or] at hup
    rw [filter_cons_of_neg (by simp [isProper_eq_false.mpr hname])] at hway
    exact ih hup.2 hway
  | up => simp at hup
  | down _ hname _ _ _ _ _ ih =>
    rw [mem_cons, not_or] at hup
    rw [filter_cons_of_pos (isProper_eq_true.mpr hname), append_cons] at hway
    exact ih hup.2 hway
  | follow hat hname _ _ hlook =>
    rw [filter_cons_of_pos (isProper_eq_true.mpr hname), append_cons] at hway
    exact absurd ((at?_concat hat _).trans hlook) (hway _ (prefix_append _ _) _)

/-- Without points that lead up, components add up to the place that they spell. -/
theorem foldl_step_eq_filter (hup : ".." ∉ names) (here : Location) :
    names.foldl step here = here ++ names.filter isProper := by
  induction names generalizing here with
  | nil => simp
  | cons name rest ih =>
    rw [mem_cons, not_or] at hup
    rw [foldl_cons, ih hup.2, step]
    cases hproper : isProper name with
    | false =>
      rw [if_pos (isProper_eq_false.mp hproper), filter_cons_of_neg (by simp [hproper])]
    | true =>
      have hblank := isProper_eq_true.mp hproper
      rw [filter_cons_of_pos hproper, if_neg (by simp [hblank]), if_neg (Ne.symm hup.1),
        append_assoc, singleton_append]

/-- `resolveFrom` is the same in two trees with nodes of one kind on the way, no links among them,
and the same at its end. -/
theorem resolveFrom_congr (hup : ".." ∉ names)
    (hway : ∀ k, k <+: here ++ names.filter isProper →
      SameKind (w.root.at? k) (w'.root.at? k) ∧ ∀ target, w.root.at? k ≠ some (.link target))
    (hend : w'.root.at? (here ++ names.filter isProper) =
      w.root.at? (here ++ names.filter isProper)) :
    w'.resolveFrom followLast links here names = w.resolveFrom followLast links here names := by
  have hmap : ∀ {x y : Except FileCause Place}, x.map id = y.map id → x = y := by
    intro x y h
    cases x <;> cases y <;> simp_all [Except.map]
  induction names generalizing here with
  | nil =>
    rw [filter_nil, append_nil] at hend
    rw [resolveFrom_nil, resolveFrom_nil, hend]
  | cons name rest ih =>
    rw [mem_cons, not_or] at hup
    have hhere := (hway here (prefix_append _ _)).1
    refine hmap (resolveFrom_cons_congr id hhere (fun hblank => ?_)
      (fun heq => absurd heq.symm hup.1) (fun hblank => ?_) fun hblank target hlink => ?_)
    · rw [filter_cons_of_neg (by simp [isProper_eq_false.mpr hblank])] at hway hend
      rw [ih hup.2 hway hend]
    · rw [filter_cons_of_pos (isProper_eq_true.mpr hblank), append_cons] at hway hend
      exact ⟨(hway _ (prefix_append _ _)).1, by rw [ih hup.2 hway hend]⟩
    · rw [filter_cons_of_pos (isProper_eq_true.mpr hblank), append_cons] at hway
      exact absurd hlink ((hway _ (prefix_append _ _)).2 target)

/-! ## Where spelled paths lead -/

end Workspace

namespace Path

open CodeAtlas.Workspace

variable {w w' : Workspace} {l : Location} {followLast : Bool} {n : Node}

theorem Spells.points_not_mem (h : Spells path l) : ".." ∉ components path := by
  intro hmem
  have hproper : ".." ∈ properComponents path := mem_filter.mpr ⟨hmem, by decide⟩
  rw [h.proper] at hproper
  exact absurd (h.names _ hproper) (by decide)

theorem Spells.start_eq (h : Spells path l) (here : Location) : start here path = [] := by
  rw [start, if_pos h.absolute]

/-- `resolve` finds something if something is at the place that a path spells. -/
theorem Spells.resolve_ne_notFound (h : Spells path l) (hat : w.root.at? l = some n)
    (hlink : n.isLink = false) (q : String) :
    w.resolve followLast path ≠ .error (.path .notFound q) := by
  have hfrom : w.resolveFrom followLast linkLimit [] (components path) ≠ .error .notFound := by
    refine resolveFrom_ne_notFound h.points_not_mem ?_ hlink
    rw [nil_append, ← properComponents_eq, h.proper, hat]
  intro hresolve
  unfold resolve at hresolve
  rw [h.start_eq, if_neg h.ne_empty] at hresolve
  split at hresolve
  · cases hresolve
  split at hresolve
  · cases hresolve
  cases hres : w.resolveFrom followLast linkLimit [] (components path) with
  | ok p => rw [hres] at hresolve; cases hresolve
  | error cause =>
    rw [hres] at hresolve
    cases hresolve
    exact hfrom hres

/-- Where no link is on the way, a path leads to the place that it spells. -/
theorem Spells.location (h : Spells path l)
    (hway : ∀ k, k <+: l → ∀ target, w.root.at? k ≠ some (.link target))
    {place : Place} (hp : w.resolve followLast path = .ok place) : place.location = l := by
  obtain ⟨-, -, -, hres⟩ := resolve_eq_ok_iff.mp hp
  rw [h.start_eq] at hres
  have hfilter : [] ++ (components path).filter isProper = l := h.proper
  have hlinks := linksLeft_of_no_link h.points_not_mem (hfilter.symm ▸ hway) hres
  rw [location_of_straight hres hlinks, foldl_step_eq_filter h.points_not_mem, hfilter]

/-- `resolve` is the same in two trees with nodes of one kind on the way, no links among them, and
the same at its end. -/
theorem Spells.resolve_congr (h : Spells path l)
    (hway : ∀ k, k <+: l →
      SameKind (w.root.at? k) (w'.root.at? k) ∧ ∀ target, w.root.at? k ≠ some (.link target))
    (hend : w'.root.at? l = w.root.at? l) :
    w'.resolve followLast path = w.resolve followLast path := by
  have hfilter : [] ++ (components path).filter isProper = l := h.proper
  have hfrom : w'.resolveFrom followLast linkLimit [] (components path) =
      w.resolveFrom followLast linkLimit [] (components path) :=
    resolveFrom_congr h.points_not_mem (hfilter.symm ▸ hway) (hfilter.symm ▸ hend)
  unfold resolve
  rw [h.start_eq, h.start_eq, hfrom]

end Path

end CodeAtlas
