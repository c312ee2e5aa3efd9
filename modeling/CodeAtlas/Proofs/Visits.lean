import CodeAtlas.Proofs.Staying

/-!
# Walks among links

A walk goes through open directories alone and comes to files and links (`Node.reach?`). It takes a
link for a file unless it leads to a directory, so what it finds depends on the tree it walks and on
where links lead, and on nothing else (`mem_filesBelow`, `filesBelow_congr`).
-/

open List

namespace CodeAtlas

open CodeAtlas.Path Node

variable {n : Node}

namespace Node

/-- The node at the end of a chain of names that goes through open directories alone. -/
def reach? (n : Node) : Location → Option Node
  | [] => some n
  | name :: rest =>
    match n with
    | .directory true es =>
      match es.lookup name with
      | none => none
      | some c => c.reach? rest
    | _ => none

/-- A directory whose entries have different names that a file system lets them have. -/
def isNamed : Node → Bool
  | .directory _ es => es.all (fun e => isEntryName e.1) && (es.map Prod.fst).Nodup
  | _ => true

theorem isNamed_directory {isOpen : Bool} {es : List (String × Node)} :
    isNamed (.directory isOpen es) ↔ (∀ e ∈ es, isEntryName e.1) ∧ (es.map Prod.fst).Nodup := by
  simp [isNamed]

variable {m : Node} {l : Location}

/-- The first step of `reach?` is into an entry of an open directory. -/
theorem reach?_cons {name : String} {rest : Location} :
    n.reach? (name :: rest) = some m ↔
      ∃ es c, n = .directory true es ∧ es.lookup name = some c ∧ c.reach? rest = some m := by
  constructor
  · intro h
    unfold reach? at h
    split at h
    case h_2 => cases h
    case h_1 es =>
      cases hlook : es.lookup name with
      | none => rw [hlook] at h; cases h
      | some c =>
        rw [hlook] at h
        exact ⟨es, c, rfl, hlook, h⟩
  · rintro ⟨es, c, rfl, hlook, h⟩
    simp only [reach?, hlook, h]

/-- `reach?` goes through names of a file system. -/
theorem isName_of_reach? (hnamed : n.all isNamed) (h : n.reach? l = some m) :
    ∀ name ∈ l, isName name := by
  induction l generalizing n with
  | nil => simp
  | cons name rest ih =>
    obtain ⟨es, c, rfl, hlook, h⟩ := reach?_cons.mp h
    obtain ⟨hnames, hnodup⟩ := isNamed_directory.mp (ok_of_all hnamed)
    have hc : c.all isNamed := all_of_child? hnamed hlook
    intro x hx
    rcases mem_cons.mp hx with rfl | hx
    · exact isName_of_isEntryName
        (hnames _ ((lookup_eq_some_iff_mem hnodup).mp hlook))
    · exact ih hc h x hx

/-- The way to what `reach?` finds `stays` inside, unless it ends with a link. -/
theorem stays_of_reach? {tree : Node} {here : Location} (hat : tree.at? here = some n)
    (h : n.reach? l = some m) (hm : m.isLink = false) (hl : ∀ name ∈ l, isName name) (links : Nat) :
    tree.stays links here l := by
  induction l generalizing n here with
  | nil => cases links <;> rfl
  | cons name rest ih =>
    obtain ⟨es, c, rfl, hlook, h⟩ := reach?_cons.mp h
    obtain ⟨hempty, hpoint, hpoints, -⟩ := isName_iff.mp (hl name mem_cons_self)
    have hrest := ih ((at?_concat hat name).trans hlook) h
      fun x hx => hl x (mem_cons_of_mem _ hx)
    rw [stays_cons, hat]
    simp only [hempty, hpoint, hpoints, decide_false, Bool.or_self, Bool.false_eq_true, if_false,
      hlook]
    cases c with
    | file _ | directory _ _ => exact hrest
    | link target =>
      -- nothing is reached through a link
      cases rest with
      | nil =>
        cases h
        cases hm
      | cons _ _ => cases h

end Node

namespace Workspace

variable {path : String}

/-- A place that a walk takes for a file: a file, or a link that does not lead to a directory. -/
def Visits (w : Workspace) (path : String) (n : Node) (l : Location) : Prop :=
  (∃ bytes, n.reach? l = some (.file bytes)) ∨
    ((∃ target, n.reach? l = some (.link target)) ∧ w.isDirectory (below path l) = false)

variable {w : Workspace} {found : String}

theorem visits_cons {name : String} {rest : Location} :
    w.Visits path n (name :: rest) ↔ ∃ es c, n = .directory true es ∧ es.lookup name = some c ∧
        w.Visits (join path name) c rest := by
  unfold Visits
  simp only [reach?_cons]
  constructor
  · rintro (⟨bytes, es, c, hn, hlook, h⟩ | ⟨⟨target, es, c, hn, hlook, h⟩, hfile⟩)
    · exact ⟨es, c, hn, hlook, .inl ⟨bytes, h⟩⟩
    · exact ⟨es, c, hn, hlook, .inr ⟨⟨target, h⟩, hfile⟩⟩
  · rintro ⟨es, c, hn, hlook, ⟨bytes, h⟩ | ⟨⟨target, h⟩, hfile⟩⟩
    · exact .inl ⟨bytes, es, c, hn, hlook, h⟩
    · exact .inr ⟨⟨target, es, c, hn, hlook, h⟩, hfile⟩

/-- What a walk finds right at a path. -/
theorem file?_foundAt :
    (w.foundAt path n).file? = some found ↔ w.Visits path n [] ∧ path = found := by
  cases n with
  | file _ | directory _ _ => simp [foundAt, Found.file?, Visits, reach?]
  | link target =>
    cases hdirectory : w.isDirectory path with
    | true | false => simp [foundAt, Found.file?, Visits, reach?, hdirectory]

/-- What a walk finds further down. -/
theorem paths_foundAt (w : Workspace) (path : String) (n : Node) :
    (w.foundAt path n).paths = w.filesBelow path n := by
  cases n with
  | file bytes => rw [filesBelow_eq_nil w path (by simp)]; rfl
  | directory isOpen es => rfl
  | link target =>
    rw [filesBelow_eq_nil w path (by simp), foundAt]
    split <;> rfl

/-- **`filesBelow` a path in a tree with links** are the places that a walk `Visits`. -/
theorem mem_filesBelow (hnamed : n.all isNamed) :
    found ∈ w.filesBelow path n ↔ ∃ l, l ≠ [] ∧ w.Visits path n l ∧ below path l = found := by
  induction n using openInduction generalizing path with
  | closed n hn =>
    rw [filesBelow_eq_nil w path hn]
    constructor
    · intro h
      cases h
    · rintro ⟨l, hne, hvisits, -⟩
      obtain ⟨name, rest, rfl⟩ := exists_cons_of_ne_nil hne
      obtain ⟨es, -, heq, -⟩ := visits_cons.mp hvisits
      exact absurd heq (hn es)
  | opened es ih =>
  obtain ⟨-, hnodup⟩ := isNamed_directory.mp (ok_of_all hnamed)
  have hentries := all_of_mem_entries hnamed
  have hlookup : ∀ {name c}, es.lookup name = some c ↔ (name, c) ∈ es :=
    lookup_eq_some_iff_mem hnodup
  rw [filesBelow_directory, mem_append, mem_filterMap, mem_flatMap]
  simp only [paths_foundAt, file?_foundAt]
  constructor
  · rintro (⟨⟨name, c⟩, he, hvisits, hfound⟩ | ⟨⟨name, c⟩, he, hfound⟩)
    · exact ⟨[name], by simp, visits_cons.mpr ⟨es, c, rfl, hlookup.mpr he, hvisits⟩, hfound⟩
    · obtain ⟨l, -, hvisits, hl⟩ := (ih _ he (hentries _ he)).mp hfound
      exact ⟨name :: l, by simp, visits_cons.mpr ⟨es, c, rfl, hlookup.mpr he, hvisits⟩, hl⟩
  · rintro ⟨l, hne, hvisits, hl⟩
    obtain ⟨name, rest, rfl⟩ := exists_cons_of_ne_nil hne
    obtain ⟨es', c, heq, hlook, hrest⟩ := visits_cons.mp hvisits
    cases heq
    have he := hlookup.mp hlook
    by_cases hnil : rest = []
    · subst hnil
      exact .inl ⟨(name, c), he, hrest, hl⟩
    · exact .inr ⟨(name, c), he, (ih _ he (hentries _ he)).mpr ⟨rest, hnil, hrest, hl⟩⟩

/-- `filesBelow` are the same where walks agree on which links lead to directories. -/
theorem filesBelow_congr {w₁ w₂ : Workspace} (hnamed : n.all isNamed)
    (h : ∀ l target, l ≠ [] → n.reach? l = some (.link target) →
      w₁.isDirectory (below path l) = w₂.isDirectory (below path l)) :
    w₁.filesBelow path n = w₂.filesBelow path n := by
  induction n using openInduction generalizing path with
  | closed n hn => rw [filesBelow_eq_nil w₁ path hn, filesBelow_eq_nil w₂ path hn]
  | opened es ih =>
  obtain ⟨-, hnodup⟩ := isNamed_directory.mp (ok_of_all hnamed)
  have hentries := all_of_mem_entries hnamed
  have hfound : ∀ e ∈ es,
      w₁.foundAt (join path e.1) e.2 = w₂.foundAt (join path e.1) e.2 := by
    rintro ⟨name, c⟩ he
    have hlook := (lookup_eq_some_iff_mem hnodup).mpr he
    have hbelow : ∀ l target, c.reach? l = some (.link target) →
        w₁.isDirectory (below (join path name) l) =
          w₂.isDirectory (below (join path name) l) :=
      fun l target hl =>
        h (name :: l) target (by simp) (reach?_cons.mpr ⟨es, c, rfl, hlook, hl⟩)
    cases c with
    | file bytes => rfl
    | link target =>
      have hdirectory : w₁.isDirectory (join path name) =
          w₂.isDirectory (join path name) := hbelow [] target rfl
      simp only [foundAt, hdirectory]
    | directory isOpen' entries =>
      simp only [foundAt, ih _ he (hentries _ he) fun l target _ => hbelow l target]
  rw [filesBelow_directory, filesBelow_directory,
    filterMap_congr fun e he => congrArg Found.file? (hfound e he),
    flatMap_congr fun e he => congrArg Found.paths (hfound e he)]

/-- A link is among `filesAt` a path just if it does not lead to a directory. -/
theorem mem_filesAt_of_link {l : Location} {tree : Node} {target : String}
    (hfind : w.find? path = some tree) (hnamed : tree.all isNamed) (hne : l ≠ [])
    (hlink : tree.reach? l = some (.link target)) :
    below path l ∈ w.filesAt path ↔ w.isDirectory (below path l) = false := by
  have hfiles : w.filesAt path = w.filesBelow path tree := by
    unfold filesAt
    rw [hfind]
  rw [hfiles, mem_filesBelow hnamed]
  constructor
  · rintro ⟨l', hne', hvisits, hpath⟩
    have hnames' : ∀ name ∈ l', isName name := by
      rcases hvisits with ⟨bytes, h⟩ | ⟨⟨target', h⟩, -⟩
      · exact isName_of_reach? hnamed h
      · exact isName_of_reach? hnamed h
    have heq : l' = l :=
      below_injective path hne' hnames' hne (isName_of_reach? hnamed hlink) hpath
    subst heq
    rcases hvisits with ⟨bytes, hfile⟩ | ⟨-, hdirectory⟩
    · rw [hlink] at hfile
      cases hfile
    · exact hdirectory
  · intro hdirectory
    exact ⟨l, hne, .inr ⟨⟨target, hlink⟩, hdirectory⟩, rfl⟩

end Workspace

end CodeAtlas
