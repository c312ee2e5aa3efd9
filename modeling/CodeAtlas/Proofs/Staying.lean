import CodeAtlas.Proofs.NormalForm

/-!
# Links that stay inside

Resolving a path follows links wherever they lead. Whether the way stays inside a part of the tree
can be told from that part alone (`Node.stays`): it never climbs above its top, and no link on the
way has an absolute target. Then what is found does not depend on anything outside
(`resolveFrom_inside`), and neither does what a path below the top shows, as it stands or in normal
form (`shows_below`).
-/

open List

namespace CodeAtlas

open CodeAtlas.Path

namespace Node

/-- Whether components stay inside a tree, given that of the targets of links with the components
after them. -/
def staysOn (tree : Node) (follow : Location → String → List String → Bool) :
    List String → Location → Bool
  | [], _ => true
  | name :: rest, here =>
    match tree.at? here with
    | some (.directory true es) =>
      if name = "" || name = "." then staysOn tree follow rest here
      else if name = ".." then !here.isEmpty && staysOn tree follow rest here.dropLast
      else
        match es.lookup name with
        | some (.link target) => follow here target rest
        | some _ => staysOn tree follow rest (here ++ [name])
        | none => true
    -- nothing leads further from here
    | _ => true

/-- Whether components stay inside a tree, with at most so many links. -/
def stays (tree : Node) : (links : Nat) → Location → List String → Bool
  | 0, here, names => tree.staysOn (fun _ _ _ => true) names here
  | links + 1, here, names =>
    tree.staysOn (fun place target rest =>
      !isAbsolute target && tree.stays links place (components target ++ rest)) names here

/-- Whether the target of a link stays inside a tree, with so many links left. -/
def staysAfter (tree : Node) : (links : Nat) → Location → String → List String → Bool
  | 0, _, _, _ => true
  | links + 1, place, target, rest =>
    !isAbsolute target && tree.stays links place (components target ++ rest)

theorem stays_eq (tree : Node) (links : Nat) (here : Location) (names : List String) :
    tree.stays links here names = tree.staysOn (tree.staysAfter links) names here := by
  cases links <;> rfl

/-- One component of a way that `stays` inside a tree. -/
theorem stays_cons (tree : Node) (links : Nat) (here : Location) (name : String)
    (rest : List String) : tree.stays links here (name :: rest) = match tree.at? here with
      | some (.directory true es) =>
        if name = "" || name = "." then tree.stays links here rest
        else if name = ".." then !here.isEmpty && tree.stays links here.dropLast rest
        else
          match es.lookup name with
          | some (.link target) => tree.staysAfter links here target rest
          | some _ => tree.stays links (here ++ [name]) rest
          | none => true
      | _ => true := by
  simp only [stays_eq]
  rfl

end Node

/-- The place in a tree of a place in the part of it at a location. -/
def Place.under (l : Location) (p : Place) : Place :=
  { p with location := l ++ p.location }

namespace Workspace

variable {w₁ w₂ : Workspace}

def holding (tree : Node) : Workspace :=
  ⟨"/", tree⟩

/-- A way that `stays` inside a part of the tree finds what it finds in that part alone. -/
theorem resolveFrom_inside {w : Workspace} {top : Location} {tree : Node}
    (htop : w.root.at? top = some tree) {links : Nat} {here : Location} {names : List String}
    (h : tree.stays links here names) :
    w.resolveFrom true links (top ++ here) names =
      ((holding tree).resolveFrom true links here names).map (Place.under top) := by
  have hat : ∀ l, w.root.at? (top ++ l) = tree.at? l := by
    intro l
    rw [Node.at?_append, htop]
    rfl
  have hroot : (holding tree).root = tree := rfl
  induction links using Nat.strong_induction_on generalizing here names with
  | _ links ihLinks =>
  induction names generalizing here with
  | nil =>
    rw [resolveFrom_nil, resolveFrom_nil, hat, hroot]
    cases tree.at? here <;> rfl
  | cons name rest ih =>
    rw [Node.stays_cons] at h
    rw [resolveFrom_cons, resolveFrom_cons, hat, hroot]
    cases hnode : tree.at? here with
    | none => rfl
    | some n =>
    rw [hnode] at h
    cases n with
    | file _ | link _ => rfl
    | directory isOpen es =>
    cases isOpen with
    | false => rfl
    | true =>
    simp only at h ⊢
    by_cases hstay : (name = "" || name = ".")
    · simp only [hstay, if_true] at h ⊢
      exact ih h
    rw [Bool.not_eq_true] at hstay
    simp only [hstay, Bool.false_eq_true, if_false] at h ⊢
    by_cases hup : name = ".."
    · simp only [hup, if_true] at h ⊢
      -- the way up ends inside the tree, not above its top
      rw [Bool.and_eq_true, Bool.not_eq_true', isEmpty_eq_false_iff] at h
      rw [dropLast_append_of_ne_nil h.1]
      exact ih h.2
    simp only [hup, if_false] at h ⊢
    by_cases hlong : nameLimit < name.utf8ByteSize
    · simp only [hlong, if_true]
      rfl
    simp only [hlong, if_false]
    cases hlook : es.lookup name with
    | none => rfl
    | some c =>
    rw [hlook] at h
    cases c with
    | file _ | directory _ _ =>
      rw [append_assoc]
      exact ih h
    | link target =>
      simp only [Bool.not_true, Bool.and_false, Bool.false_eq_true, if_false] at h ⊢
      cases links with
      | zero => rfl
      | succ links =>
        simp only [Node.staysAfter, Bool.and_eq_true, Bool.not_eq_true'] at h
        obtain ⟨hrel, htarget⟩ := h
        simp only [follow, start, hrel, Bool.false_eq_true, if_false]
        split
        · rfl
        · exact ihLinks links (Nat.lt_succ_self _) htarget

/-! ## What paths show -/

/-- What a path shows: the node that it leads to, or why it leads to none. -/
def shows (w : Workspace) (path : String) : Except FileError Node :=
  (w.resolve true path).map Place.node

theorem readFile_eq_of_shows {path : String} (h : w₁.shows path = w₂.shows path) :
    w₁.readFile path = w₂.readFile path := by
  unfold shows at h
  unfold readFile
  obtain ⟨e, h₁, h₂⟩ | ⟨p₁, p₂, h₁, h₂, hnode⟩ := error_or_ok_of_map_eq h
  · rw [h₁, h₂]
  · simp only [h₁, h₂, bind, Except.bind, hnode]

theorem isDirectory_eq_of_shows {path : String} (h : w₁.shows path = w₂.shows path) :
    w₁.isDirectory path = w₂.isDirectory path := by
  have hfind : ∀ w : Workspace, w.find? path = (w.shows path).toOption := by
    intro w
    unfold find? shows
    cases w.resolve true path <;> rfl
  simp only [isDirectory, hfind, h]

theorem shows_congr {path : String}
    (h : (w₁.resolveFrom true linkLimit (start w₁.home path) (components path)).map Place.node =
      (w₂.resolveFrom true linkLimit (start w₂.home path) (components path)).map Place.node) :
    w₁.shows path = w₂.shows path := by
  have hshows : ∀ w : Workspace, w.shows path =
        if path.toList.contains '\x00' then .error .nullCharacter
        else if path = "" then .error (.path .notFound path)
        else if pathLimit < path.utf8ByteSize then .error (.path .nameTooLong path)
        else ((w.resolveFrom true linkLimit (start w.home path) (components path)).map
          Place.node).mapError (.path · path) := by
    intro w
    unfold shows resolve
    split
    · rfl
    split
    · rfl
    split
    · rfl
    cases w.resolveFrom true linkLimit (start w.home path) (components path) <;> rfl
  rw [hshows w₁, hshows w₂, h]

/-! ## Paths below a directory -/

section Below

variable {w : Workspace} {path : String} {top : Location} {es : List (String × Node)} {links : Nat}
  {l : Location}

/-- Names after components that lead to a directory, on a way that `stays` inside it. -/
theorem resolveFrom_append_inside {tree : Node} {front : List String} {here : Location}
    (hfront : w.resolveFrom true linkLimit here front = .ok ⟨top, tree, links⟩)
    (hstays : tree.stays links [] l) :
    (w.resolveFrom true linkLimit here (front ++ l)).map Place.node =
      ((holding tree).resolveFrom true links [] l).map Place.node := by
  have hinside := resolveFrom_inside (at?_of_resolveFrom hfront) hstays
  rw [append_nil] at hinside
  rw [resolveFrom_append w true linkLimit here front (.inr rfl), hfront]
  show (w.resolveFrom true links top l).map Place.node = _
  rw [hinside]
  cases (holding tree).resolveFrom true links [] l <;> rfl

/-- A path `below` a directory starts where the path of the directory starts, as it stands and in
normal form, and its components end with the names. -/
theorem components_into (path : String) (hne : l ≠ []) (hl : ∀ name ∈ l, isName name)
    {spelled : String} (hspelled : spelled = below path l ∨ spelled = normalForm (below path l)) :
    isAbsolute spelled = isAbsolute path ∧
      ∃ front, components spelled = front ++ l ∧
        front.filter isProper = (lead path).filter isProper := by
  have hbelow := components_below path hne hl
  have habs : isAbsolute (below path l) = isAbsolute path := by
    clear hne hspelled hbelow
    induction l using reverseRecOn with
    | nil => rfl
    | append_singleton l name ih =>
      rw [below_concat, isAbsolute_join _ (not_isAbsolute_name (hl name (by simp))),
        ih fun n hn => hl n (by simp [hn])]
  rcases hspelled with rfl | rfl
  · exact ⟨habs, lead path, hbelow, rfl⟩
  · -- the names mean something, so they are what the normal form ends with
    have hnames : l.filter isProper = l := by
      rw [filter_eq_self]
      exact fun name hname => isProper_of_isName (hl name hname)
    have hproper : properComponents (below path l) = (lead path).filter isProper ++ l := by
      rw [properComponents_eq, hbelow, filter_append, hnames]
    have hsome : properComponents (below path l) ≠ [] := by simp [hproper, hne]
    obtain ⟨front, hnothing, hcomponents⟩ := components_normalForm hsome
    rw [hproper, ← append_assoc] at hcomponents
    refine ⟨by rw [isAbsolute_normalForm hsome, habs], _, hcomponents, ?_⟩
    rw [filter_append, hnothing, nil_append, filter_filter]
    simp

/-- **A way that `stays` inside a directory shows the same in every tree that has the directory
there**, spelled as it stands or in normal form. -/
theorem shows_below {top₁ top₂ : Location}
    (h₁ : w₁.resolve true path = .ok ⟨top₁, .directory true es, links⟩)
    (h₂ : w₂.resolve true path = .ok ⟨top₂, .directory true es, links⟩) (hne : l ≠ [])
    (hl : ∀ name ∈ l, isName name)
    (hstays : (Node.directory true es).stays links [] l) {spelled : String}
    (hspelled : spelled = below path l ∨ spelled = normalForm (below path l)) :
    w₁.shows spelled = w₂.shows spelled := by
  obtain ⟨habs, front, hcomponents, hfront⟩ := components_into path hne hl hspelled
  have hinto : ∀ {w : Workspace} {top : Location},
      w.resolve true path = .ok ⟨top, .directory true es, links⟩ →
        w.resolveFrom true linkLimit (start w.home spelled) front =
          .ok ⟨top, .directory true es, links⟩ := by
    intro w top h
    have hlead := resolveFrom_lead (resolve_eq_ok_iff.mp h).2.2.2
    have hstart : start w.home spelled = start w.home path := by rw [start, start, habs]
    rw [hstart, ← resolveFrom_filter rfl, hfront, resolveFrom_filter rfl]
    exact hlead
  apply shows_congr
  rw [hcomponents, resolveFrom_append_inside (hinto h₁) hstays,
    resolveFrom_append_inside (hinto h₂) hstays]

end Below

end Workspace

end CodeAtlas
