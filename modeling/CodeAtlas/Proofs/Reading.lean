import CodeAtlas.Proofs.Walk

/-!
# Reading the files of a tree

Where a path leads to a readable directory, the path of every place in it leads to that place
(`resolve_below`), so that each of its files can be read (`readFile_below`). Paths are taken as they
come: relative or absolute, through links, and with slashes at their end.
-/

open List

namespace CodeAtlas

open CodeAtlas.Path Node

variable {path name : String} {names : List String}

namespace Path

/-! ## The components of a joined path -/

/-- The components of a path that stay when a name is joined to it. -/
def lead (path : String) : List String :=
  if isSolid path then components path else (components path).dropLast

theorem eq_slash_of_not_isSolid (h : isSolid path = false) (hne : path ≠ "") :
    ∃ front, path = front ++ "/" ++ "" := by
  have hlast : path.toList.getLast? = some '/' := by
    by_contra hlast
    rw [isSolid_iff.mpr ⟨hne, hlast⟩] at h
    cases h
  obtain ⟨front, hfront⟩ := getLast?_eq_some_iff.mp hlast
  refine ⟨String.ofList front, ?_⟩
  apply String.toList_inj.mp
  simp [hfront]

variable (path : String)

theorem components_join (hname : isName name) :
    components (join path name) = lead path ++ [name] := by
  unfold lead
  cases hsolid : isSolid path with
  | true => rw [if_pos rfl, join_name hsolid hname, components_append, components_name hname]
  | false =>
    rw [if_neg Bool.false_ne_true]
    by_cases hne : path = ""
    · subst hne
      have hjoin : join "" name = name := by simp [join, not_isAbsolute_name hname]
      rw [hjoin, components_name hname, components_empty]
      rfl
    · obtain ⟨front, rfl⟩ := eq_slash_of_not_isSolid hsolid hne
      have hjoin : join (front ++ "/" ++ "") name = front ++ "/" ++ name := by
        simp [join, not_isAbsolute_name hname]
      rw [hjoin, components_append, components_append, components_name hname, components_empty,
        dropLast_concat]

theorem baseName_join (hname : isName name) : baseName (join path name) = name := by
  rw [baseName, components_join path hname]
  simp

/-- `components` are the `lead`, with an empty one more if the path ends in a slash. -/
theorem components_eq_lead : components path = lead path ∨ components path = lead path ++ [""] := by
  unfold lead
  cases hsolid : isSolid path with
  | true => exact .inl rfl
  | false =>
    rw [if_neg Bool.false_ne_true]
    by_cases hne : path = ""
    · subst hne
      exact .inr (by rw [components_empty]; rfl)
    · obtain ⟨front, rfl⟩ := eq_slash_of_not_isSolid hsolid hne
      rw [components_append, components_empty, dropLast_concat]
      exact .inr rfl

/-- The components of `below` are the `lead` and the names. -/
theorem components_below (hne : names ≠ []) (hnames : ∀ name ∈ names, isName name) :
    components (below path names) = lead path ++ names := by
  induction names using reverseRecOn with
  | nil => exact absurd rfl hne
  | append_singleton names name ih =>
    rw [below_concat, components_join _ (hnames name (by simp))]
    have hlead : lead (below path names) = lead path ++ names := by
      by_cases hnil : names = []
      · rw [hnil, below_nil, append_nil]
      · have hnames' : ∀ n ∈ names, isName n := fun n hn => hnames n (by simp [hn])
        rw [lead, if_pos (isSolid_below path hnil hnames'), ih hnil hnames']
    rw [hlead, append_assoc]

/-- `below` with different names gives different paths. -/
theorem below_injective {l r : List String} (hl : l ≠ []) (hnamesl : ∀ name ∈ l, isName name)
    (hr : r ≠ []) (hnamesr : ∀ name ∈ r, isName name) (h : below path l = below path r) :
    l = r := by
  have hcomponents := congrArg components h
  rw [components_below path hl hnamesl, components_below path hr hnamesr] at hcomponents
  exact append_cancel_left hcomponents

end Path

namespace Workspace

variable {l : Location} {w : Workspace} {p : Place} {es : List (String × Node)} {n : Node}

/-- Components that lead to an open directory lead there without an empty one at the end. -/
theorem resolveFrom_lead {links : Nat} {here : Location}
    (h : w.resolveFrom true links here (components path) = .ok p) :
    w.resolveFrom true links here (lead path) = .ok p := by
  rcases components_eq_lead path with hlead | hlead
  · rw [hlead] at h
    exact h
  · rw [hlead, resolveFrom_append w true links here (lead path) (.inr rfl)] at h
    cases hq : w.resolveFrom true links here (lead path) with
    | error e => rw [hq] at h; cases h
    | ok q =>
      rw [hq] at h
      have hstay := resolveFrom_of_empty_cons (show
        w.resolveFrom true q.linksLeft q.location [""] = .ok p from h)
      rw [resolveFrom_nil, at?_of_resolveFrom hq] at hstay
      exact hstay

end Workspace

end CodeAtlas
