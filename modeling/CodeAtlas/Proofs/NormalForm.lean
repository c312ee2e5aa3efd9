import CodeAtlas.Proofs.Ancestry

/-!
# Paths in normal form

The normal form of a path is spelled without the components that mean nothing: empty ones and single
points. Its own components are the rest, after empty ones at most (`components_normalForm`), and on
the way to an open directory that makes no difference (`resolveFrom_filter`).
-/

open List

namespace CodeAtlas

variable {path : String}

namespace Path

theorem not_slash_of_mem_properComponents {c : String} (h : c ∈ properComponents path) :
    '/' ∉ c.toList :=
  not_mem_of_mem_components (mem_filter.mp h).1

/-- `components` are found again where slashes divide them. -/
theorem components_intercalate {cs : List String} (hne : cs ≠ [])
    (hslash : ∀ c ∈ cs, '/' ∉ c.toList) : components ("/".intercalate cs) = cs := by
  induction cs with
  | nil => exact absurd rfl hne
  | cons c rest ih =>
    have hc := components_of_not_mem (hslash c mem_cons_self)
    by_cases hrest : rest = []
    · rw [hrest, String.intercalate_singleton, hc]
    · rw [← singleton_append, String.intercalate_append_of_ne_nil (by simp) hrest,
        String.intercalate_singleton, components_append, hc,
        ih hrest fun c hc => hslash c (mem_cons_of_mem _ hc)]

theorem components_intercalate_proper (hne : properComponents path ≠ []) :
    components ("/".intercalate (properComponents path)) = properComponents path :=
  components_intercalate hne fun _ => not_slash_of_mem_properComponents

theorem empty_not_mem_properComponents (path : String) : "" ∉ properComponents path := by
  simp [properComponents]

theorem intercalate_proper_ne_empty (hne : properComponents path ≠ []) :
    "/".intercalate (properComponents path) ≠ "" := by
  intro hempty
  have hcomponents := components_intercalate_proper hne
  rw [hempty, components_empty] at hcomponents
  exact empty_not_mem_properComponents path (hcomponents ▸ mem_singleton_self "")

/-- The slashes at the start of a `normalForm`. -/
def rootOf (path : String) : String :=
  let slashes := (path.toList.takeWhile (· == '/')).length
  if slashes = 0 then "" else if slashes = 2 then "//" else "/"

theorem rootOf_of_isAbsolute (h : isAbsolute path) : rootOf path = "/" ∨ rootOf path = "//" := by
  have hslashes : (path.toList.takeWhile (· == '/')).length ≠ 0 := by
    obtain ⟨rest, hrest⟩ := head?_eq_some_iff.mp (beq_iff_eq.mp h)
    simp [hrest]
  unfold rootOf
  simp only [hslashes, if_false]
  split
  · exact .inr rfl
  · exact .inl rfl

theorem rootOf_of_not_isAbsolute (h : isAbsolute path = false) : rootOf path = "" := by
  have hslashes : path.toList.takeWhile (· == '/') = [] := by
    unfold isAbsolute at h
    cases hlist : path.toList with
    | nil => rfl
    | cons c rest =>
      have hc : c ≠ '/' := by simpa [hlist] using h
      simp [hc]
  simp [rootOf, hslashes]

theorem normalForm_of_ne_nil (hne : properComponents path ≠ []) :
    normalForm path = rootOf path ++ "/".intercalate (properComponents path) := by
  have hinner := intercalate_proper_ne_empty hne
  have hdef : normalForm path =
      if rootOf path = "" && "/".intercalate (properComponents path) = "" then "."
      else rootOf path ++ "/".intercalate (properComponents path) := rfl
  simp [hdef, hinner]

/-- The components of a `normalForm` are the proper ones, after empty ones at most. -/
theorem components_normalForm (hne : properComponents path ≠ []) :
    ∃ front, front.filter isProper = [] ∧
      components (normalForm path) = front ++ properComponents path := by
  have hinner := components_intercalate_proper hne
  rw [normalForm_of_ne_nil hne]
  cases habs : isAbsolute path with
  | false =>
    rw [rootOf_of_not_isAbsolute habs, String.empty_append]
    exact ⟨[], rfl, hinner⟩
  | true =>
    rcases rootOf_of_isAbsolute habs with hroot | hroot
    · refine ⟨[""], rfl, ?_⟩
      have hone := components_append "" ("/".intercalate (properComponents path))
      rw [hinner, components_empty] at hone
      rw [hroot]
      exact hone
    · refine ⟨["", ""], rfl, ?_⟩
      have htwo := components_append "/" ("/".intercalate (properComponents path))
      rw [hinner] at htwo
      rw [hroot]
      exact htwo

theorem isAbsolute_normalForm (hne : properComponents path ≠ []) :
    isAbsolute (normalForm path) = isAbsolute path := by
  rw [normalForm_of_ne_nil hne]
  cases habs : isAbsolute path with
  | true =>
    rcases rootOf_of_isAbsolute habs with hroot | hroot
    · rw [hroot]
      simp [isAbsolute]
    · rw [hroot]
      simp [isAbsolute]
  | false =>
    -- the first component has no slash, so the text does not start with one
    rw [rootOf_of_not_isAbsolute habs, String.empty_append, Bool.eq_false_iff]
    intro hslash
    obtain ⟨rest, hrest⟩ := head?_eq_some_iff.mp (beq_iff_eq.mp hslash)
    have htext : "/".intercalate (properComponents path) = "" ++ "/" ++ String.ofList rest := by
      apply String.toList_inj.mp
      simp [hrest]
    have hinner := components_intercalate_proper hne
    rw [htext, components_append, components_empty] at hinner
    exact empty_not_mem_properComponents path (hinner ▸ mem_cons_self)

/-- The `normalForm` of a path spells what the path spells. -/
theorem Spells.normalForm {l : List String} (h : Spells path l) (hne : l ≠ []) :
    Spells (Path.normalForm path) l := by
  have hproper : properComponents path ≠ [] := h.proper ▸ hne
  refine ⟨by rw [isAbsolute_normalForm hproper, h.absolute], ?_, h.names⟩
  obtain ⟨front, hnothing, hcomponents⟩ := components_normalForm hproper
  rw [properComponents_eq, hcomponents, filter_append, hnothing, nil_append, h.proper,
    filter_eq_self]
  exact fun c hc => isProper_of_isName (h.names c hc)

end Path

namespace Workspace

open CodeAtlas.Path

variable {names : List String}

/-! ## Components that mean nothing -/

variable {w : Workspace} {links : Nat} {here : Location} {p : Place} {es : List (String × Node)}

/-- The way to an open directory starts in an open directory. -/
theorem directory_of_resolveFrom (hopen : p.node = .directory true es)
    (h : w.resolveFrom true links here names = .ok p) :
    ∃ entries, w.root.at? here = some (.directory true entries) := by
  cases names with
  | nil =>
    rw [resolveFrom_nil] at h
    cases hat : w.root.at? here with
    | none => rw [hat] at h; cases h
    | some n =>
      rw [hat] at h
      cases h
      exact ⟨es, congrArg some hopen⟩
  | cons name rest =>
    rw [resolveFrom_cons] at h
    split at h
    case h_1 entries hat => exact ⟨entries, hat⟩
    case h_2 => cases h
    case h_3 => cases h
    case h_4 => cases h

/-- On the way to an open directory, `resolveFrom` needs only what `isProper`. -/
theorem resolveFrom_filter (hopen : p.node = .directory true es) :
    w.resolveFrom true links here (names.filter isProper) = .ok p ↔
      w.resolveFrom true links here names = .ok p := by
  induction names generalizing links here with
  | nil => exact Iff.rfl
  | cons name rest ih =>
    cases hname : isProper name with
    | true =>
      have hstep : ∀ more, w.resolveFrom true links here (name :: more) =
          (w.resolveFrom true links here [name]).bind fun q =>
            w.resolveFrom true q.linksLeft q.location more :=
        fun more => resolveFrom_append w true links here [name] (.inr rfl)
      rw [filter_cons_of_pos hname, hstep, hstep rest]
      cases w.resolveFrom true links here [name] with
      | error e => exact Iff.rfl
      | ok q => exact ih
    | false =>
      have hstays : (name = "" || name = ".") := by
        by_cases hempty : name = ""
        · simp [hempty]
        · simpa [isProper, hempty] using hname
      rw [filter_cons_of_neg (by simp [hname]), ih, resolveFrom_cons]
      constructor
      · intro h
        obtain ⟨entries, hat⟩ := directory_of_resolveFrom hopen h
        rw [hat]
        simp only [hstays, if_true, h]
      · intro h
        split at h
        case h_1 => simpa only [hstays, if_true] using h
        case h_2 => cases h
        case h_3 => cases h
        case h_4 => cases h

end Workspace

end CodeAtlas
