import CodeAtlas.Files.Workspace
import Mathlib.Data.List.DropRight

/-!
# The theory of paths

A path is a text, and what it names is decided by its components. This module has

* joining and the parent (`join_name`, `parent_eq`);
* `below`, the path reached by a chain of names;
* `resolved`, the names that are left when points are resolved in the text alone, and the exact
  condition under which a joined path stays below the directory it was joined to
  (`liesBelow_join_iff`).
-/

open List

namespace CodeAtlas

namespace Text

/-! ## Cutting a text at a character -/

variable (separator : Char) (text : List Char)

theorem splitAt_eq_splitOn : splitAt separator text = text.splitOn separator := by
  induction text with
  | nil => rw [splitAt, splitOn_nil]
  | cons c rest ih =>
    rw [splitAt, ih, splitOn, splitOn, splitOnP_cons_eq_if_modifyHead]
    by_cases hc : c = separator
    · simp [hc]
    · simp only [hc, if_false, beq_iff_eq]
      cases hrest : rest.splitOnP (· == separator) with
      | nil => exact absurd hrest (splitOnP_ne_nil _ rest)
      | cons piece pieces => rfl

theorem splitAt_ne_nil : splitAt separator text ≠ [] := by
  rw [splitAt_eq_splitOn]
  exact splitOnP_ne_nil _ _

/-- `splitAt` a separator that is known to be there cuts the two sides. -/
theorem splitAt_append (left right : List Char) :
    splitAt separator (left ++ separator :: right) =
      splitAt separator left ++ splitAt separator right := by
  simp only [splitAt_eq_splitOn]
  exact splitOnP_append_cons _ _ (beq_self_eq_true _)

theorem splitAt_of_not_mem {separator : Char} {text : List Char} (h : separator ∉ text) :
    splitAt separator text = [text] := by
  rw [splitAt_eq_splitOn]
  exact splitOnP_eq_singleton fun c hc => beq_false_of_ne (ne_of_mem_of_not_mem hc h)

theorem intercalate_splitAt : [separator].intercalate (splitAt separator text) = text := by
  rw [splitAt_eq_splitOn, intercalate_splitOn]

theorem not_mem_of_mem_splitAt {separator : Char} {text piece : List Char}
    (h : piece ∈ splitAt separator text) : separator ∉ piece := by
  induction text generalizing piece with
  | nil =>
    rw [splitAt, mem_singleton] at h
    simp [h]
  | cons c rest ih =>
    rw [splitAt] at h
    by_cases hc : c = separator
    · rw [if_pos hc, mem_cons] at h
      rcases h with rfl | h
      · simp
      · exact ih h
    · rw [if_neg hc] at h
      cases hrest : splitAt separator rest with
      | nil => exact absurd hrest (splitAt_ne_nil separator rest)
      | cons first others =>
        rw [hrest] at h ih
        rcases mem_cons.mp h with rfl | h
        · rw [mem_cons, not_or]
          exact ⟨fun he => hc he.symm, ih mem_cons_self⟩
        · exact ih (mem_cons_of_mem _ h)

end Text

namespace Path

variable {name path directory : String}

/-! ## Components -/

/-- A name that an entry of a directory has in a path: one component that means an entry. -/
def isName (name : String) : Bool :=
  name != "" && name != "." && name != ".." && !name.toList.contains '/'

theorem isName_iff : isName name ↔ name ≠ "" ∧ name ≠ "." ∧ name ≠ ".." ∧ '/' ∉ name.toList := by
  simp [isName, and_assoc]

theorem components_append (left right : String) :
    components (left ++ "/" ++ right) = components left ++ components right := by
  have h : (left ++ "/" ++ right).toList = left.toList ++ '/' :: right.toList := by simp
  rw [components, h, Text.splitAt_append, map_append]
  rfl

theorem components_of_not_mem (h : '/' ∉ name.toList) : components name = [name] := by
  rw [components, Text.splitAt_of_not_mem h]
  simp

@[simp] theorem components_empty : components "" = [""] :=
  components_of_not_mem (by simp)

theorem components_name (h : isName name) : components name = [name] :=
  components_of_not_mem (isName_iff.mp h).2.2.2

theorem not_mem_of_mem_components {c : String} (h : c ∈ components path) : '/' ∉ c.toList := by
  obtain ⟨piece, hpiece, rfl⟩ := mem_map.mp h
  simpa using Text.not_mem_of_mem_splitAt hpiece

/-- A name does not start from the root. -/
theorem not_isAbsolute_name (h : isName name) : isAbsolute name = false := by
  have hslash := (isName_iff.mp h).2.2.2
  unfold isAbsolute
  cases hl : name.toList with
  | nil => rfl
  | cons c rest =>
    rw [hl, mem_cons, not_or] at hslash
    simpa using fun hc => hslash.1 hc.symm

/-! ## Joining -/

/-- Whether a path does not end in a slash, so that `join` puts one after it. -/
def isSolid (path : String) : Bool :=
  path != "" && path.toList.getLast? != some '/'

theorem isSolid_iff : isSolid path ↔ path ≠ "" ∧ path.toList.getLast? ≠ some '/' := by
  simp [isSolid]

theorem join_of_isSolid (hd : isSolid directory) (hp : isAbsolute path = false) :
    join directory path = directory ++ "/" ++ path := by
  have h := isSolid_iff.mp hd
  simp [join, hp, h.1, h.2]

theorem join_name (hd : isSolid directory) (hn : isName name) :
    join directory name = directory ++ "/" ++ name :=
  join_of_isSolid hd (not_isAbsolute_name hn)

/-- A name at the end makes a path `isSolid`, whatever it is joined to. -/
theorem isSolid_join (directory : String) (hn : isName name) : isSolid (join directory name) := by
  obtain ⟨hne, -, -, hslash⟩ := isName_iff.mp hn
  have hlist : name.toList ≠ [] := by simpa using hne
  have hlast : name.toList.getLast? ≠ some '/' := by
    intro h
    exact hslash (mem_of_getLast? h)
  have key : ∀ before : String, isSolid (before ++ name) := by
    intro before
    rw [isSolid_iff]
    refine ⟨?_, ?_⟩
    · intro h
      exact hne (String.append_eq_empty_iff.mp h).2
    · rw [String.toList_append, getLast?_append_of_ne_nil _ hlist]
      exact hlast
  unfold join
  rw [not_isAbsolute_name hn]
  by_cases h : directory = "" || directory.toList.getLast? == some '/'
  · simp only [h, Bool.false_eq_true, if_false, if_true]
    exact key directory
  · simp only [h, Bool.false_eq_true, if_false]
    exact key (directory ++ "/")

/-! ## The last name of a path and what is above it -/

theorem dropTrailingSlashes_of_isSolid (h : isSolid path) : dropTrailingSlashes path = path := by
  have hself : path.toList.rdropWhile (· == '/') = path.toList := by
    rw [rdropWhile_eq_self_iff]
    intro hne heq
    apply (isSolid_iff.mp h).2
    rw [getLast?_eq_some_getLast hne]
    exact congrArg some (by simpa using heq)
  have hdef : dropTrailingSlashes path = String.ofList (path.toList.rdropWhile (· == '/')) := rfl
  rw [hdef, hself, String.ofList_toList]

/-- `parent` as cut from the text: what precedes the last slash, and then without slashes at its end
unless nothing else is there. -/
theorem parent_eq (path : String) : parent path = String.ofList
        (if ((path.toList.rdropWhile (· != '/')).rdropWhile (· == '/')).isEmpty then
          path.toList.rdropWhile (· != '/')
        else (path.toList.rdropWhile (· != '/')).rdropWhile (· == '/')) := rfl

theorem rdropWhile_slash_append {left name : List Char} (h : '/' ∉ name) :
    (left ++ '/' :: name).rdropWhile (· != '/') = left ++ ['/'] := by
  rw [rdropWhile, reverse_append, reverse_cons, append_assoc, dropWhile_append_of_pos]
  · simp
  · intro c hc
    have hmem : c ∈ name := mem_reverse.mp hc
    simpa using fun he : c = '/' => h (he ▸ hmem)

/-! ## Chains of names -/

/-- The path reached from a path by a chain of names. -/
def below (path : String) (names : List String) : String :=
  names.foldl join path

@[simp] theorem below_nil (path : String) : below path [] = path := rfl

@[simp] theorem below_concat (path : String) (names : List String) (name : String) :
    below path (names ++ [name]) = join (below path names) name := by
  simp [below]

theorem isSolid_below (path : String) {names : List String} (hne : names ≠ [])
    (hnames : ∀ name ∈ names, isName name) : isSolid (below path names) := by
  obtain ⟨front, last, rfl⟩ := eq_nil_or_concat names |>.resolve_left hne
  rw [concat_eq_append, below_concat]
  exact isSolid_join _ (hnames last (by simp))

/-! ## Resolving points in the text -/

/-- Where one more component leads from a chain of names. -/
def step (here : List String) (c : String) : List String :=
  if c = "" || c = "." then here
  else if c = ".." then here.dropLast
  else here ++ [c]

/-- The names of a path when points are resolved in the text alone, by `step`. -/
def resolved (path : String) : List String :=
  (components path).foldl step []

/-- A path that is `resolved` to a place strictly below a directory. -/
def LiesBelow (directory path : String) : Prop :=
  isAbsolute path = isAbsolute directory ∧
    resolved directory <+: resolved path ∧ resolved directory ≠ resolved path

instance (directory path : String) : Decidable (LiesBelow directory path) :=
  inferInstanceAs (Decidable (_ ∧ _ ∧ _))

/-- A path that is not absolute goes on from where the directory leads. -/
theorem resolved_join (directory : String) (h : isAbsolute path = false) :
    resolved (join directory path) = (components path).foldl step (resolved directory) := by
  unfold join
  rw [h]
  by_cases hempty : directory = ""
  · subst hempty
    have hnothing : resolved "" = [] := by decide
    rw [hnothing]
    simp [resolved]
  · by_cases hslash : directory.toList.getLast? = some '/'
    · -- the slash is there already: the last component of the directory is empty
      obtain ⟨front, hfront⟩ := getLast?_eq_some_iff.mp hslash
      have hdir : directory = String.ofList front ++ "/" ++ "" := by
        apply String.toList_inj.mp
        simp [hfront]
      have hjoin : directory ++ path = String.ofList front ++ "/" ++ path := by
        apply String.toList_inj.mp
        simp [hfront]
      have hcomp : components directory = components (String.ofList front) ++ [""] := by
        rw [hdir, components_append, components_empty]
      simp only [hslash, hempty, Bool.false_eq_true, if_false, beq_self_eq_true, Bool.or_true,
        if_true]
      rw [resolved, hjoin, components_append, foldl_append, resolved, hcomp, foldl_append]
      rfl
    · simp only [hslash, hempty, Bool.false_eq_true, if_false, decide_false, Bool.false_or,
        beq_iff_eq]
      rw [resolved, components_append, foldl_append, resolved]

theorem isAbsolute_join (directory : String) (h : isAbsolute path = false) :
    isAbsolute (join directory path) = isAbsolute directory := by
  unfold join
  rw [h]
  by_cases hempty : directory = ""
  · subst hempty
    simpa [isAbsolute] using h
  · have hne : directory.toList ≠ [] := by simpa using hempty
    obtain ⟨c, rest, hlist⟩ := exists_cons_of_ne_nil hne
    have key : ∀ more : String, isAbsolute (directory ++ more) = isAbsolute directory := by
      intro more
      simp [isAbsolute, hlist]
    by_cases hslash : directory.toList.getLast? = some '/'
    · simp only [hslash, hempty, Bool.false_eq_true, if_false, beq_self_eq_true, Bool.or_true,
        if_true]
      exact key path
    · simp only [hslash, hempty, Bool.false_eq_true, if_false, decide_false, Bool.false_or,
        beq_iff_eq]
      rw [String.append_assoc]
      exact key _

/-- How a path moves: how many directories above its start it climbs, and through which names it
then goes down. -/
def moveStep (course : Nat × List String) (c : String) : Nat × List String :=
  if c = "" || c = "." then course
  else if c = ".." then
    if course.2 = [] then (course.1 + 1, []) else (course.1, course.2.dropLast)
  else (course.1, course.2 ++ [c])

/-- How a path moves as a whole. -/
def course (path : String) : Nat × List String :=
  (components path).foldl moveStep (0, [])

/-- Going along components by `step` is climbing and then going down, as `moveStep` counts. -/
theorem foldl_step_eq (start : List String) (cs : List String) (c : Nat × List String) :
    cs.foldl step (start.rdrop c.1 ++ c.2) =
      start.rdrop (cs.foldl moveStep c).1 ++ (cs.foldl moveStep c).2 := by
  induction cs generalizing c with
  | nil => rfl
  | cons name rest ih =>
    rw [foldl_cons, foldl_cons, ← ih]
    congr 1
    unfold step moveStep
    by_cases hstay : name = "" || name = "."
    · simp [hstay]
    · simp only [hstay, Bool.false_eq_true, if_false]
      by_cases hup : name = ".."
      · simp only [hup, if_true]
        by_cases hdown : c.2 = []
        · simp only [hdown, append_nil, if_true]
          simp only [rdrop, dropLast_eq_take, take_take, length_take]
          congr 1
          omega
        · simp only [hdown, if_false]
          exact dropLast_append_of_ne_nil hdown
      · simp only [hup, if_false]
        exact append_assoc _ _ _

theorem rdrop_append_rtake (l : List String) (n : Nat) : l.rdrop n ++ l.rtake n = l := by
  simp [rdrop, rtake]

/-- An absolute path lies below the directory itself. Any other goes down, after its climb, through
the names of the directory that it has climbed out of, and then further. -/
def StaysBelow (directory path : String) : Prop :=
  if isAbsolute path then LiesBelow directory path
  else
    (resolved directory).rtake (course path).1 <+: (course path).2 ∧
      (resolved directory).rtake (course path).1 ≠ (course path).2

instance (directory path : String) : Decidable (StaysBelow directory path) :=
  inferInstanceAs (Decidable (if isAbsolute path then LiesBelow directory path else _ ∧ _))

/-- A joined path `LiesBelow` the directory exactly if its `course` comes back through every
directory that it left, and then goes further down. -/
theorem liesBelow_join_iff (directory path : String) :
    LiesBelow directory (join directory path) ↔ StaysBelow directory path := by
  unfold StaysBelow
  by_cases habs : isAbsolute path
  · rw [if_pos habs]
    simp [join, habs]
  · rw [Bool.not_eq_true] at habs
    rw [habs, if_neg Bool.false_ne_true, LiesBelow, isAbsolute_join directory habs,
      resolved_join directory habs]
    have hmove : (components path).foldl step (resolved directory) =
        (resolved directory).rdrop (course path).1 ++ (course path).2 := by
      have := foldl_step_eq (resolved directory) (components path) (0, [])
      simpa [course] using this
    rw [hmove]
    -- both sides share what is left of the directory after the climb
    have hsplit := rdrop_append_rtake (resolved directory) (course path).1
    generalize (resolved directory).rdrop (course path).1 = left at hsplit ⊢
    generalize (resolved directory).rtake (course path).1 = back at hsplit ⊢
    rw [← hsplit, prefix_append_right_inj]
    simp

/-- What is further down than a path below a directory is below it, too. -/
theorem LiesBelow.append (h : LiesBelow directory path) (rest : List String) :
    resolved directory <+: resolved path ++ rest ∧ resolved directory ≠ resolved path ++ rest := by
  obtain ⟨-, hpre, hne⟩ := h
  refine ⟨hpre.trans (prefix_append _ _), fun heq => hne ?_⟩
  have hlen := congrArg length heq
  rw [length_append] at hlen
  exact hpre.eq_of_length_le (by omega)

end Path

end CodeAtlas
