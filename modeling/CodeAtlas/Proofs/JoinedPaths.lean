import CodeAtlas.Outline.JavaEndpoints
import CodeAtlas.Proofs.Signatures

/-!
# Joined paths

A joined path is rooted: empty, or a slash and something that no slash begins or ends. Joining takes
the slashes off its operands and puts one before each that is left, so that a rooted path is itself
again (`rooted_trimSlashes`). From this one fact it follows that joining is associative and that
rooted paths are the ones that joining an empty path leaves alone.
-/

open List

namespace CodeAtlas

/-- `trimBoth` takes characters of a class from both ends, and leaves no other there. -/
theorem Text.exists_trimBoth (drops : Char → Bool) (text : List Char) :
    ∃ left right, text = left ++ trimBoth drops text ++ right ∧ (∀ c ∈ left, drops c) ∧
      (∀ c ∈ right, drops c) ∧ Firm drops (trimBoth drops text) := by
  let right := (text.dropWhile drops).reverse.takeWhile drops
  have hright : text.dropWhile drops = trimBoth drops text ++ right.reverse := by
    rw [trimBoth, ← reverse_append, takeWhile_append_dropWhile, reverse_reverse]
  refine ⟨text.takeWhile drops, right.reverse, ?_, fun c hc => mem_takeWhile_imp hc,
    fun c hc => mem_takeWhile_imp (mem_reverse.mp hc), ?_, ?_⟩
  · rw [append_assoc, ← hright, takeWhile_append_dropWhile]
  · have hhead := Pattern.head?_dropWhile drops text
    rw [hright] at hhead
    cases hempty : trimBoth drops text with
    | nil => rfl
    | cons c more => rwa [hempty] at hhead
  · rw [trimBoth, getLast?_reverse]
    exact Pattern.head?_dropWhile drops _

namespace Java

open Text

/-- A path as it stands in a joined one: behind a slash, if there is something of it. -/
def rooted (inner : List Char) : List Char :=
  if inner = [] then [] else '/' :: inner

/-- Empty, or a slash, a character that is none, and an end that is none. -/
def IsRooted (path : List Char) : Prop :=
  path = [] ∨ ∃ c rest, path = '/' :: c :: rest ∧ c ≠ '/' ∧ path.getLast? ≠ some '/'

theorem joinPaths_eq (base path : List Char) :
    joinPaths base path = rooted (trimSlashes base) ++ rooted (trimSlashes path) := by
  unfold joinPaths rooted
  cases trimSlashes base <;> cases trimSlashes path <;> simp

/-- What stands behind the slash of a path that `IsRooted` has no slash at its ends. -/
theorem isRooted_iff {path : List Char} :
    IsRooted path ↔ ∃ inner, Firm (· == '/') inner ∧ path = rooted inner := by
  have hlast : ∀ (c : Char) (rest : List Char), ('/' :: c :: rest).getLast? ≠ some '/' ↔
      (c :: rest).getLast?.any (· == '/') = false := by
    intro c rest
    rw [getLast?_cons_cons, getLast?_eq_some_getLast (cons_ne_nil c rest)]
    simp
  constructor
  · rintro (rfl | ⟨c, rest, rfl, hc, hend⟩)
    · exact ⟨[], ⟨rfl, rfl⟩, rfl⟩
    · exact ⟨c :: rest, ⟨by simpa using hc, (hlast c rest).mp hend⟩, rfl⟩
  · rintro ⟨inner, hfirm, rfl⟩
    cases inner with
    | nil => exact .inl rfl
    | cons c rest =>
      exact .inr ⟨c, rest, rfl, by simpa using hfirm.head, (hlast c rest).mpr hfirm.last⟩

theorem isRooted_trimmed (path : List Char) : IsRooted (rooted (trimSlashes path)) := by
  obtain ⟨-, -, -, -, -, hfirm⟩ := exists_trimBoth (· == '/') path
  exact isRooted_iff.mpr ⟨_, hfirm, rfl⟩

theorem rooted_trimSlashes {path : List Char} (h : IsRooted path) :
    rooted (trimSlashes path) = path := by
  obtain ⟨inner, hfirm, rfl⟩ := isRooted_iff.mp h
  have htrim : trimSlashes (rooted inner) = inner := by
    cases inner with
    | nil => rfl
    | cons c rest =>
      have htrim := trimBoth_enclosed ['/'] [] (by simp) (by simp) hfirm
      rwa [append_nil] at htrim
  rw [htrim]

theorem IsRooted.append {path path' : List Char} (h : IsRooted path) (h' : IsRooted path') :
    IsRooted (path ++ path') := by
  rcases h with rfl | ⟨c, rest, rfl, hc, hend⟩
  · exact h'
  · rcases h' with rfl | ⟨c', rest', rfl, -, hend'⟩
    · rw [append_nil]
      exact .inr ⟨c, rest, rfl, hc, hend⟩
    · refine .inr ⟨c, rest ++ '/' :: c' :: rest', rfl, hc, ?_⟩
      rwa [getLast?_append_of_ne_nil _ (cons_ne_nil _ _)]

theorem isRooted_joinPaths (base path : List Char) : IsRooted (joinPaths base path) := by
  rw [joinPaths_eq]
  exact (isRooted_trimmed base).append (isRooted_trimmed path)

theorem filter_rooted (path : List Char) :
    (rooted (trimSlashes path)).filter (· != '/') = path.filter (· != '/') := by
  obtain ⟨left, right, hpath, hleft, hright, -⟩ := exists_trimBoth (· == '/') path
  have hnone : ∀ slashes : List Char, (∀ c ∈ slashes, (c == '/')) →
      slashes.filter (· != '/') = [] := fun slashes h => by simpa using h
  have htrim : path.filter (· != '/') = (trimSlashes path).filter (· != '/') := by
    conv_lhs => rw [hpath, filter_append, filter_append, hnone left hleft, hnone right hright]
    exact append_nil _
  rw [htrim]
  cases trimSlashes path <;> rfl

/-- **Joining is associative, and rooted paths are its normal form.** What is missing counts as an
empty path. A joined path is rooted and stays as it is when it is joined to an empty one, on either
side, and but for slashes it holds what was joined, in order. -/
theorem joinPaths_normal (a b c : Option (List Char)) :
    joinPaths (joinPaths (a.getD []) (b.getD [])) (c.getD []) =
        joinPaths (a.getD []) (joinPaths (b.getD []) (c.getD [])) ∧
      joinPaths [] (joinPaths (a.getD []) (b.getD [])) = joinPaths (a.getD []) (b.getD []) ∧
      joinPaths (joinPaths (a.getD []) (b.getD [])) [] = joinPaths (a.getD []) (b.getD []) ∧
      IsRooted (joinPaths (a.getD []) (b.getD [])) ∧
      (joinPaths (a.getD []) (b.getD [])).filter (· != '/') =
        (a.getD [] ++ b.getD []).filter (· != '/') := by
  generalize a.getD [] = a
  generalize b.getD [] = b
  generalize c.getD [] = c
  have hrooted := rooted_trimSlashes (isRooted_joinPaths a b)
  refine ⟨?_, ?_, ?_, isRooted_joinPaths a b, ?_⟩
  · rw [joinPaths_eq _ c, hrooted, joinPaths_eq a (joinPaths b c),
      rooted_trimSlashes (isRooted_joinPaths b c), joinPaths_eq, joinPaths_eq, append_assoc]
  · rw [joinPaths_eq [], hrooted]
    rfl
  · rw [joinPaths_eq _ [], hrooted]
    exact append_nil _
  · rw [joinPaths_eq, filter_append, filter_append, filter_rooted, filter_rooted]

end Java

end CodeAtlas
