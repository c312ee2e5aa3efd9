import CodeAtlas.Proofs.Quotes
import Mathlib.Data.List.Find

/-!
# Named arguments of annotations

An annotation that names its arguments has a key at the end of every other piece between quotes. So
the path is the value of the first key that ends in `path`, and not of the key `path` alone, and
where no key ends in `path` or `value` it is the first value whatever its key is
(`annotationPath?_arguments`).
-/

open List

namespace CodeAtlas

open Outline Text

namespace Java

/-! ## Annotations with named arguments -/

/-- An argument of an annotation: a key, and a value in quotes. -/
structure Argument where
  key : List Char
  key_ne_nil : key ≠ []
  key_solid : ∀ c ∈ key, isBlank c = false ∧ c ≠ '"'
  value : List Char
  value_ne_nil : value ≠ []
  value_plain : '"' ∉ value

def Argument.text (a : Argument) : List Char :=
  a.key ++ " = ".toList ++ '"' :: (a.value ++ ['"'])

/-- An annotation whose arguments are all named. -/
structure NamedNote where
  name : List Char
  name_plain : '"' ∉ name
  arguments : List Argument

def NamedNote.text (n : NamedNote) : List Char :=
  '@' :: n.name ++ '(' :: (joinWith ", ".toList (n.arguments.map Argument.text) ++ [')'])

def laterPieces : List Argument → List (List Char)
  | [] => [[')']]
  | a :: as => (", ".toList ++ a.key ++ " = ".toList) :: a.value :: laterPieces as

/-- The pieces into which quotes cut an annotation. -/
def NamedNote.pieces (n : NamedNote) : List (List Char) :=
  match n.arguments with
  | [] => ['@' :: n.name ++ "()".toList]
  | a :: as => ('@' :: n.name ++ ['('] ++ a.key ++ " = ".toList) :: a.value :: laterPieces as

theorem splitAt_argument {front : List Char} (hfront : '"' ∉ front) (a : Argument)
    (rest : List Char) : splitAt '"' (front ++ (a.text ++ rest)) =
      (front ++ a.key ++ " = ".toList) :: a.value :: splitAt '"' rest := by
  have hcut : front ++ (a.text ++ rest) =
      (front ++ a.key ++ " = ".toList) ++ '"' :: (a.value ++ '"' :: rest) := by
    simp [Argument.text]
  have hhead : '"' ∉ front ++ a.key ++ " = ".toList := by
    rw [mem_append, mem_append]
    rintro ((hmem | hmem) | hmem)
    · exact hfront hmem
    · exact (a.key_solid _ hmem).2 rfl
    · exact absurd hmem (by decide)
  rw [hcut, splitAt_append, splitAt_append, splitAt_of_not_mem hhead,
    splitAt_of_not_mem a.value_plain]
  rfl

theorem splitAt_arguments {front : List Char} (hfront : '"' ∉ front) (a : Argument)
    (as : List Argument) : splitAt '"' (front ++
        (joinWith ", ".toList ((a :: as).map Argument.text) ++ [')'])) =
      (front ++ a.key ++ " = ".toList) :: a.value :: laterPieces as := by
  induction as generalizing front a with
  | nil => exact splitAt_argument hfront a [')']
  | cons a' as ih =>
    rw [map_cons, map_cons, joinWith_cons_cons, append_assoc,
      append_assoc, splitAt_argument hfront, ← map_cons, ih (by decide)]
    rfl

theorem NamedNote.splitAt_text (n : NamedNote) : splitAt '"' n.text = n.pieces := by
  unfold text pieces
  have hname : ∀ tail, '"' ∉ tail → '"' ∉ '@' :: n.name ++ tail := by
    intro tail htail
    simp [n.name_plain, htail]
  cases n.arguments with
  | nil => exact splitAt_of_not_mem (hname "()".toList (by decide))
  | cons a as =>
    refine Eq.trans ?_ (splitAt_arguments (hname ['('] (by decide)) a as)
    simp

namespace Key

/-- Whether the key of an argument ends in the name looked for. -/
def names (k : Key) (a : Argument) : Bool :=
  k != .sole && k.word.isSuffixOf a.key

theorem ends_key (k : Key) (a : Argument) (front : List Char) {d : Char} (hd : d = '(' ∨ d = ' ') :
    k.ends (front ++ [d] ++ a.key ++ " = ".toList) = k.names a :=
  k.ends_named a.key_ne_nil (fun c hc => (a.key_solid c hc).1) front hd

end Key

/-- A value that no path can be taken to follow: it ends neither in `path =` or `value =` nor in an
opening parenthesis. -/
def Argument.Quiet (a : Argument) : Prop :=
  ∀ k : Key, k.ends a.value = false

section Pieces

variable {ends closes : List Char → Bool} {named : Argument → Bool}

/-- Where no value misleads, `pieceAfter` is the value of the first argument that counts. -/
theorem pieceAfter_arguments (hclose : closes [')'])
    (hends : ∀ (a : Argument) front d, d = '(' ∨ d = ' ' →
      ends (front ++ [d] ++ a.key ++ " = ".toList) = named a)
    (hcloses : ∀ a : Argument, named a → ∀ piece, closes piece)
    (front : List Char) {d : Char} (hd : d = '(' ∨ d = ' ') (a : Argument) (as : List Argument)
    (hquiet : ∀ b ∈ a :: as, named b = false → ends b.value = false) :
    pieceAfter ends closes ((front ++ [d] ++ a.key ++ " = ".toList) :: a.value :: laterPieces as) =
      ((a :: as).find? named).map Argument.value := by
  have hvalue : a.value.isEmpty = false := isEmpty_eq_false_iff.mpr a.value_ne_nil
  induction as generalizing front d a with
  | nil =>
    rw [laterPieces, pieceAfter, hends a front d hd, hvalue, hclose]
    cases hnamed : named a <;> simp [pieceAfter, hnamed]
  | cons a' as ih =>
    have hmore := ih [','] (.inr rfl) a' (fun b hb => hquiet b (mem_cons_of_mem _ hb))
      (isEmpty_eq_false_iff.mpr a'.value_ne_nil)
    rw [laterPieces, pieceAfter, hends a front d hd, hvalue]
    cases hnamed : named a with
    | true =>
      rw [hcloses a hnamed, find?_cons_of_pos hnamed]
      rfl
    | false =>
      have hskip : ends a.value = false := hquiet a mem_cons_self hnamed
      rw [pieceAfter, hskip, find?_cons_of_neg (by simp [hnamed]), ← hmore]
      rfl

end Pieces

namespace NamedNote

variable (n : NamedNote)

/-- The argument whose value `annotationPath?` takes: the first whose key ends in `path`, else the
first whose key ends in `value`, else the first. -/
def chosen : Option Argument :=
  ((n.arguments.find? Key.path.names).or (n.arguments.find? Key.value.names)).or n.arguments.head?

/-- The path that the arguments declare: the value of `path`, else that of `value`. -/
def declared : Option (List Char) :=
  ((n.arguments.find? (·.key == Key.path.word)).or
    (n.arguments.find? (·.key == Key.value.word))).map fun a => trim a.value

theorem pathAmong_pieces (hquiet : ∀ a ∈ n.arguments, a.Quiet) :
    pathAmong n.pieces = n.chosen.map Argument.value := by
  unfold pathAmong pieces chosen
  cases hargs : n.arguments with
  | nil => rfl
  | cons a as =>
    rw [hargs] at hquiet
    have hkey : ∀ k : Key, k.pieceAfter (('@' :: n.name ++ ['('] ++ a.key ++ " = ".toList) ::
        a.value :: laterPieces as) = ((a :: as).find? k.names).map Argument.value := by
      intro k
      refine pieceAfter_arguments (by cases k <;> decide)
        (fun a front d hd => k.ends_key a front hd) (fun a hnamed piece => ?_) ('@' :: n.name)
        (.inl rfl) a as fun b hb _ => hquiet b hb k
      cases k with
      | sole => cases hnamed
      | value | path => rfl
    have hsole : (a :: as).find? Key.sole.names = none :=
      find?_eq_none.mpr fun b _ => by simp [Key.names]
    simp only [hkey, hsole]
    cases (a :: as).find? Key.path.names with
    | some b => rfl
    | none =>
      cases (a :: as).find? Key.value.names with
      | some b => rfl
      | none =>
        -- whatever its key is, the first value stands between the first quotes
        have hvalue := a.value_ne_nil
        cases as <;> simp [laterPieces, pieceAfter, hvalue]

/-- No key merely ends in the name of another. -/
def Distinct : Prop :=
  ∀ a ∈ n.arguments, ∀ k : Key, k.names a = true → a.key = k.word

theorem find?_names (h : n.Distinct) {k : Key} (hk : k ≠ .sole) :
    n.arguments.find? k.names = n.arguments.find? (·.key == k.word) := by
  refine find?_congr fun a ha => ?_
  rw [Bool.eq_iff_iff, beq_iff_eq]
  refine ⟨h a ha k, fun hkey => ?_⟩
  rw [Key.names, Bool.and_eq_true, bne_iff_ne, isSuffixOf_iff_suffix, hkey]
  exact ⟨hk, suffix_rfl⟩

end NamedNote

/-- **The path of an annotation with named arguments.** It is always one of the pieces between its
quotes. Where no value misleads, it is the value of the first key that ends in `path`, else of the
first that ends in `value`, else the first value. So, even where no key merely ends in one of the
two names, it is the declared one only if some key is `path` or `value` or there are no
arguments. -/
theorem annotationPath?_arguments (n : NamedNote) :
    annotationPath? n.text = (pathAmong n.pieces).map Text.trim ∧
      ((∀ a ∈ n.arguments, a.Quiet) →
        annotationPath? n.text = n.chosen.map (fun a => Text.trim a.value) ∧
          (n.Distinct → (annotationPath? n.text = n.declared ↔ n.arguments = [] ∨
            ∃ a ∈ n.arguments, a.key = Key.path.word ∨ a.key = Key.value.word))) := by
  have hpath := annotationPath?_eq n.text
  rw [n.splitAt_text] at hpath
  refine ⟨hpath, fun hquiet => ?_⟩
  have hchosen : annotationPath? n.text = n.chosen.map fun a => trim a.value := by
    rw [hpath, n.pathAmong_pieces hquiet, Option.map_map]
    rfl
  refine ⟨hchosen, fun hdistinct => ?_⟩
  rw [hchosen, NamedNote.chosen, NamedNote.declared, n.find?_names hdistinct (by decide),
    n.find?_names hdistinct (by decide)]
  cases hfound : (n.arguments.find? (·.key == Key.path.word)).or
      (n.arguments.find? (·.key == Key.value.word)) with
  | some a =>
    refine iff_of_true rfl (.inr ⟨a, ?_⟩)
    rcases Option.or_eq_some_iff.mp hfound with h | ⟨-, h⟩
    · exact ⟨mem_of_find?_eq_some h, .inl (by simpa using find?_some h)⟩
    · exact ⟨mem_of_find?_eq_some h, .inr (by simpa using find?_some h)⟩
  | none =>
    obtain ⟨hpaths, hvalues⟩ := Option.or_eq_none_iff.mp hfound
    rw [Option.none_or, Option.map_none, Option.map_eq_none_iff, head?_eq_none_iff]
    refine ⟨.inl, ?_⟩
    rintro (hnil | ⟨a, ha, hkey | hkey⟩)
    · exact hnil
    · exact absurd (beq_iff_eq.mpr hkey) (find?_eq_none.mp hpaths a ha)
    · exact absurd (beq_iff_eq.mpr hkey) (find?_eq_none.mp hvalues a ha)

/-- An annotation that sets only what a method consumes. -/
def NamedNote.consuming : NamedNote where
  name := "GetMapping".toList
  name_plain := by decide
  arguments := [⟨"consumes".toList, by decide, by decide, "application/json".toList, by decide,
    by decide⟩]

theorem annotationPath?_arguments_consuming :
    (∀ a ∈ NamedNote.consuming.arguments, a.Quiet) ∧ NamedNote.consuming.Distinct ∧
      annotationPath? "@GetMapping(consumes = \"application/json\")".toList =
        some "application/json".toList := by
  have hquiet : ∀ a ∈ NamedNote.consuming.arguments, a.Quiet := by
    intro a ha k
    obtain rfl := mem_singleton.mp ha
    cases k <;> decide
  have hdistinct : NamedNote.consuming.Distinct := by
    intro a ha k
    obtain rfl := mem_singleton.mp ha
    cases k <;> decide
  exact ⟨hquiet, hdistinct, ((annotationPath?_arguments .consuming).2 hquiet).1⟩

/-- No key is `path` or `value`, and there is a path. -/
theorem annotationPath?_ne_declared :
    annotationPath? "@GetMapping(consumes = \"application/json\")".toList ≠
      NamedNote.consuming.declared := by
  decide +kernel

end Java

end CodeAtlas
