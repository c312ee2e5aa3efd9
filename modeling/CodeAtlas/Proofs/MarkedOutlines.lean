import CodeAtlas.Outline.Go
import CodeAtlas.Outline.JavaEndpoints
import CodeAtlas.Outline.JavaScript
import CodeAtlas.Outline.TypeScript
import CodeAtlas.Proofs.Lines
import CodeAtlas.Proofs.Overlooking

/-!
# Outlines behind a byte order mark

A byte order mark at the start of a text is neither white space nor part of a word, and no
declaration begins with it. So patterns that match anywhere in a line overlook it, and an outline
made of such patterns is that of the text alone: this holds for Java and JavaScript, for TypeScript
but for the summary, and for Go but for the package. Where an outline looks at positions (the class
around a method, the comment before a function, the receiver of a method), the mark moves all of
them alike.
-/

open List

namespace CodeAtlas

open Pattern Outline Text Match

def Text.byteOrderMark : Char :=
  '\ufeff'

/-! ## Patterns -/

/-- The patterns of JavaScript that are looked for anywhere. -/
@[simp] def JavaScript.patterns : List Pattern :=
  [sideEffectPattern, fromPattern, requirePattern, namedExportPattern, exportListPattern,
    defaultExportPattern, assignedExportPattern, functionPattern, arrowPattern, classPattern,
    derivedClassPattern, capitalFunctionPattern, capitalArrowPattern, routePattern, axiosPattern,
    fetchPattern, blockComment "/**", lineComment "//", blockComment "/*"]

@[simp] def Java.patterns : List Pattern :=
  (["class", "interface", "enum", "record"].map fun keyword => typePattern (bareKeyword keyword)) ++
    [packagePattern, importPattern, annotationPattern, fieldPattern, constructorPattern,
      methodPattern, basePattern, classPattern, endpointPattern, blockComment "/**",
      lineComment "//"]

@[simp] def Go.patterns : List Pattern :=
  [singlePattern, groupPattern, aliasPattern, bodyPattern "struct", bodyPattern "interface",
    methodPattern, functionPattern]

def Go.calls : List Pattern :=
  [lit "HandleFunc", group 2 (anyOf ["GET", "POST", "PUT", "DELETE", "PATCH"]), lit "Handle"]

/-- The patterns of TypeScript without edges. -/
@[simp] def TypeScript.patterns : List Pattern :=
  [blockComment "/*", lineComment "//", importPattern, decoratedClassPattern, routePattern]

/-- The patterns of TypeScript that begin at the edge of a word. -/
def TypeScript.wordPatterns : List Pattern :=
  [declared (lit "interface"), aliasPattern, declared (lit "enum"), classPattern, exportPattern,
    functionPattern, constPattern]

@[simp] def plainPatterns : List Pattern :=
  JavaScript.patterns ++ Java.patterns ++ Go.patterns ++ TypeScript.patterns

/-- The patterns whose only edge is that of a word at their beginning. -/
def edgePatterns : List Pattern :=
  Go.calls.map Go.endpointPattern ++ TypeScript.wordPatterns

-- checked for all languages at once, so that the mark is looked up once in the table of words
theorem patterns_checked : (∀ p ∈ plainPatterns, p.overlooks byteOrderMark) ∧
    isWord byteOrderMark = false ∧
      ∀ p ∈ edgePatterns, p.trail.edgeless ∧ p.shuns byteOrderMark := by
  decide +kernel

@[simp] theorem patterns_overlook {p : Pattern} (h : p ∈ plainPatterns) :
    p.overlooks byteOrderMark :=
  patterns_checked.1 p h

section Overlooking

variable {p : Pattern} (h : p.overlooks byteOrderMark = true) (code : List Char)

include h

theorem findAll_marked : p.findAll (byteOrderMark :: code) = (p.findAll code).map (move 1) :=
  (overlooks_of_eq_true h).findAll code

theorem map_findAll_marked {β : Type} (read : Match → β) :
    (p.findAll (byteOrderMark :: code)).map read =
      (p.findAll code).map fun m => read (m.move 1) := by
  rw [findAll_marked h, map_map]
  rfl

theorem map_find?_marked {β : Type} (read : Match → β) :
    (p.find? (byteOrderMark :: code)).map read = (p.find? code).map fun m => read (m.move 1) := by
  rw [(overlooks_of_eq_true h).find?, Option.map_map]
  rfl

theorem collect_marked (index : Nat) :
    p.collect index (byteOrderMark :: code) = p.collect index code :=
  (overlooks_of_eq_true h).collect code index

theorem collectTexts_marked (index : Nat) :
    collectTexts p index (byteOrderMark :: code) = collectTexts p index code :=
  (overlooks_of_eq_true h).collectTexts code index

theorem collectWhole_marked : collectWhole p (byteOrderMark :: code) = collectWhole p code :=
  (overlooks_of_eq_true h).collectWhole code

end Overlooking

theorem edgePatterns_overlook (p : Pattern) (h : p ∈ edgePatterns) (hlead : p.lead = wordEdge) :
    Overlooks byteOrderMark p := by
  obtain ⟨-, hword, hparts⟩ := patterns_checked
  exact overlooks_of_wordEdge hword hlead (hparts p h).1 (hparts p h).2

/-! ## JavaScript -/

namespace JavaScript

variable (code : List Char)

theorem followedBy_move (p : Pattern) (k : Nat) (m : Match) :
    followedBy p (m.move k) = followedBy p m := by
  rw [followedBy, size_move, source_move]
  rfl

/-- `slice`, for the thousand characters before a position, or fewer at the start of a text. -/
theorem slice_before (position : Nat) : slice code (max 0 ((position : Int) - 1000)) position =
      (code.take position).drop (position - 1000) := by
  have hstop : ¬ (position : Int) < 0 := by omega
  have hstart : (max 0 ((position : Int) - 1000)).toNat = position - 1000 := by omega
  simp only [slice, hstop, if_false, hstart, Int.toNat_natCast]

theorem overlooks_finalDocPattern : Overlooks byteOrderMark finalDocPattern where
  refuses := refuses_of_shuns rfl
  blind := ⟨⟨blind_of_edgeless rfl, blind_of_edgeless rfl⟩, blind_textEnd _⟩

/-- The mark is among the thousand characters of `docBefore?` or not; the comment is the same. -/
theorem docBefore?_marked (position : Nat) :
    docBefore? (byteOrderMark :: code) ((position + 1 : Nat) : Int) = docBefore? code position := by
  rw [docBefore?, docBefore?, slice_before, slice_before, take_succ_cons]
  by_cases hfar : 1000 ≤ position
  · have hdrop : position + 1 - 1000 = position - 1000 + 1 := by omega
    rw [hdrop, drop_succ_cons]
  · have hdrop : position + 1 - 1000 = 0 := Nat.sub_eq_zero_of_le (by omega)
    have hdrop' : position - 1000 = 0 := Nat.sub_eq_zero_of_le (by omega)
    rw [hdrop, hdrop', drop_zero, drop_zero, overlooks_finalDocPattern.find?, Option.map_map]
    simp only [Function.comp_def, text_move]

theorem declaredFunctions_marked :
    declaredFunctions (byteOrderMark :: code) = declaredFunctions code := by
  simp (disch := simp) only [declaredFunctions, map_findAll_marked, group_move,
    group?_move, start_move, docBefore?_marked]

theorem arrowFunctions_marked : arrowFunctions (byteOrderMark :: code) = arrowFunctions code := by
  have hreach : ∀ m : Match, m.stop + 1 + 200 - (m.start + 1) = m.stop + 200 - m.start := by
    intro m
    omega
  simp (disch := simp) only [arrowFunctions, map_findAll_marked, group_move,
    group?_move, start_move, stop_move, source_move, hreach,
    docBefore?_marked]

/-- **The JavaScript `outline` behind a mark** is that of the text alone. -/
theorem outline_marked : outline (byteOrderMark :: code) = outline code := by
  -- functions look at positions; all else is read off the matches, wherever they are
  simp (disch := simp) only [outline, functions, declaredFunctions_marked, arrowFunctions_marked,
    imports, exports, classes, components, routes, remoteCalls, comments, collect_marked,
    collectTexts_marked, collectWhole_marked, map_find?_marked, findAll_marked, map_map,
    filterMap_map, Function.comp_def, group_move, group?_move, followedBy_move]

end JavaScript

/-! ## Java -/

namespace Java

variable (code : List Char)

theorem modifiersOf_move (k : Nat) (m : Match) : modifiersOf (m.move k) = modifiersOf m := by
  simp only [modifiersOf, group?_move]

theorem basePaths_marked : basePaths (byteOrderMark :: code) = basePaths code := by
  simp (disch := simp) only [basePaths, map_findAll_marked, group_move, text_move]

theorem classPositions_marked : classPositions (byteOrderMark :: code) =
      (classPositions code).map fun c => (c.1, c.2 + 1) := by
  simp (disch := simp) only [classPositions, map_findAll_marked, group_move, start_move,
    map_map, Function.comp_def]

/-- A class is before a method if it is so after both have moved. -/
theorem basePathAt_moved (bases : List (List Char × List Char)) (classes : List (List Char × Nat))
    (position : Nat) : basePathAt bases (classes.map fun c => (c.1, c.2 + 1)) (position + 1) =
      basePathAt bases classes position := by
  have hbefore : (fun c : List Char × Nat => decide (c.2 < position + 1)) ∘
      (fun c : List Char × Nat => (c.1, c.2 + 1)) = fun c => decide (c.2 < position) := by
    funext c
    simp
  rw [basePathAt, enclosingClass?, takeWhile_map, hbefore, getLast?_map, Option.map_map]
  rfl

theorem endpointsOf_move (base : List Char) (k : Nat) (m : Match) :
    endpointsOf base (m.move k) = endpointsOf base m := by
  simp only [endpointsOf, group_move]

theorem endpoints_marked : endpoints (byteOrderMark :: code) = endpoints code := by
  simp (disch := simp) only [endpoints, findAll_marked, basePaths_marked, classPositions_marked,
    flatMap_map, start_move, basePathAt_moved, endpointsOf_move]

/-- **The Java `outline` behind a mark** is that of the text alone. -/
theorem outline_marked : outline (byteOrderMark :: code) = outline code := by
  simp (disch := simp) only [outline, package?, imports, annotationsOf, comments, types, fields,
    constructors, methods, map_find?_marked, map_findAll_marked, collectWhole_marked,
    endpoints_marked, group_move, modifiersOf_move]

end Java

/-! ## Go -/

namespace Go

variable (code : List Char)

/-- For `followsReceiver` there is the mark, or what was there before. -/
theorem followsReceiver_marked (position : Nat) :
    followsReceiver (byteOrderMark :: code) (position + 1) = followsReceiver code position := by
  rw [followsReceiver, followsReceiver]
  by_cases hfar : 10 ≤ position
  · have hdrop : position + 1 - 10 = position - 10 + 1 := by omega
    have hfar' : 10 ≤ position + 1 := by omega
    simp only [hfar, hfar', hdrop, drop_succ_cons]
  · have hnone : ∀ text : List Char, (lit "func" ++ blanks ++ lit "(").matchStart?
        (byteOrderMark :: text) = none :=
      fun _ => Refuses.matchAt? (refuses_of_shuns rfl)
    have hdrop : position + 1 - 10 = 0 := by omega
    rw [hdrop, drop_zero, take_succ_cons, hnone]
    simp [hfar]

theorem plainFunctions_marked : plainFunctions (byteOrderMark :: code) = plainFunctions code := by
  simp (disch := simp) only [plainFunctions, findAll_marked, filter_map, map_map, Function.comp_def,
    group_move, group?_move, start_move, followsReceiver_marked]

theorem endpointsOf_marked {call : Pattern} (h : call ∈ calls) (code : List Char) :
    endpointsOf call (byteOrderMark :: code) = endpointsOf call code := by
  have hmark : Overlooks byteOrderMark (endpointPattern call) :=
    edgePatterns_overlook _ (mem_append_left _ (mem_map_of_mem h)) rfl
  simp only [endpointsOf, hmark.findAll, map_map, Function.comp_def, group_move,
    group?_move]

/-- **The Go `outline` behind a mark** is that of the text alone, but for the package. -/
theorem outline_marked : outline (byteOrderMark :: code) =
      { outline code with package := package? (byteOrderMark :: code) } := by
  have hendpoints : endpoints (byteOrderMark :: code) = endpoints code := by
    rw [endpoints, endpointsOf_marked (by simp [calls]), endpointsOf_marked (by simp [calls]),
      endpointsOf_marked (by simp [calls])]
    rfl
  simp (disch := simp) only [outline, functions, imports, structs, interfaces, methods,
    collect_marked, map_findAll_marked, group_move, group?_move, plainFunctions_marked,
    hendpoints]

end Go

/-! ## TypeScript -/

namespace TypeScript

variable (code : List Char)

theorem wordPatterns_overlook {p : Pattern} (h : p ∈ wordPatterns) : Overlooks byteOrderMark p := by
  have hlead : ∀ p ∈ wordPatterns, p.lead = wordEdge := by
    simp only [wordPatterns, forall_mem_cons]
    exact ⟨rfl, rfl, rfl, rfl, rfl, rfl, rfl, by simp⟩
  exact edgePatterns_overlook p (by simp [edgePatterns, h]) (hlead p h)

theorem withoutComments_marked :
    withoutComments (byteOrderMark :: code) = byteOrderMark :: withoutComments code := by
  have hblock : Overlooks byteOrderMark (blockComment "/*") :=
    overlooks_of_eq_true (by simp)
  have hline : Overlooks byteOrderMark (lineComment "//") :=
    overlooks_of_eq_true (by simp)
  rw [withoutComments, hblock.replaceAll _ _ fun _ _ => rfl, hline.replaceAll _ _ fun _ _ => rfl]
  rfl

theorem classes_marked : classes (byteOrderMark :: code) = classes code := by
  have hclass : Overlooks byteOrderMark classPattern :=
    wordPatterns_overlook (by simp [wordPatterns])
  simp only [classes, hclass.findAll, map_map, Function.comp_def, group_move,
    group?_move]

/-- The name of a class is a text without edges, whatever it is. -/
theorem overlooks_bodyPattern (className : String) :
    Overlooks byteOrderMark (bodyPattern className) := by
  have hname : ∀ text : List Char, (ofChars text).edgeless := by
    intro text
    induction text with
    | nil => rfl
    | cons c text ih =>
      cases text with
      | nil => rfl
      | cons d text => exact ih
  refine ⟨refuses_of_shuns rfl, ?_⟩
  refine ⟨⟨⟨⟨⟨⟨⟨?_, ?_⟩, blind_of_edgeless (hname _)⟩, ?_⟩, ?_⟩, ?_⟩, ?_⟩, ?_⟩
  all_goals exact blind_of_edgeless rfl

theorem methodsOf_marked (className : String) :
    methodsOf (byteOrderMark :: code) className = methodsOf code className := by
  rw [methodsOf, methodsOf, (overlooks_bodyPattern className).find?]
  cases (bodyPattern className).find? code with
  | none => rfl
  | some m => simp only [Option.map_some, group_move]

theorem classMethods_marked : classMethods (byteOrderMark :: code) = classMethods code := by
  simp only [classMethods, classes_marked, methodsOf_marked]

/-! ### The summary -/

/-- A line cut after two hundred characters. -/
def abridged (line : List Char) : String :=
  if 200 < line.length then String.ofList (line.take 200) ++ "..." else String.ofList line

def markedLine (code : List Char) : List Char :=
  trim (byteOrderMark :: code.takeWhile fun c => !endsLine c)

/-- A first line that begins neither with white space nor as an import does is the `summary`. -/
theorem summary_cons {c : Char} (hblank : isBlank c = false) (hc : c ≠ 'i') (code : List Char) :
    summary (c :: code) = abridged (trim (c :: code.takeWhile fun d => !endsLine d)) := by
  have hends : endsLine c = false := by
    rw [← Bool.not_eq_true]
    exact fun hends => by simpa [hblank] using isBlank_of_endsLine hends
  have hlines : lines (c :: code) = linesFrom [c] code := linesFrom_of_inside hends _ _
  have hfirst := head?_linesFrom [c] code (by simp)
  rw [summary, hlines]
  cases hparts : linesFrom [c] code with
  | nil => simp [hparts] at hfirst
  | cons line lines =>
    rw [hparts] at hfirst
    have hline : line = c :: code.takeWhile fun d => !endsLine d := by simpa using hfirst
    have hsignificant : (!(trim line).isEmpty &&
        !beginsWith "import".toList (trim line)) := by
      have hi : ('i' == c) = false := beq_eq_false_iff_ne.mpr (Ne.symm hc)
      rw [hline, trim_cons hblank]
      simp [beginsWith, isPrefixOf, hi]
    simp only [map_cons, find?_cons, hsignificant]
    rw [hline]
    rfl

theorem summary_marked : summary (byteOrderMark :: code) = abridged (markedLine code) :=
  summary_cons (by decide) (by decide) code

/-- **The TypeScript `outline` behind a mark** is that of the text alone, but for the summary. -/
theorem outline_marked : outline (byteOrderMark :: code) =
      { outline code with summary := abridged (markedLine (withoutComments code)) } := by
  have hword : ∀ p ∈ wordPatterns, ∀ code,
      collectTexts p 1 (byteOrderMark :: code) = collectTexts p 1 code :=
    fun p hp code => (wordPatterns_overlook hp).collectTexts code 1
  simp only [wordPatterns, forall_mem_cons] at hword
  obtain ⟨hinterface, halias, henum, -, hexport, hfunction, hconst, -⟩ := hword
  simp (disch := simp) only [outline, withoutComments_marked, outlineOfPlain, hinterface, halias,
    henum, classes_marked, classMethods_marked, hexport, hfunction, hconst, decoratedClasses, routes,
    collectTexts_marked, map_findAll_marked, group_move, summary_marked]

end TypeScript

end CodeAtlas
