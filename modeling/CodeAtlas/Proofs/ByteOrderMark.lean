import CodeAtlas.Proofs.LineEndings
import CodeAtlas.Proofs.MarkedLines

/-!
# Reports on files with a byte order mark

Files are read without regard to a byte order mark: it stays in the text as its first character. A
report on such a file can be told from the text without the mark (`markedFinding`), and it differs
from the report on that text in these ways only:

* declarations on the first line are not found, if they are looked for at the margin;
* the summary of a TypeScript file is its first line, mark included;
* a Python file cannot be parsed.

So the mark makes no difference in Java and JavaScript, and in the other languages but Python and
TypeScript none if the first line is blank or nothing is declared at the start of the text.
-/

open List

namespace CodeAtlas

open Pattern Outline
open Text (byteOrderMark unifyNewlines)

variable {text : List Char}

/-! ## Python -/

namespace Script

/-- The fault of a text that begins with a `byteOrderMark`. -/
def markFault : Fault :=
  ⟨"invalid non-printable character U+FEFF", 1⟩

/-- The mark is no margin for `Scan.run`, so the first line begins with it. -/
theorem run_mark_margin (fuel : Nat) (text : List Char) :
    Scan.run (fuel + 1) true ⟨1, [⟨0, 0⟩], [], #[]⟩ (byteOrderMark :: text) =
      Scan.run fuel false ⟨1, [⟨0, 0⟩], [], #[]⟩ (byteOrderMark :: text) := by
  have hmargin : margin ⟨0, 0⟩ 0 1 (byteOrderMark :: text) =
      .ok (⟨0, 0⟩, 1, byteOrderMark :: text) := rfl
  rw [Scan.run]
  simp only [hmargin]
  rfl

/-- The mark begins a word, as every character beyond ASCII does, but no identifier. -/
theorem run_mark_word (fuel : Nat) (s : Scan) (text : List Char) :
    Scan.run (fuel + 1) false s (byteOrderMark :: text) = s.reject markFault.message := by
  have hdrop : (byteOrderMark :: text).dropWhile (fun c => c == ' ' || c == '\t' || c == '\x0c') =
      byteOrderMark :: text := rfl
  have hword : (byteOrderMark :: text).takeWhile isWordPart =
      byteOrderMark :: text.takeWhile isWordPart := rfl
  have hfirst : beginsWord byteOrderMark := by decide
  have hhigh : ∀ word : List Char, (byteOrderMark :: word).any (128 ≤ ·.toNat) :=
    fun _ => rfl
  have hstring : ∀ word,
      stringMarks.contains ((byteOrderMark :: word).map Char.toLower) = false := by
    intro word
    have hhead : ∀ m ∈ stringMarks, m.head? ≠ some byteOrderMark.toLower := by decide
    rw [contains_eq_mem, decide_eq_false_iff_not]
    exact fun hmem => hhead _ hmem rfl
  have hbad : ∀ word, badPart? (byteOrderMark :: word) = some byteOrderMark := by
    intro word
    have hbegins : Text.beginsIdentifier byteOrderMark = false := by decide +kernel
    rw [badPart?, hbegins]
    rfl
  have hmessage : badCharacter byteOrderMark = markFault.message := by decide +kernel
  have hnot : ∀ {c : Char} {rest : List Char}, c ≠ byteOrderMark →
      byteOrderMark :: text ≠ c :: rest :=
    fun hc heq => hc (cons.inj heq).1.symm
  rw [Scan.run, hdrop]
  split
  next heq => cases heq
  next heq => exact absurd heq (hnot (by decide))
  next heq => exact absurd heq (hnot (by decide))
  next heq => exact absurd heq (hnot (by decide))
  next heq => exact absurd heq (hnot (by decide))
  next heq =>
    obtain ⟨rfl, rfl⟩ := cons.inj heq
    simp only [hfirst, hword, hstring, hhigh, hbad, hmessage, Bool.and_false, if_true]
    rfl

theorem wordsFrom_mark (text : List Char) :
    wordsFrom 1 (byteOrderMark :: text) = ⟨#[], some (.word markFault, [])⟩ := by
  have hrun : ∀ text : List Char, Scan.run (2 * (byteOrderMark :: text).length + 2) true
      ⟨1, [⟨0, 0⟩], [], #[]⟩ (byteOrderMark :: text) = ⟨#[], some (.word markFault, [])⟩ := by
    intro text
    rw [run_mark_margin, run_mark_word]
    rfl
  rw [wordsFrom]
  split
  · exact hrun text
  · exact hrun (text ++ ['\n'])

/-- `read` gives up at once if the first word is none. -/
theorem read_of_no_words (fault : Fault) (depth : Nat) (inField : Bool)
    (field : Nat → List Char → Except Abort Expr) :
    read ⟨⟨#[], some (.word fault, [])⟩, inField, field⟩
      (Grammar.module (Grammar.upTo (depth + 1))) = .error (.words fault) := rfl

/-- **`parse` takes a byte order mark for no part of a module.** -/
theorem parse_mark (h : '\x00' ∉ text) :
    parse (byteOrderMark :: text) = .error (.faulty markFault) := by
  have hnull : (byteOrderMark :: text).contains '\x00' = false := by
    rw [contains_eq_mem, decide_eq_false_iff_not, mem_cons, not_or]
    exact ⟨by decide, h⟩
  have hread : ∀ field, read ⟨⟨#[], some (.word markFault, [])⟩, false, field⟩
      (Grammar.module (Grammar.upTo Grammar.depthLimit)) = .error (.words markFault) :=
    read_of_no_words markFault 5999 false
  rw [parse, hnull, readModule, wordsFrom_mark, hread]
  rfl

theorem parse_of_null (h : '\x00' ∈ text) : parse text = .error .nullCharacter := by
  have hnull : text.contains '\x00' := by simpa using h
  rw [parse, hnull]
  rfl

end Script

namespace Survey

open Text.Utf8

variable {language : Option Language}

/-! ## Reports from texts -/

/-- The path under which a file is opened: TypeScript files under the normal form of theirs. -/
def opened (path : String) : String :=
  if Language.detect? path = some .typeScript then Path.normalForm path else path

/-- The text that is searched: in PHP without its opening tag. -/
def searched (language : Option Language) (code : List Char) : List Char :=
  match language with
  | some .php => Php.body code
  | _ => code

def reportOn (path : String) (finding : Finding) : Report :=
  ⟨path, some ((Language.detect? path).elim (otherName path) Language.name), finding⟩

/-- What `findingOf` finds is found at the margin and elsewhere in one text. -/
theorem heuristic_eq (code : List Char) :
    findingOf none code code = .ok (.heuristic (Heuristic.outline code)) := by
  simp only [findingOf, Heuristic.outline]

variable {w : Workspace} {path : String} {p : Pattern} {code : List Char}

/-- **`report` is told from the text**, all of it found in the text that is `searched`. -/
theorem report_eq (h : w.readFile (opened path) = .ok (text.flatMap String.utf8EncodeChar)) :
    report w none path =
      (findingOf (Language.detect? path) (searched (Language.detect? path) (unifyNewlines text))
        (searched (Language.detect? path) (unifyNewlines text))).map (reportOn path) := by
  have hread := readText_encode h
  have hplain : ∀ language find, opened path = path → plain w path language find =
      .ok ⟨path, some language.name, find (unifyNewlines text)⟩ := by
    intro language find hopened
    rw [hopened] at hread
    rw [plain, hread]
    rfl
  cases hlanguage : Language.detect? path with
  | none =>
    have hopened : opened path = path := by rw [opened, hlanguage, if_neg (by decide)]
    rw [hopened] at hread
    have hother : inOther w path (some (otherName path)) none =
        .ok ⟨path, some (otherName path),
          .heuristic (Heuristic.outline (unifyNewlines text))⟩ := by
      rw [inOther, hread]
      rfl
    have hreport : reportOn path = fun finding => ⟨path, some (otherName path), finding⟩ := by
      funext finding
      rw [reportOn, hlanguage, Option.elim_none]
    have hsearched : ∀ code, searched none code = code := fun _ => rfl
    unfold report
    rw [hlanguage, hreport, hsearched, heuristic_eq]
    exact hother
  | some language =>
    have hreport : reportOn path = fun finding => ⟨path, some language.name, finding⟩ := by
      funext finding
      rw [reportOn, hlanguage, Option.elim_some]
    have hopened : language ≠ .typeScript → opened path = path := by
      intro hother
      rw [opened, hlanguage, if_neg (by simpa using hother)]
    have hinLanguage : report w none path = inLanguage w path language := by
      unfold report
      rw [hlanguage]
    rw [hinLanguage, hreport]
    cases language with
    | typeScript =>
      have hopened' : opened path = Path.normalForm path := by
        rw [opened, hlanguage, if_pos rfl]
      rw [hopened'] at hread
      show Except.ok (typeScript w path) = _
      rw [typeScript, hread]
      rfl
    | python =>
      rw [hopened (by decide)] at h
      have hdecode := decode_eq_ok_iff.mpr (rfl : text.flatMap String.utf8EncodeChar = _)
      show python w path = _
      rw [python, h]
      simp only [Except.mapError, bind, Except.bind, hdecode]
      rfl
    | sql =>
      rw [hopened (by decide)] at hread
      rw [inLanguage, hread]
      rfl
    | php =>
      show plain w path .php (fun code => .php (Php.outline code)) = _
      rw [hplain .php _ (hopened (by decide)), Php.outline_eq]
      rfl
    | _ => exact hplain _ _ (hopened (by decide))

/-! ## The mark -/

def byteOrderMarkBytes : List UInt8 :=
  [0xef, 0xbb, 0xbf]

/-- What `findingOf` finds in a text behind a byte order mark. -/
def markedFinding (language : Option Language) (code : List Char) : Except Refusal Finding :=
  match language with
  | some .python =>
    .ok (.unparsed (if '\x00' ∈ code then .nullCharacter else .faulty Script.markFault))
  | some .typeScript =>
    .ok (.typeScript { TypeScript.outline code with
      summary := TypeScript.abridged (TypeScript.markedLine (TypeScript.withoutComments code)) })
  | language => findingOf language (afterFirstLine code) code

/-- A mark disturbs nothing in a Python text with a null character, which is not parsed in any case,
and nothing in a text of another language than TypeScript whose first line is blank or that begins
with no declaration. -/
inductive Undisturbed : Option Language → List Char → Prop
  | null {code : List Char} : '\x00' ∈ code → Undisturbed (some .python) code
  | first {language : Option Language} {code : List Char} :
      language ≠ some .python → language ≠ some .typeScript →
      (FirstLineBlank (searched language code) ∨
        ∀ p ∈ linePatterns language, p.matchStart? (searched language code) = none) →
      Undisturbed language code

/-- Behind a mark `searched` removes no tag. -/
theorem searched_mark (language : Option Language) (code : List Char) :
    searched language (byteOrderMark :: code) = byteOrderMark :: code := by
  unfold searched
  split
  · exact Php.body_eq_self (Php.refuses_openingTag (by decide) (by decide))
  · rfl

theorem encode_mark (text : List Char) : byteOrderMarkBytes ++ text.flatMap String.utf8EncodeChar =
      (byteOrderMark :: text).flatMap String.utf8EncodeChar := by
  have hmark : String.utf8EncodeChar byteOrderMark = byteOrderMarkBytes := by decide
  rw [flatMap_cons, hmark]

theorem unifyNewlines_mark (text : List Char) :
    unifyNewlines (byteOrderMark :: text) = byteOrderMark :: unifyNewlines text :=
  Text.unifyNewlines_cons_of_ne (by decide) text

theorem report_mark
    (h : w.readFile (opened path) = .ok (byteOrderMarkBytes ++ text.flatMap String.utf8EncodeChar)) :
    report w none path = (findingOf (Language.detect? path) (byteOrderMark :: unifyNewlines text)
        (byteOrderMark :: unifyNewlines text)).map (reportOn path) := by
  rw [encode_mark] at h
  rw [report_eq h, unifyNewlines_mark, searched_mark]

/-- A mark hides the first line from the `linePatterns`. -/
theorem sameFound_afterFirstLine (hp : p ∈ linePatterns language) (code : List Char) :
    SameFound p (afterFirstLine code) (byteOrderMark :: code) :=
  (linePatterns_atMargin hp).sameFound_afterFirstLine (by decide)
    ((linePatterns_refuse hp).passesOver code)

theorem findingOf_mark (language : Option Language) (code : List Char) :
    findingOf language (byteOrderMark :: code) (byteOrderMark :: code) =
      markedFinding language code := by
  by_cases hpython : language = some .python
  · subst hpython
    by_cases hnull : '\x00' ∈ code
    · have hparse := Script.parse_of_null (mem_cons_of_mem byteOrderMark hnull)
      simp only [findingOf, markedFinding, Python.outline, hparse, Except.map, if_pos hnull]
    · have hparse := Script.parse_mark hnull
      simp only [findingOf, markedFinding, Python.outline, hparse, Except.map, if_neg hnull]
  by_cases htypeScript : language = some .typeScript
  · subst htypeScript
    simp only [findingOf, markedFinding, TypeScript.outline_marked]
  rw [findingOf_marked hpython htypeScript fun p hp => sameFound_afterFirstLine hp code]
  unfold markedFinding
  split
  · exact absurd rfl hpython
  · exact absurd rfl htypeScript
  · rfl

/-- A mark that disturbs nothing changes nothing for the `linePatterns`. -/
theorem sameFound_of_first (hp : p ∈ linePatterns language)
    (h : FirstLineBlank code ∨ p.matchStart? code = none) :
    SameFound p code (byteOrderMark :: code) :=
  (linePatterns_atMargin hp).sameFound_append (by decide) ((linePatterns_refuse hp).passesOver code)
    h

theorem findingOf_undisturbed (h : Undisturbed language code) :
    findingOf language (byteOrderMark :: code) (byteOrderMark :: code) =
      findingOf language (searched language code) (searched language code) := by
  cases h with
  | null hnull =>
    have hparse := Script.parse_of_null hnull
    have hparse' := Script.parse_of_null (mem_cons_of_mem byteOrderMark hnull)
    simp only [findingOf, searched, Python.outline, hparse, hparse']
  | first hpython htypeScript h =>
    have hfirst : ∀ p ∈ linePatterns language,
        FirstLineBlank (searched language code) ∨
          p.matchStart? (searched language code) = none :=
      fun p hp => h.imp_right fun hnone => hnone p hp
    by_cases hphp : language = some .php
    · subst hphp
      have hlines := fun p hp => Php.sameFound_body hp (hfirst p hp)
      have hcomments : ∀ p ∈ Php.commentPatterns, _ := fun p hp => Php.collectWhole_body code hp
      simp only [findingOf, searched, php_eq hlines hcomments]
    · have hsearched : searched language code = code := by
        unfold searched
        split
        · exact absurd rfl hphp
        · rfl
      rw [hsearched] at hfirst ⊢
      exact findingOf_marked hpython htypeScript fun p hp => sameFound_of_first hp (hfirst p hp)

/-- **Reports on a file with and without a byte order mark.** The first is told from the text by
`findingOf`, the second by `markedFinding`; they are the same if the mark disturbs nothing. -/
theorem report_byteOrderMark {w w' : Workspace} {path : String} {text : List Char}
    (hplain : w.readFile (opened path) = .ok (text.flatMap String.utf8EncodeChar))
    (hmarked : w'.readFile (opened path) =
      .ok (byteOrderMarkBytes ++ text.flatMap String.utf8EncodeChar)) :
    report w none path =
        (findingOf (Language.detect? path)
          (searched (Language.detect? path) (unifyNewlines text))
          (searched (Language.detect? path) (unifyNewlines text))).map (reportOn path) ∧
      report w' none path =
        (markedFinding (Language.detect? path) (unifyNewlines text)).map (reportOn path) ∧
      (Undisturbed (Language.detect? path) (unifyNewlines text) →
        report w' none path = report w none path) := by
  refine ⟨report_eq hplain, ?_, ?_⟩
  · rw [report_mark hmarked, findingOf_mark]
  · intro h
    rw [report_mark hmarked, report_eq hplain, findingOf_undisturbed h]

theorem detect?_oneFile : Language.detect? "a.rb" = some .ruby := by
  decide +kernel

theorem readFile_opened_oneFile (bytes : List UInt8) :
    (oneFile bytes).readFile (opened "a.rb") = .ok bytes := by
  have hopened : opened "a.rb" = "a.rb" := by
    rw [opened, detect?_oneFile, if_neg (by decide)]
  rw [hopened, readFile_oneFile]

def commentThenClass : List Char :=
  "# x\nclass Foo\nend\n".toList

/-- A class after a comment is found with and without a mark. -/
theorem report_byteOrderMark_comment :
    Undisturbed (Language.detect? "a.rb") (unifyNewlines commentThenClass) ∧
      report (oneFile (byteOrderMarkBytes ++ commentThenClass.flatMap String.utf8EncodeChar))
          none "a.rb" =
        report (oneFile (commentThenClass.flatMap String.utf8EncodeChar)) none "a.rb" := by
  have hundisturbed :
      Undisturbed (Language.detect? "a.rb") (unifyNewlines commentThenClass) := by
    rw [detect?_oneFile, Text.unifyNewlines_of_not_mem (by decide)]
    exact .first (by decide) (by decide) (.inr (by decide +kernel))
  have hreports := report_byteOrderMark
    (readFile_opened_oneFile (commentThenClass.flatMap String.utf8EncodeChar))
    (readFile_opened_oneFile (byteOrderMarkBytes ++ commentThenClass.flatMap String.utf8EncodeChar))
  exact ⟨hundisturbed, hreports.2.2 hundisturbed⟩

def classFirst : List Char :=
  "class Foo\nend\n".toList

/-- A class on the first line is lost behind a mark. -/
theorem report_byteOrderMark_class :
    IsUtf8 (classFirst.flatMap String.utf8EncodeChar) ∧
      report (oneFile (byteOrderMarkBytes ++ classFirst.flatMap String.utf8EncodeChar)) none "a.rb" ≠
        report (oneFile (classFirst.flatMap String.utf8EncodeChar)) none "a.rb" := by
  refine ⟨⟨classFirst, rfl⟩, fun hsame => ?_⟩
  have hunify : unifyNewlines classFirst = classFirst :=
    Text.unifyNewlines_of_not_mem (by decide)
  rw [report_mark (readFile_opened_oneFile _), report_eq (readFile_opened_oneFile _),
    detect?_oneFile, hunify] at hsame
  have houtlines := Finding.ruby.inj (congrArg Report.finding (Except.ok.inj hsame))
  have hclasses := congrArg Ruby.Outline.classes houtlines
  revert hclasses
  decide +kernel

end Survey

end CodeAtlas
