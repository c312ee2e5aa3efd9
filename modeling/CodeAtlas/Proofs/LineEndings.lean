import Mathlib.Data.List.Infix
import CodeAtlas.Proofs.Contents
import CodeAtlas.Proofs.Lines
import CodeAtlas.Proofs.Utf8
import CodeAtlas.Survey

/-!
# Line endings

Every reader of a file unifies line endings before its language is looked at, so a report does not
depend on them: if a text has no carriage return, it is read back from the bytes that end its lines
with a carriage return and a line feed, and from those that end them with a carriage return alone
(`unifyNewlines_replaceFeeds`). In UTF-8 a line feed is a byte of its own and never part of another
character, so the replacement may be made on the bytes (`replaceFeedBytes_encode`). The main result
is `report_replaceFeedBytes`.
-/

open List

namespace CodeAtlas

variable {text : List Char}

/-! ## Texts -/

namespace Text

/-- A text with other characters in place of every line feed. -/
def replaceFeeds (ending : List Char) (text : List Char) : List Char :=
  text.flatMap fun c => if c = '\n' then ending else [c]

theorem replaceFeeds_cons (ending : List Char) (c : Char) (text : List Char) :
    replaceFeeds ending (c :: text) =
      (if c = '\n' then ending else [c]) ++ replaceFeeds ending text := rfl

theorem unifyNewlines_cons_of_ne {c : Char} (h : c ≠ '\r') (text : List Char) :
    unifyNewlines (c :: text) = c :: unifyNewlines text := by
  rw [unifyNewlines]
  · rw [if_neg h]
  · intro rest hc
    exact absurd hc h

theorem unifyNewlines_return_cons (h : text.head? ≠ some '\n') :
    unifyNewlines ('\r' :: text) = '\n' :: unifyNewlines text := by
  rw [unifyNewlines]
  · rfl
  · intro rest _ htext
    subst htext
    exact h rfl

theorem unifyNewlines_of_not_mem (h : '\r' ∉ text) : unifyNewlines text = text := by
  induction text with
  | nil => rfl
  | cons c text ih =>
    rw [mem_cons, not_or] at h
    rw [unifyNewlines_cons_of_ne (Ne.symm h.1), ih h.2]

/-- `unifyNewlines` works on two texts apart unless a line end is divided between them. -/
theorem unifyNewlines_append {left right : List Char}
    (h : left.getLast? = some '\r' → right.head? ≠ some '\n') :
    unifyNewlines (left ++ right) = unifyNewlines left ++ unifyNewlines right := by
  have hmore : ∀ {c : Char} {rest : List Char},
      ((c :: rest).getLast? = some '\r' → right.head? ≠ some '\n') →
        rest.getLast? = some '\r' → right.head? ≠ some '\n' := by
    intro c rest h hrest
    exact h (by rw [getLast?_cons, hrest]; rfl)
  fun_induction unifyNewlines left with
  | case1 => rfl
  | case2 rest ih => exact congrArg ('\n' :: ·) (ih (hmore (hmore h)))
  | case3 c rest hpair ih =>
    rw [cons_append]
    by_cases hc : c = '\r'
    · subst hc
      have hhead : (rest ++ right).head? ≠ some '\n' := by
        cases rest with
        | nil => exact h rfl
        | cons d rest => exact fun hd => hpair rest rfl (by rw [Option.some.inj hd])
      rw [unifyNewlines_return_cons hhead, ih (hmore h)]
      rfl
    · rw [unifyNewlines_cons_of_ne hc, ih (hmore h), if_neg hc]
      rfl

/-- `unifyNewlines` makes no new text without a line end. -/
theorem infix_of_unifyNewlines {mark : List Char} (hmark : '\n' ∉ mark)
    (h : mark <:+: unifyNewlines text) : mark <:+: text := by
  -- the same at the beginning of a text
  have hbegin : ∀ {mark text : List Char}, '\n' ∉ mark → mark <+: unifyNewlines text →
      mark <+: text := by
    intro mark text hmark h
    induction mark generalizing text with
    | nil => exact nil_prefix
    | cons c mark ih =>
      rw [mem_cons, not_or] at hmark
      fun_cases unifyNewlines text with
      | case1 => exact h
      | case2 rest => exact absurd (cons_prefix_cons.mp h).1.symm hmark.1
      | case3 d rest hpair =>
        rw [unifyNewlines.eq_3 d rest hpair, cons_prefix_cons] at h
        by_cases hd : d = '\r'
        · rw [if_pos hd] at h
          exact absurd h.1.symm hmark.1
        · rw [if_neg hd] at h
          exact cons_prefix_cons.mpr ⟨h.1, ih hmark.2 h.2⟩
  have hend : ∀ {rest : List Char}, rest <:+ unifyNewlines text →
      ∃ rest', rest' <:+ text ∧ rest = unifyNewlines rest' := by
    clear h
    intro rest h
    fun_induction unifyNewlines text with
    | case1 => exact ⟨[], suffix_rfl, suffix_nil.mp h⟩
    | case2 text ih =>
      obtain rfl | h := suffix_cons_iff.mp h
      · exact ⟨_, suffix_rfl, rfl⟩
      · obtain ⟨rest', hrest, rfl⟩ := ih h
        exact ⟨rest', hrest.trans ⟨['\r', '\n'], rfl⟩, rfl⟩
    | case3 d text hpair ih =>
      obtain rfl | h := suffix_cons_iff.mp h
      · exact ⟨d :: text, suffix_rfl, (unifyNewlines.eq_3 d text hpair).symm⟩
      · obtain ⟨rest', hrest, rfl⟩ := ih h
        exact ⟨rest', hrest.trans (suffix_cons d text), rfl⟩
  obtain ⟨_, hmark', hsuffix⟩ := infix_iff_prefix_suffix.mp h
  obtain ⟨rest, hrest, rfl⟩ := hend hsuffix
  exact (hbegin hmark hmark').isInfix.trans hrest.isInfix

/-- Carriage returns alone in the place of line feeds are followed by no line feed. -/
theorem head?_replaceFeeds_return (text : List Char) :
    (replaceFeeds ['\r'] text).head? ≠ some '\n' := by
  cases text with
  | nil => exact nofun
  | cons c text =>
    rw [replaceFeeds_cons]
    by_cases hc : c = '\n' <;> simp [hc]

/-- `unifyNewlines` turns both other line endings into line feeds again. -/
theorem unifyNewlines_replaceFeeds {ending : List Char}
    (hending : ending = ['\r', '\n'] ∨ ending = ['\r']) (h : '\r' ∉ text) :
    unifyNewlines (replaceFeeds ending text) = text := by
  induction text with
  | nil => rfl
  | cons c text ih =>
    rw [mem_cons, not_or] at h
    rw [replaceFeeds_cons]
    by_cases hc : c = '\n'
    · rw [if_pos hc, hc]
      rcases hending with rfl | rfl
      · exact congrArg ('\n' :: ·) (ih h.2)
      · rw [singleton_append, unifyNewlines_return_cons (head?_replaceFeeds_return text), ih h.2]
    · rw [if_neg hc, singleton_append, unifyNewlines_cons_of_ne (Ne.symm h.1), ih h.2]

/-! ## Bytes -/

namespace Utf8

/-- Bytes with others in place of every line feed. -/
def replaceFeedBytes (ending : List UInt8) (bytes : List UInt8) : List UInt8 :=
  bytes.flatMap fun b => if b = 0x0a then ending else [b]

theorem replaceFeedBytes_append (ending left right : List UInt8) :
    replaceFeedBytes ending (left ++ right) =
      replaceFeedBytes ending left ++ replaceFeedBytes ending right :=
  flatMap_append

theorem replaceFeedBytes_of_not_mem (ending : List UInt8) {bytes : List UInt8}
    (h : 0x0a ∉ bytes) : replaceFeedBytes ending bytes = bytes := by
  induction bytes with
  | nil => rfl
  | cons b bytes ih =>
    rw [mem_cons, not_or] at h
    have hb : b ≠ 0x0a := Ne.symm h.1
    show (if b = 0x0a then ending else [b]) ++ replaceFeedBytes ending bytes = _
    rw [if_neg hb, ih h.2, singleton_append]

/-- An ASCII byte is no part of any character but its own. -/
theorem toNat_of_mem_utf8EncodeChar {c : Char} {b : UInt8} (hb : b ∈ String.utf8EncodeChar c)
    (hascii : b.toNat < 0x80) : c.toNat = b.toNat := by
  have hmax : c.val.toNat < 0x110000 := by
    have := c.valid
    rcases this with h | h
    · exact Nat.lt_trans h (by decide)
    · exact h.2
  have htoNat : c.toNat = c.val.toNat := rfl
  simp only [String.utf8EncodeChar] at hb
  split at hb
  · rw [mem_singleton] at hb
    rw [hb, htoNat]
    simp
    omega
  split at hb
  · simp at hb
    rcases hb with rfl | rfl <;> simp at hascii <;> omega
  split at hb
  · simp at hb
    rcases hb with rfl | rfl | rfl <;> simp at hascii <;> omega
  · simp at hb
    rcases hb with rfl | rfl | rfl | rfl <;> simp at hascii <;> omega

theorem feed_not_mem_utf8EncodeChar {c : Char} (hc : c ≠ '\n') :
    0x0a ∉ String.utf8EncodeChar c := by
  intro hb
  have hcode : c.toNat = '\n'.toNat := toNat_of_mem_utf8EncodeChar hb (by decide)
  exact hc (Char.toNat_inj.mp hcode)

theorem replaceFeedBytes_encode (ending text : List Char) :
    replaceFeedBytes (ending.flatMap String.utf8EncodeChar) (text.flatMap String.utf8EncodeChar) =
      (replaceFeeds ending text).flatMap String.utf8EncodeChar := by
  induction text with
  | nil => rfl
  | cons c text ih =>
    rw [flatMap_cons, replaceFeedBytes_append, ih, replaceFeeds_cons, flatMap_append]
    congr 1
    by_cases hc : c = '\n'
    · subst hc
      rw [if_pos rfl]
      exact append_nil _
    · rw [if_neg hc, replaceFeedBytes_of_not_mem _ (feed_not_mem_utf8EncodeChar hc),
        flatMap_singleton]

theorem return_not_mem_of_bytes (h : 0x0d ∉ text.flatMap String.utf8EncodeChar) : '\r' ∉ text := by
  intro hmem
  exact h (mem_flatMap.mpr ⟨'\r', hmem, by decide⟩)

theorem decodeLenient_encode (text : List Char) :
    decodeLenient (text.flatMap String.utf8EncodeChar) = text := by
  rw [decodeLenient, pieces_encode, charsOf_chars]

end Utf8

end Text

/-! ## Reports -/

namespace Survey

open Text Text.Utf8 Workspace

variable {w : Workspace}
variable {path : String}

/-- Two results of `readFile` that every reader takes for the same text. -/
structure SameText (r r' : Except FileError (List UInt8)) : Prop where
  lenient : r'.map (unifyNewlines ∘ decodeLenient) = r.map (unifyNewlines ∘ decodeLenient)
  strict : r'.map (fun bytes => (decode bytes).map unifyNewlines) =
    r.map fun bytes => (decode bytes).map unifyNewlines

theorem SameText.of_encode {text' : List Char} (h : unifyNewlines text' = unifyNewlines text) :
    SameText (.ok (text.flatMap String.utf8EncodeChar))
      (.ok (text'.flatMap String.utf8EncodeChar)) := by
  have hdecode := decode_eq_ok_iff.mpr (rfl : text.flatMap String.utf8EncodeChar = _)
  have hdecode' := decode_eq_ok_iff.mpr (rfl : text'.flatMap String.utf8EncodeChar = _)
  constructor
  · simp only [Except.map, Function.comp_apply, decodeLenient_encode, h]
  · simp only [Except.map, hdecode, hdecode', h]

theorem readText_eq (w : Workspace) (path : String) :
    readText w path = (w.readFile path).map (unifyNewlines ∘ decodeLenient) := by
  unfold readText
  cases w.readFile path <;> rfl

theorem readText_encode (h : w.readFile path = .ok (text.flatMap String.utf8EncodeChar)) :
    readText w path = .ok (unifyNewlines text) := by
  rw [readText_eq, h]
  simp only [Except.map, Function.comp_apply, decodeLenient_encode]

/-- `readText` gives a text without carriage returns as it was written. -/
theorem readText_of_encode (h : w.readFile path = .ok (text.flatMap String.utf8EncodeChar))
    (hreturn : '\r' ∉ text) : readText w path = .ok text := by
  rw [readText_encode h, unifyNewlines_of_not_mem hreturn]

/-- `plain` finds its outline in the text as it was written. -/
theorem plain_of_encode (language : Language) (find : List Char → Finding)
    (h : w.readFile path = .ok (text.flatMap String.utf8EncodeChar)) (hreturn : '\r' ∉ text) :
    plain w path language find = .ok ⟨path, some language.name, find text⟩ := by
  rw [plain, readText_of_encode h hreturn]
  rfl

theorem SameText.readText {w' : Workspace} (h : SameText (w.readFile path) (w'.readFile path)) :
    Survey.readText w' path = Survey.readText w path := by
  rw [readText_eq, readText_eq, h.lenient]

theorem SameText.python {w' : Workspace} (h : SameText (w.readFile path) (w'.readFile path)) :
    Survey.python w' path = Survey.python w path := by
  have hstrict := h.strict
  unfold Survey.python
  generalize w.readFile path = r at hstrict
  generalize w'.readFile path = r' at hstrict
  cases r with
  | error cause =>
    cases r' with
    | error cause' =>
      cases hstrict
      rfl
    | ok bytes' => cases hstrict
  | ok bytes =>
    cases r' with
    | error cause' => cases hstrict
    | ok bytes' =>
      have hdecode : (decode bytes').map unifyNewlines = (decode bytes).map unifyNewlines :=
        Except.ok.inj hstrict
      simp only [Except.mapError, bind, Except.bind]
      generalize decode bytes = t at hdecode
      generalize decode bytes' = t' at hdecode
      cases t <;> cases t' <;> simp_all [Except.map]

/-- **`report` depends on the texts only**: the one under the path, and the one under its normal
form, which is where a TypeScript file is looked for. -/
theorem report_of_sameText {w' : Workspace} (h : SameText (w.readFile path) (w'.readFile path))
    (hnormal : SameText (w.readFile (Path.normalForm path)) (w'.readFile (Path.normalForm path)))
    (helper : Option Assistant.Helper) : report w' helper path = report w helper path := by
  unfold report
  cases Language.detect? path with
  | none => simp only [inOther, h.readText]
  | some language =>
    cases language with
    | python => exact h.python
    | typeScript => simp only [inLanguage, typeScript, hnormal.readText]
    | _ => simp only [inLanguage, plain, h.readText]

/-- **Line endings make no difference to a report**: after every line feed of a file that is text
without carriage returns is replaced by a carriage return and a line feed, or by a carriage return
alone, every path has the report that it had, or is refused as it was, whoever helps. -/
theorem report_replaceFeedBytes {w : Workspace} {place : Location} {bytes : List UInt8}
    (hfile : w.root.at? place = some (.file bytes)) (htext : IsUtf8 bytes) (hreturn : 0x0d ∉ bytes)
    (helper : Option Assistant.Helper) (path : String) :
    report (w.put place (.file (replaceFeedBytes [0x0d, 0x0a] bytes))) helper path =
        report w helper path ∧
      report (w.put place (.file (replaceFeedBytes [0x0d] bytes))) helper path =
        report w helper path := by
  obtain ⟨text, rfl⟩ := htext
  have hreturn' : '\r' ∉ text := return_not_mem_of_bytes hreturn
  have hsame : ∀ ending : List Char, ending = ['\r', '\n'] ∨ ending = ['\r'] →
      ∀ path, report (w.put place (.file (replaceFeedBytes
        (ending.flatMap String.utf8EncodeChar) (text.flatMap String.utf8EncodeChar)))) helper path =
        report w helper path := by
    intro ending hending path
    have hread : ∀ path, SameText (w.readFile path) ((w.put place (.file (replaceFeedBytes
        (ending.flatMap String.utf8EncodeChar)
          (text.flatMap String.utf8EncodeChar)))).readFile path) := by
      intro path
      rcases readFile_put hfile (replaceFeedBytes (ending.flatMap String.utf8EncodeChar)
        (text.flatMap String.utf8EncodeChar)) path with ⟨hold, hnew⟩ | hsame
      · rw [hold, hnew, replaceFeedBytes_encode]
        refine .of_encode ?_
        rw [unifyNewlines_replaceFeeds hending hreturn', unifyNewlines_of_not_mem hreturn']
      · rw [hsame]
        exact ⟨rfl, rfl⟩
    exact report_of_sameText (hread path) (hread _) helper
  exact ⟨hsame ['\r', '\n'] (.inl rfl) path, hsame ['\r'] (.inr rfl) path⟩

/-- A directory with one file, in a language told by its name. -/
def oneFile (bytes : List UInt8) : Workspace :=
  ⟨"/", .directory true [("a.rb", .file bytes)]⟩

theorem readFile_oneFile (bytes : List UInt8) : (oneFile bytes).readFile "a.rb" = .ok bytes := by
  have hnames : Path.components "a.rb" = ["a.rb"] := by decide +kernel
  have hstart : start (Path.properComponents "/") "a.rb" = [] := by decide +kernel
  have hfound : (oneFile bytes).resolve true "a.rb" = .ok ⟨["a.rb"], .file bytes, linkLimit⟩ := by
    refine resolve_eq_ok_iff.mpr ⟨by decide, by decide, by decide, ?_⟩
    change resolveFrom _ true linkLimit
      (start (Path.properComponents "/") "a.rb") _ = _
    rw [hstart, hnames]
    rfl
  rw [readFile, hfound]
  rfl

/-- Two lines, the first with a letter of two bytes, and a third that is empty. -/
theorem report_replaceFeedBytes_two_lines :
    IsUtf8 [0xc3, 0xa9, 0x0a, 0x62, 0x0a] ∧
      report (oneFile [0xc3, 0xa9, 0x0d, 0x0a, 0x62, 0x0d, 0x0a]) none "a.rb" =
        report (oneFile [0xc3, 0xa9, 0x0a, 0x62, 0x0a]) none "a.rb" ∧
      report (oneFile [0xc3, 0xa9, 0x0d, 0x62, 0x0d]) none "a.rb" =
        report (oneFile [0xc3, 0xa9, 0x0a, 0x62, 0x0a]) none "a.rb" := by
  have htext : IsUtf8 [0xc3, 0xa9, 0x0a, 0x62, 0x0a] := ⟨['é', '\n', 'b', '\n'], by decide⟩
  have hfile : (oneFile [0xc3, 0xa9, 0x0a, 0x62, 0x0a]).root.at? ["a.rb"] =
      some (.file [0xc3, 0xa9, 0x0a, 0x62, 0x0a]) := rfl
  exact ⟨htext, report_replaceFeedBytes hfile htext (by decide) none "a.rb"⟩

end Survey

end CodeAtlas
