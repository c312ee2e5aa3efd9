import CodeAtlas.Proofs.Leading
import CodeAtlas.Survey

/-!
# What an assistant's reply is good for

A file in a language without an outline of its own is reported on with the help of an assistant. The
report gives the assistant's value exactly if the reply is text that can be understood: it is JSON,
or it is no JSON and the part from its first opening brace to its last closing one is
(`readReply_eq_value_iff`). Whatever else the assistant does, the report holds the outline that it
would hold had nobody been asked (`inOther_gives_value_or_heuristic`).

The part between the braces is searched for by a pattern; that the eager search takes the first and
the last brace is `braced_eq_some_iff`.
-/

open List

namespace CodeAtlas

namespace Assistant

open Pattern

/-! ## The braced part -/

/-- A slice of a text from its first opening brace to its last closing one. -/
def Spans (text slice : List Char) : Prop :=
  ∃ before middle after, text = before ++ slice ++ after ∧ slice = '\x7b' :: middle ++ ['\x7d'] ∧
    '\x7b' ∉ before ∧ '\x7d' ∉ after

variable {text slice : List Char} {v : Json}

theorem Spans.braced_eq (h : Spans text slice) : braced text = some slice := by
  obtain ⟨before, middle, after, htext, rfl, hbefore, hafter⟩ := h
  have hclose : ∀ left, left <:+ "\x7d".toList ++ after → left ≠ "\x7d".toList ++ after →
      (Pattern.lit "\x7d").FailsAt left := by
    intro left hleft hne
    have hleft : left <:+ after := (suffix_cons_iff.mp hleft).resolve_left hne
    refine .lit fun hbrace => hafter (hleft.subset (hbrace.subset mem_cons_self))
  have hleads : ∀ bound, bracedPattern.Leads bound ("\x7b".toList ++ (middle ++ "\x7d".toList)) after
      _ := fun bound => Leads.group (.of_advance_eq
        (p := .lit "\x7b" ++ (.many Pattern.anyChar ++ .lit "\x7d")) (fun _ _ => rfl)
        ((Leads.lit "\x7b" _).append (.many_append (fun _ _ => rfl) (.lit "\x7d" after) hclose))) 1
  have hpasses : Passes bracedPattern before
      ("\x7b".toList ++ (middle ++ "\x7d".toList) ++ after) :=
    .of_not_mem rfl rfl hbefore
  obtain ⟨m, hfirst, hgroups⟩ := (hleads text.length).firstAt? hpasses (c := .start text)
    (htext.trans (append_assoc ..))
  rw [braced, find?_eq_firstAt?, hfirst, Option.map_some, Match.group, hgroups 1]
  rfl

/-- Where `braced` finds braces, there is a first opening one and a last closing one. -/
theorem exists_spans (h : braced text = some slice) : ∃ slice, Spans text slice := by
  obtain ⟨m, hfind, -⟩ := Option.map_eq_some_iff.mp h
  obtain ⟨passed, rest, htext, hhere, -⟩ := find?_eq_some_iff.mp hfind
  obtain ⟨t, ht, -⟩ := exists_way_of_matchAt? hhere
  obtain ⟨_, _, hspells, ⟨after, hrest, -⟩, -⟩ := spells_of_mem_ways ht
  simp [bracedPattern] at hspells
  obtain ⟨⟨middle, -, rfl⟩, -⟩ := hspells
  have hrest : rest = '\x7b' :: (middle ++ ['\x7d']) ++ after := hrest
  have htext : text = (passed ++ ['\x7b']) ++ (middle ++ '\x7d' :: after) := by
    have hsplit : text = passed ++ rest := htext
    simp [hsplit, hrest]
  obtain ⟨before, left, hbefore, hfirst⟩ :=
    eq_append_cons_of_mem (by simp : '\x7b' ∈ passed ++ ['\x7b'])
  obtain ⟨behind, right, hbehind, hlast⟩ :=
    eq_append_cons_of_mem (by simp : '\x7d' ∈ ('\x7d' :: after).reverse)
  refine ⟨_, before, left ++ (middle ++ right.reverse), behind.reverse, ?_, rfl, hfirst,
    by simpa using hlast⟩
  have hafter : '\x7d' :: after = right.reverse ++ '\x7d' :: behind.reverse := by
    simpa using congrArg reverse hbehind
  rw [htext, hbefore, hafter]
  simp

/-- **What `braced` finds** is from the first opening brace to the last closing one. -/
theorem braced_eq_some_iff : braced text = some slice ↔ Spans text slice := by
  refine ⟨fun h => ?_, Spans.braced_eq⟩
  obtain ⟨slice', hspans⟩ := exists_spans h
  obtain rfl : slice' = slice := Option.some.inj (hspans.braced_eq.symm.trans h)
  exact hspans

/-! ## Replies -/

/-- A text is understood as a value if it is JSON or, when it is no JSON, its braced part is. -/
def Understood (text : List Char) (v : Json) : Prop :=
  Json.read text = .ok v ∨
    (∃ flaw position, Json.read text = .error (.malformed flaw position)) ∧
      ∃ slice, Spans text slice ∧ Json.read slice = .ok v

theorem readReply_eq_value_iff {text : String} :
    readReply text = .value v ↔ Understood text.toList v := by
  unfold readReply Understood
  cases hread : Json.read text.toList with
  | ok v' => simp
  | error e =>
    cases e with
    | longInteger _ | deep _ => simp
    | malformed flaw position =>
      simp only [← braced_eq_some_iff]
      cases hbraced : braced text.toList with
      | none => simp
      | some slice =>
        cases hslice : Json.read slice with
        | ok v' => simp [hslice]
        | error e => cases e <;> simp [hslice]

/-- A response gives a value if it is a reply whose text is understood as that value. -/
def Gives (response : Option Response) (v : Json) : Prop :=
  ∃ text, response = some (.reply (some text)) ∧ Understood text.toList v

theorem reading_eq_value_iff {response : Option Response} :
    response.map Response.reading = some (.value v) ↔ Gives response v := by
  unfold Gives
  constructor
  · intro h
    obtain ⟨given, rfl, hreading⟩ := Option.map_eq_some_iff.mp h
    cases given with
    | failure kind message => cases hreading
    | reply text =>
      cases text with
      | none => cases hreading
      | some text => exact ⟨text, rfl, readReply_eq_value_iff.mp hreading⟩
  · rintro ⟨text, rfl, hunderstood⟩
    exact congrArg some (readReply_eq_value_iff.mpr hunderstood)

end Assistant

namespace Survey

open Assistant (Response Gives)

/-! ## Reports -/

/-- A finding that holds a heuristic outline. -/
inductive FallsBack (outline : Heuristic.Outline) : Finding → Prop where
  | heuristic : FallsBack outline (.heuristic outline)
  | unclear (reply : String) : FallsBack outline (.unclear reply outline)
  | unanswered (why : Assistant.Failure) : FallsBack outline (.unanswered why outline)

/-- `assisted` finds the value that the response `Gives` or, if it gives none, the outline. -/
theorem assisted_cases (response : Option Response) (code : List Char) :
    (∃ v, (∀ v', Gives response v' ↔ v' = v) ∧ assisted response code = .answered v) ∨
      (∀ v, ¬ Gives response v) ∧ FallsBack (Heuristic.outline code) (assisted response code) := by
  unfold assisted
  simp only [← Assistant.reading_eq_value_iff]
  cases hreading : response.map Response.reading with
  | none => exact .inr ⟨by simp, .heuristic⟩
  | some reading =>
    cases reading with
    | value v => exact .inl ⟨v, by simp [eq_comm], rfl⟩
    | prose reply => exact .inr ⟨by simp, .unclear reply⟩
    | failed why => exact .inr ⟨by simp, .unanswered why⟩

/-- An object, each field of which stands there once, that names a file and its language. -/
structure Labelled (path : String) (language : Option String) (j : Json) : Prop where
  object : ∃ fields, j = .object fields ∧ (fields.map Prod.fst).Nodup
  file : j.get? "file" = some (.text path)
  language : j.get? "language" = some (.ofOption language)

theorem toJson_answered (nameless path : String) (language : Option String) (v : Json) :
    let j := Report.toJson nameless ⟨path, language, .answered v⟩
    Labelled path language j ∧ j.get? "status" = some (.text "llm") ∧ j.get? "parsed" = some v := by
  refine ⟨⟨⟨_, rfl, ?_⟩, rfl, rfl⟩, rfl, rfl⟩
  simp [Finding.status?, Finding.fields]

theorem toJson_of_fallsBack {outline : Heuristic.Outline} {finding : Finding}
    (h : FallsBack outline finding) (nameless path : String) (language : Option String) :
    let j := Report.toJson nameless ⟨path, language, finding⟩
    Labelled path language j ∧ j.get? "status" ≠ some (.text "llm") ∧
      j.get? "heuristic" = some outline.toJson := by
  -- the three findings differ in their status and in what they say of the reply
  cases h <;>
    exact ⟨⟨⟨_, rfl, by simp [Finding.status?, Finding.fields]⟩, rfl, rfl⟩,
      by simp [Report.toJson, Finding.status?, Json.get?], rfl⟩

/-- `inOther` asks the helper, if there is one, about the text of the file. -/
theorem inOther_eq {w : Workspace} {path : String} {bytes : List UInt8}
    (hread : w.readFile path = .ok bytes) (language : Option String)
    (helper : Option Assistant.Helper) :
    let code := Text.unifyNewlines (Text.Utf8.decodeLenient bytes)
    inOther w path language helper =
      .ok ⟨path, language,
        assisted (helper.map (· (Assistant.request (Assistant.question language code)))) code⟩ := by
  unfold inOther readText
  rw [hread]
  rfl

/-- **A report gives the assistant's value or the heuristic outline.** On a file that can be read
there is a report, whoever helps and whatever the response, and it names the file and its language.
It gives a value as the assistant's exactly if the response to the question about the file does. If
that gives none, the report holds the outline of the file's text, as does the report without an
assistant. -/
theorem inOther_gives_value_or_heuristic {w : Workspace} {path : String} {bytes : List UInt8}
    (hread : w.readFile path = .ok bytes) (language : Option String)
    (helper : Option Assistant.Helper) (nameless : String) :
    let code := Text.unifyNewlines (Text.Utf8.decodeLenient bytes)
    let response := helper.map (· (Assistant.request (Assistant.question language code)))
    ∃ answer plain : Report, inOther w path language helper = .ok answer ∧
      inOther w path language none = .ok plain ∧
      Labelled path language (answer.toJson nameless) ∧
      (∀ v, (answer.toJson nameless).get? "status" = some (.text "llm") ∧
          (answer.toJson nameless).get? "parsed" = some v ↔ Gives response v) ∧
      ((∀ v, ¬ Gives response v) →
        (answer.toJson nameless).get? "status" ≠ some (.text "llm") ∧
        (answer.toJson nameless).get? "heuristic" = (plain.toJson nameless).get? "heuristic" ∧
        (plain.toJson nameless).get? "heuristic" =
          some (Heuristic.outline code).toJson) := by
  intro code response
  refine ⟨_, _, inOther_eq hread language helper, inOther_eq hread language none, ?_⟩
  obtain ⟨v, hgives, hfinding⟩ | ⟨hgives, hfalls⟩ := assisted_cases response code
  · obtain ⟨hlabelled, hstatus, hparsed⟩ := toJson_answered nameless path language v
    rw [hfinding]
    refine ⟨hlabelled, fun v' => ?_, fun hnone => absurd ((hgives v).mpr rfl) (hnone v)⟩
    rw [hgives, hparsed, and_iff_right hstatus, Option.some.injEq, eq_comm]
  · obtain ⟨hlabelled, hstatus, hheuristic⟩ := toJson_of_fallsBack hfalls nameless path language
    refine ⟨hlabelled, fun v => ⟨fun h => absurd h.1 hstatus, fun h => absurd h (hgives v)⟩,
      fun _ => ⟨hstatus, hheuristic, rfl⟩⟩

/-- A reply with words around its JSON gives the value. -/
theorem inOther_gives_value_or_heuristic_wordy :
    ∃ answer, inOther ⟨"/", .directory true [("a.ex", .file [102, 110])]⟩ "a.ex" (some "elixir")
        (some fun _ => .reply (some "Here: \x7b\"a\": 1\x7d.")) = .ok answer ∧
      (answer.toJson "").get? "status" = some (.text "llm") ∧
      (answer.toJson "").get? "parsed" = some (.object [("a", .int 1)]) := by
  have hread : Workspace.readFile ⟨"/", .directory true [("a.ex", .file [102, 110])]⟩ "a.ex" =
      .ok [102, 110] := by rfl
  have hwhole : Json.read "Here: \x7b\"a\": 1\x7d.".toList = .error (.malformed .value 0) := by cbv
  have hslice : Json.read "\x7b\"a\": 1\x7d".toList = .ok (.object [("a", .int 1)]) := by cbv
  have hgives : Gives (some (.reply (some "Here: \x7b\"a\": 1\x7d.")))
      (.object [("a", .int 1)]) :=
    ⟨_, rfl, .inr ⟨⟨_, _, hwhole⟩, _, ⟨"Here: ".toList, "\"a\": 1".toList, ['.'], by decide, rfl,
      by decide, by decide⟩, hslice⟩⟩
  obtain ⟨answer, -, hanswer, -, -, hvalue, -⟩ :=
    inOther_gives_value_or_heuristic hread (some "elixir") _ ""
  exact ⟨answer, hanswer, (hvalue _).mpr hgives⟩

end Survey

end CodeAtlas
