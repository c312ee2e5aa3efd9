import CodeAtlas.Proofs.ParameterLists
import CodeAtlas.Proofs.SourceTexts

/-!
# Controllers

A controller is a class with a base path whose methods answer requests. Written out, with one
annotation and one line for each method, it is read back as it was: its methods in order, each with
its name, its verb, its path and its parameters (`endpoints_controller`).
-/

open List

namespace CodeAtlas

open Pattern Outline Text

namespace Java

/-- An identifier that does not end in the keyword of a class. -/
structure Named extends Identifier where
  ending : ¬ "class".toList <:+ text

/-- A method of a controller; its parameters are types with names. -/
structure Route where
  verb : Verb
  path : PathText
  result : Named
  name : Named
  parameters : List (Named × Named)

/-- A class with a base path. -/
structure Controller where
  base : PathText
  name : Named
  routes : List Route

/-! ## Controllers as written -/

def parameterText (p : Named × Named) : List Char :=
  p.1.text ++ ' ' :: p.2.text

def parametersText (ps : List (Named × Named)) : List Char :=
  joinWith [',', ' '] (ps.map parameterText)

def Route.text (r : Route) : List Char :=
  '@' :: (mappingName (some r.verb)).toList ++ "(\"".toList ++ r.path.text ++
    "\")\npublic ".toList ++ r.result.text ++ ' ' :: r.name.text ++
      '(' :: parametersText r.parameters ++ ") \x7b\x7d\n".toList

def Controller.text (k : Controller) : List Char :=
  "@RequestMapping(\"".toList ++ k.base.text ++ "\")\npublic class ".toList ++ k.name.text ++
    " \x7b\n".toList ++ k.routes.flatMap Route.text ++ ['\x7d']

/-! ## Parameters -/

theorem Named.isOneWord (n : Named) : IsOneWord n.text :=
  ⟨n.ne_nil, fun _ hc => n.isBlank_eq_false hc⟩

theorem isAsciiWord_of_mem_parameterText {p : Named × Named} {c : Char}
    (hc : c ∈ parameterText p) : isAsciiWord c ∨ c = ' ' := by
  simp only [parameterText, mem_append, mem_cons] at hc
  rcases hc with hc | hc | hc
  · exact .inl (p.1.word c hc)
  · exact .inr hc
  · exact .inl (p.2.word c hc)

theorem parameter?_parameterText (p : Named × Named) :
    parameter? (parameterText p) = some ⟨String.ofList p.1.text, String.ofList p.2.text⟩ := by
  refine parameter?_of_words (cons_ne_nil p.1.text []) ?_
  rw [parameterText, words_append p.1.isOneWord (by decide), words_of_isOneWord p.2.isOneWord]
  rfl

/-- `parameters` are read as they are written. -/
theorem parameters_parametersText (ps : List (Named × Named)) : parameters (parametersText ps) =
      ps.map fun p => ⟨String.ofList p.1.text, String.ofList p.2.text⟩ := by
  have hcomma : ∀ text ∈ ps.map parameterText, ',' ∉ text := by
    intro text htext hmem
    obtain ⟨p, -, rfl⟩ := mem_map.mp htext
    rcases isAsciiWord_of_mem_parameterText hmem with hword | hspace
    · cases hword
    · cases hspace
  rw [parametersText, parameters_joinWith hcomma, filterMap_map, ← filterMap_eq_map]
  exact filterMap_congr fun p _ => parameter?_parameterText p

theorem isAsciiWord_of_mem_parametersText {ps : List (Named × Named)} {c : Char}
    (hc : c ∈ parametersText ps) : isAsciiWord c ∨ c = ' ' ∨ c = ',' := by
  rcases mem_joinWith hc with hc | ⟨piece, hpiece, hc⟩
  · simp only [mem_cons, not_mem_nil, or_false] at hc
    exact .inr hc.symm
  · obtain ⟨p, -, rfl⟩ := mem_map.mp hpiece
    exact (isAsciiWord_of_mem_parameterText hc).imp id .inl

/-- Parameters name no class, as their types do not end in the keyword. -/
theorem clear_parametersText (ps : List (Named × Named)) : Clear (parametersText ps ++ [')']) := by
  -- a name may end in the keyword, for no white space follows it
  have hname : ∀ (n : Named) (d : Char), isBlank d = false → among "clas" d = false →
      Clear (n.text ++ [d]) :=
    fun n d hd hletter => .of_solid (fun _ hc => n.isBlank_eq_false hc) hd hletter
  have hparameter : ∀ (p : Named × Named) (d : Char), isBlank d = false →
      among "clas" d = false → Clear (parameterText p ++ [d]) := by
    intro p d hd hletter
    have htype : Clear (p.1.text ++ [' ']) :=
      .of_word (fun _ hc => p.1.isBlank_eq_false hc) p.1.ending (by decide)
    simpa [parameterText] using htype.append (hname p.2 d hd hletter)
  induction ps with
  | nil => exact ⟨by decide, by decide⟩
  | cons p ps ih =>
    cases ps with
    | nil => exact hparameter p ')' (by decide) (by decide)
    | cons q ps =>
      have hspace : Clear [' '] := .of_blank (by decide)
      have hall := (hparameter p ',' (by decide) (by decide)).append (hspace.append ih)
      simpa [parametersText, joinWith_cons_cons] using hall

/-! ## Controllers as source texts -/

def Route.member (r : Route) : Member where
  handler :=
    { note := .sole (some r.verb) r.path
      gap := ['\n']
      access := some publicAccess
      further := none
      type := r.result.text
      name := r.name.text
      parameters := parametersText r.parameters
      gap_blank := isBlank_newline
      type_ne_nil := r.result.ne_nil
      type_plain := fun c hc =>
        isTypeChar_of_isWord (isWord_of_isAsciiWord (r.result.word c hc))
      name_ne_nil := r.name.ne_nil
      name_word := fun c hc => isWord_of_isAsciiWord (r.name.word c hc)
      parameters_plain := by
        intro hmem
        rcases isAsciiWord_of_mem_parametersText hmem with hword | hspace | hcomma
        · cases hword
        · cases hspace
        · cases hcomma }
  after := .emptyBody
  type_end := r.result.ending
  parameters_plain := by
    intro c hc
    rcases isAsciiWord_of_mem_parametersText hc with hword | rfl | rfl
    · exact notAmong_of_isHeadChar (isHeadChar_of_isAsciiWord hword)
    · decide
    · decide
  parameters_clear := clear_parametersText r.parameters

theorem Route.text_member (r : Route) : r.member.text = r.text := by
  -- both are unfolded by hand, as far as the words they share
  have hmember : r.member.text = ('@' :: ((mappingName (some r.verb)).toList ++
      '(' :: (([] ++ '"' :: (r.path.text ++ ['"'])) ++ [')'])) ++
        ((['\n'] ++ (spaced "public" ++ []) ++ (r.result.text ++ [' '] ++ r.name.text)) ++
          '(' :: (parametersText r.parameters ++ [')']))) ++ " \x7b\x7d\n".toList := rfl
  have hroute : r.text = '@' :: (mappingName (some r.verb)).toList ++ ['(', '"'] ++ r.path.text ++
      '"' :: ')' :: '\n' :: spaced "public" ++ r.result.text ++ ' ' :: r.name.text ++
        '(' :: parametersText r.parameters ++ ')' :: " \x7b\x7d\n".toList := rfl
  rw [hmember, hroute]
  simp only [append_assoc, cons_append, nil_append, append_nil]

def Controller.classText (k : Controller) : ClassText :=
  .lines (some k.base) k.name.toIdentifier (k.routes.map Route.member)
    ⟨['\x7d'], by decide, ⟨by decide, by decide⟩⟩

def Controller.sourceText (k : Controller) : SourceText :=
  ⟨.empty, [k.classText], by simp⟩

theorem Controller.text_sourceText (k : Controller) : k.sourceText.text = k.text := by
  have hroutes : (k.routes.map Route.member).flatMap Member.text = k.routes.flatMap Route.text := by
    rw [flatMap_map]
    exact flatMap_congr fun r _ => r.text_member
  have hsource : k.sourceText.text = [] ++ ((('@' :: ("RequestMapping".toList ++
      '(' :: (([] ++ '"' :: (k.base.text ++ ['"'])) ++ [')']))) ++ (['\n'] ++
        (spaced "public" ++ [])) ++ spaced "class" ++ k.name.text ++ ([' '] ++ ['\x7b']) ++
          ['\n'] ++ (k.routes.map Route.member).flatMap Member.text ++ ['\x7d']) ++ []) := rfl
  have hcontroller : k.text = ('@' :: "RequestMapping".toList ++ ['(', '"']) ++ k.base.text ++
      '"' :: ')' :: '\n' :: (spaced "public" ++ spaced "class") ++ k.name.text ++
        [' ', '\x7b', '\n'] ++ k.routes.flatMap Route.text ++ ['\x7d'] := rfl
  rw [hsource, hcontroller, hroutes]
  simp only [append_assoc, cons_append, nil_append, append_nil]

/-- **Round trip of a controller.** Every method makes one endpoint, in order, with its name, its
verb, its path joined to that of the controller, and its parameters. -/
theorem endpoints_controller (k : Controller) :
    (endpoints k.text).map (fun e => (e.name, e.verbs, e.path, e.parameters)) =
      k.routes.map fun r => (String.ofList r.name.text, [r.verb.word],
        String.ofList (joinPaths k.base.text r.path.text),
        r.parameters.map fun p => ⟨String.ofList p.1.text, String.ofList p.2.text⟩) := by
  have hbase : (k.classText.basePath? []).getD [] = k.base.text :=
    k.classText.basePath?_of_verbs (by simp)
  rw [← k.text_sourceText, endpoints_eq_reported]
  show ((k.routes.map Route.member).map (fun m : Member => m.handler.endpoint
    ((k.classText.basePath? []).getD [])) ++ []).map _ = _
  rw [hbase, append_nil, map_map, map_map]
  refine map_congr_left fun r _ => ?_
  simp only [Function.comp_def, Handler.endpoint, Route.member, Note.verbs, Note.sole,
    parameters_parametersText, Option.elim_some]

end Java

end CodeAtlas
