import CodeAtlas.Script.Literal
import CodeAtlas.Script.Parser

/-!
# Texts with replacement fields

A text whose braces hold expressions: `{expression}`, with an equals sign after the expression to
show its source, a conversion after an exclamation mark, and after a colon a format that may hold
fields of its own, but no deeper ones. A doubled brace stands for itself. No backslash and no
comment may stand inside a field.
-/

namespace CodeAtlas.Script.Template

/-- The literal part at the start of a text, whether a doubled brace ends it, and what follows. In a
format braces are never doubled. -/
def literalPart (isRaw isFormat : Bool) :
    List Char → Except String (List Char × Bool × List Char)
  | [] => .ok ([], false, [])
  | '\\' :: c :: rest =>
    if isRaw then do
      let (taken, more) ← literalPart isRaw isFormat (c :: rest)
      return ('\\' :: taken, more)
    else if c == 'N' then
      -- the braces of a character's name are no field
      let name :=
        if rest.head? == some '\x7b' then
          let inner := rest.tail.takeWhile (· != '\x7d')
          rest.take (inner.length + 2)
        else rest.take 1
      do
        let (taken, more) ← literalPart isRaw isFormat (rest.drop name.length)
        return ('\\' :: c :: name ++ taken, more)
    else if c == '\x7b' || c == '\x7d' then brace ['\\'] c rest
    else do
      let (taken, more) ← literalPart isRaw isFormat rest
      return ('\\' :: c :: taken, more)
  | c :: rest =>
    if c == '\x7b' || c == '\x7d' then brace [] c rest
    else do
      let (taken, more) ← literalPart isRaw isFormat rest
      return (c :: taken, more)
termination_by cs => cs.length
decreasing_by all_goals simp only [List.length_cons, List.length_drop]; omega
where
  /-- What a brace does to the literal part before it. -/
  brace (taken : List Char) (c : Char) (rest : List Char) :
      Except String (List Char × Bool × List Char) :=
    if isFormat then .ok (taken, false, c :: rest)
    else if rest.head? == some c then .ok (taken ++ [c], true, rest.tail)
    else if c == '\x7d' then .error "f-string: single '\x7d' is not allowed"
    else .ok (taken, false, c :: rest)

/-- Where a scan inside a field stands: in a string with one or three marks, or outside of any. -/
inductive Place where
  | outside
  | inside (mark : Char) (isTriple : Bool)

/-- The expression at the start of a field, up to the sign that ends it, and the text from that sign
on. -/
def expressionPart : Place → (nested : List Char) → List Char →
    Except String (List Char × List Char)
  | .inside _ _, _, [] => .error "f-string: unterminated string"
  | .outside, o :: _, [] => .error s!"f-string: unmatched '{o}'"
  | .outside, [], [] => .error "f-string: expecting '\x7d'"
  | place, nested, c :: rest =>
    if c == '\\' then .error "f-string expression part cannot include a backslash"
    else
      match place with
      | .inside mark isTriple =>
        if c != mark then take [c] (expressionPart place nested rest)
        else if !isTriple then take [c] (expressionPart .outside nested rest)
        else if startsWithTwo mark rest then
          take [c, c, c] (expressionPart .outside nested (rest.drop 2))
        else take [c] (expressionPart place nested rest)
      | .outside =>
        if c == '"' || c == '\'' then
          if startsWithTwo c rest then
            take [c, c, c] (expressionPart (.inside c true) nested (rest.drop 2))
          else take [c] (expressionPart (.inside c false) nested rest)
        else if c == '(' || c == '[' || c == '\x7b' then
          if 200 ≤ nested.length then .error "f-string: too many nested parenthesis"
          else take [c] (expressionPart .outside (c :: nested) rest)
        else if c == '#' then .error "f-string expression part cannot include '#'"
        else if nested.isEmpty && (c == '!' || c == ':' || c == '\x7d' || c == '=' || c == '<' ||
            c == '>') then
          if rest.head? == some '=' && c != ':' && c != '\x7d' then
            take [c, '='] (expressionPart .outside nested rest.tail)
          else if c == '<' || c == '>' then take [c] (expressionPart .outside nested rest)
          else .ok ([], c :: rest)
        else if c == ')' || c == ']' || c == '\x7d' then
          match nested with
          | [] => .error s!"f-string: unmatched '{c}'"
          | o :: below =>
            if (o == '(' && c == ')') || (o == '[' && c == ']') || (o == '\x7b' && c == '\x7d') then
              take [c] (expressionPart .outside below rest)
            else
              .error
                s!"f-string: closing parenthesis '{c}' does not match opening parenthesis '{o}'"
        else take [c] (expressionPart .outside nested rest)
termination_by _ _ cs => cs.length
decreasing_by all_goals simp only [List.length_cons, List.length_drop, List.length_tail]; omega
where
  /-- Puts characters before a part. -/
  take (cs : List Char) (part : Except String (List Char × List Char)) :
      Except String (List Char × List Char) :=
    part.map fun (taken, rest) => (cs ++ taken, rest)
  /-- Whether a text starts with a mark twice. -/
  startsWithTwo (mark : Char) (cs : List Char) : Bool :=
    cs.head? == some mark && cs.tail.head? == some mark

/-- Whether a character is white space in ASCII. -/
def isGap (c : Char) : Bool :=
  c == ' ' || ('\t' ≤ c && c ≤ '\r')

/-- Adds a literal to the pieces so far, which stand in reverse order; neighbouring literals become
one. -/
def addLiteral (points : List Nat) (pieces : List Piece) : List Piece :=
  if points.isEmpty then pieces
  else
    match pieces with
    | .literal before :: others => .literal (before ++ points) :: others
    | _ => .literal points :: pieces

/-- How templates are read: what becomes of a mistake, and of the text of a field that starts so
many lines after the template. -/
structure Reader where
  isRaw : Bool
  mistake : String → Abort
  field : Nat → List Char → Except Abort Expr

/-- The wording for a field that is not closed. -/
def unclosed : String :=
  "f-string: expecting '\x7d'"

mutual

/-- Reads pieces up to the end of the text, or in a format up to its closing brace. The pieces so
far and the pieces read stand in reverse order. Every piece takes a character, so the length of the
text bounds their number. -/
def pieces (r : Reader) (total : Nat) : (fuel level : Nat) → List Piece → List Char →
    Except Abort (List Piece × List Char)
  | 0, _, before, cs => .ok (before, cs)
  | fuel + 1, level, before, cs => do
    let (literal, isDoubled, rest) ← (literalPart r.isRaw (level != 0) cs).mapError r.mistake
    let points ← (textPoints r.isRaw literal).mapError r.mistake
    let before := addLiteral points before
    if isDoubled then pieces r total fuel level before rest
    else
      match rest with
      | '\x7b' :: inner => do
        let (source, piece, rest) ← replacement r total fuel level inner
        pieces r total fuel level (piece :: addLiteral source before) rest
      | '\x7d' :: _ => return (before, rest)
      | _ => if level = 0 then return (before, rest) else .error (r.mistake unclosed)

/-- Reads a field after its opening brace: the source it shows, the field, and what follows it. -/
def replacement (r : Reader) (total : Nat) : (fuel level : Nat) → List Char →
    Except Abort (List Nat × Piece × List Char)
  | 0, _, _ => .error (r.mistake unclosed)
  | fuel + 1, level, cs => do
    if 2 ≤ level then .error (r.mistake "f-string: expressions nested too deeply")
    let (source, rest) ← (expressionPart .outside [] cs).mapError r.mistake
    if source.all fun c => c == ' ' || c == '\t' || c == '\n' || c == '\x0c' then
      .error (r.mistake "f-string: empty expression not allowed")
    let value ← r.field (total - cs.count '\n') ('(' :: source ++ [')'])
    let gap := if rest.head? == some '=' then '=' :: rest.tail.takeWhile isGap else []
    let rest := rest.drop gap.length
    let shown := if gap.isEmpty then [] else (source ++ gap).map Char.toNat
    if !gap.isEmpty && rest.isEmpty then .error (r.mistake unclosed)
    let (conversion, rest) ←
      match rest with
      | '!' :: c :: rest =>
        if c == 's' || c == 'r' || c == 'a' then pure (some c, rest)
        else
          .error (r.mistake
            "f-string: invalid conversion character: expected 's', 'r', or 'a'")
      | ['!'] => .error (r.mistake unclosed)
      | _ => pure (none, rest)
    let (spec, rest) ←
      match rest with
      | [':'] => .error (r.mistake unclosed)
      | ':' :: rest => do
        let (format, rest) ← pieces r total fuel (level + 1) [] rest
        pure (some format.reverse, rest)
      | _ => pure (none, rest)
    match rest with
    | '\x7d' :: rest =>
      let conversion :=
        if !gap.isEmpty && spec.isNone && conversion.isNone then some 'r' else conversion
      return (shown, .field value conversion spec, rest)
    | _ => .error (r.mistake unclosed)

end

/-- Reads a whole template after the pieces so far, which stand in reverse order. -/
def read (r : Reader) (before : List Piece) (content : List Char) : Except Abort (List Piece) := do
  let (found, _) ← pieces r (content.count '\n') (2 * content.length + 2) 0 before content
  return found

end CodeAtlas.Script.Template
