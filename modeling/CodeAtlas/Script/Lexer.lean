import CodeAtlas.Script.Token
import CodeAtlas.Text.Case
import CodeAtlas.Text.Identifier
import CodeAtlas.Text.Quoted

/-!
# From text to tokens

Lines are measured twice, with tabs that reach the next multiple of eight and with tabs that count
one, and have to agree on what is deeper; a deeper line opens a block, a shallower one closes blocks
down to one that was open. Inside brackets line ends and margins mean nothing.

A number ends where it cannot go on, and what follows it must not look like the rest of a word.
-/

namespace CodeAtlas.Script

open Text

/-! ## Numbers -/

def isWordPart (c : Char) : Bool :=
  isAsciiWord c || 128 ≤ c.toNat

def beginsWord (c : Char) : Bool :=
  isWordPart c && !isAsciiDigit c

/-- Words that may follow a number without a gap. -/
def followers : List (List Char) :=
  ["and", "else", "for", "not", "or"].map String.toList

/-- Letters that may follow a number without a gap, whatever the word is that they begin. -/
def followerStarts : List (List Char) :=
  ["if", "in", "is"].map String.toList

/-- Whether a text may follow a number without a gap although it begins with a letter. -/
def mayFollowNumber (rest : List Char) : Bool :=
  followerStarts.any (·.isPrefixOf rest) ||
    followers.any fun w => w.isPrefixOf rest && !(rest.drop w.length).head?.any isWordPart

/-- A number of some kind, if what follows lets it end. -/
def endNumber (kind : String) (taken rest : List Char) : Except String (List Char × List Char) :=
  if mayFollowNumber rest then .ok (taken, rest)
  else if rest.head?.any isWordPart then .error s!"invalid {kind} literal"
  else .ok (taken, rest)

/-- Decimal digits, with single underscores between digits. -/
def decimalTail : List Char → Except String (List Char × List Char)
  | '_' :: c :: rest =>
    if isAsciiDigit c then do
      let (taken, rest) ← decimalTail rest
      return ('_' :: c :: taken, rest)
    else .error "invalid decimal literal"
  | c :: rest =>
    if isAsciiDigit c then do
      let (taken, rest) ← decimalTail rest
      return (c :: taken, rest)
    else return ([], c :: rest)
  | [] => return ([], [])

/-- The wording for a character that is no digit of a number with a letter for its base. -/
def badDigit (kind : String) (c : Char) : String :=
  if isAsciiDigit c then s!"invalid digit '{c}' in {kind} literal"
  else s!"invalid {kind} literal"

/-- Digits after the letter for the base, with a single underscore before any run of them. -/
def basedTail (kind : String) (accepts : Char → Bool) :
    (needsDigit : Bool) → List Char → Except String (List Char × List Char)
  | _, '_' :: c :: rest =>
    if accepts c then do
      let (taken, rest) ← basedTail kind accepts false rest
      return ('_' :: c :: taken, rest)
    else .error (badDigit kind c)
  | needsDigit, c :: rest =>
    if accepts c then do
      let (taken, rest) ← basedTail kind accepts false rest
      return (c :: taken, rest)
    else if needsDigit || isAsciiDigit c then .error (badDigit kind c)
    else endNumber kind [] (c :: rest)
  | _, [] => return ([], [])

/-- What may follow the digits of a decimal number: an exponent, the imaginary unit. -/
def numberEnd (taken : List Char) : List Char → Except String (List Char × List Char)
  | e :: rest =>
    if e == 'e' || e == 'E' then do
      let signs := rest.takeWhile fun c => c == '+' || c == '-'
      let sign := signs.take 1
      let after := rest.drop sign.length
      if after.head?.any isAsciiDigit then
        let (digits, rest) ← decimalTail after
        finish (taken ++ e :: sign ++ digits) rest
      else if sign.isEmpty then endNumber "decimal" taken (e :: rest)
      else .error "invalid decimal literal"
    else finish taken (e :: rest)
  | [] => .ok (taken, [])
where
  /-- The end of a number after its exponent. -/
  finish (taken : List Char) : List Char → Except String (List Char × List Char)
    | c :: rest =>
      if c == 'j' || c == 'J' then endNumber "imaginary" (taken ++ [c]) rest
      else endNumber "decimal" taken (c :: rest)
    | [] => .ok (taken, [])

/-- A decimal fraction after its point, and what may follow it. -/
def fraction (taken rest : List Char) : Except String (List Char × List Char) := do
  let (digits, rest) ←
    if rest.head?.any isAsciiDigit then decimalTail rest else pure ([], rest)
  numberEnd (taken ++ digits) rest

/-- The wording for a decimal integer that starts with a zero and is not zero. -/
def leadingZeros : String :=
  "leading zeros in decimal integer literals are not permitted; use an 0o prefix for octal integers"

def decimalNumber (cs : List Char) : Except String (List Char × List Char) := do
  let (digits, rest) ← decimalTail cs
  match rest with
  | '.' :: rest => fraction (digits ++ ['.']) rest
  | c :: _ =>
    let goesOn := c == 'e' || c == 'E' || c == 'j' || c == 'J'
    if !goesOn && digits.head? == some '0' && digits.any (fun d => d != '0' && d != '_') then
      .error leadingZeros
    else numberEnd digits rest
  | [] => numberEnd digits rest

def isHexDigit (c : Char) : Bool :=
  isAsciiDigit c || ('a' ≤ c && c ≤ 'f') || ('A' ≤ c && c ≤ 'F')

/-- A number at the start of a text: the literal and what follows it. -/
def number : List Char → Except String (List Char × List Char)
  | '.' :: rest => fraction ['.'] rest
  | '0' :: c :: rest =>
    if c == 'x' || c == 'X' then based c rest "hexadecimal" isHexDigit
    else if c == 'o' || c == 'O' then based c rest "octal" fun d => '0' ≤ d && d < '8'
    else if c == 'b' || c == 'B' then based c rest "binary" fun d => d == '0' || d == '1'
    else decimalNumber ('0' :: c :: rest)
  | cs => decimalNumber cs
where
  /-- A number after the letter for its base. -/
  based (letter : Char) (rest : List Char) (kind : String) (accepts : Char → Bool) :
      Except String (List Char × List Char) := do
    let (digits, rest) ← basedTail kind accepts true rest
    return ('0' :: letter :: digits, rest)

/-! ## Strings -/

/-- The letters that may stand before a quotation mark, in lower case. -/
def stringMarks : List (List Char) :=
  ["b", "u", "r", "f", "br", "rb", "fr", "rf"].map String.toList

/-- The rest of a string after its opening marks, up to and with its closing marks: the characters
and what follows them. A string with one mark ends on its line; none is returned for one that is not
closed, with the number of line ends passed until that was clear. -/
def stringTail (mark : Char) (isTriple : Bool) : (lineEnds : Nat) → List Char →
    Except Nat (List Char × List Char)
  | lineEnds, '\\' :: c :: rest => do
    let (taken, rest) ← stringTail mark isTriple (if c == '\n' then lineEnds + 1 else lineEnds) rest
    return ('\\' :: c :: taken, rest)
  | lineEnds, c :: rest =>
    if c == mark then
      if !isTriple then .ok ([c], rest)
      else if rest.head? == some mark && rest.tail.head? == some mark then
        .ok ([c, c, c], rest.drop 2)
      else do
        let (taken, rest) ← stringTail mark isTriple lineEnds rest
        return (c :: taken, rest)
    else if c == '\n' && !isTriple then .error lineEnds
    else do
      let ended := if c == '\n' then lineEnds + 1 else lineEnds
      let (taken, rest) ← stringTail mark isTriple ended rest
      return (c :: taken, rest)
  -- the last character of a text is a line end, and counts to the line it ends
  | lineEnds, [] => .error (lineEnds - 1)

/-- A string that begins with a quotation mark. -/
def stringLiteral : List Char → Except (Bool × Nat) (List Char × List Char)
  | mark :: rest =>
    if rest.head? == some mark && rest.tail.head? == some mark then do
      let (taken, rest) ← (stringTail mark true 0 (rest.drop 2)).mapError (true, ·)
      return (mark :: mark :: mark :: taken, rest)
    else do
      let (taken, rest) ← (stringTail mark false 0 rest).mapError (false, ·)
      return (mark :: taken, rest)
  | [] => .error (false, 0)

/-! ## Words and signs -/

/-- The wording for a character that has no place in a module. -/
def badCharacter (c : Char) : String :=
  let code := String.ofList ((Quoted.hex 4 c.toNat).map Char.toUpper)
  if isPrintable c.toNat then s!"invalid character '{c}' (U+{code})"
  else s!"invalid non-printable character U+{code}"

/-- The first character of a word that keeps it from being an identifier. -/
def badPart? : List Char → Option Char
  | [] => none
  | c :: rest =>
    if beginsIdentifier c then rest.find? fun d => !continuesIdentifier d else some c

/-- Signs of three, of two and of one character; the longest one counts. -/
def signs : List (List Char) :=
  ["**=", "//=", "<<=", ">>=", "...", "!=", "%=", "&=", "**", "*=", "+=", "-=", "->", "//", "/=",
    ":=", "<<", "<=", "<>", "==", ">=", ">>", "@=", "^=", "|=", "%", "&", "(", ")", "*", "+", ",",
    "-", ".", "/", ":", ";", "<", "=", ">", "@", "[", "]", "^", "\x7b", "|", "\x7d",
    "~"].map String.toList

def closing : Char → Char
  | '(' => ')'
  | '[' => ']'
  | _ => '\x7d'

/-! ## Margins -/

/-- How deep a line is: with wide tabs and with narrow ones. -/
structure Depth where
  wide : Nat
  narrow : Nat
  deriving DecidableEq, Repr, Inhabited

/-- The margin of a line: its depth, the text after it, and that text's line. A margin continued on
the next line counts as far as the first backslash, if that is not at the very start. -/
def margin : (depth : Depth) → (fixed : Nat) → (line : Nat) → List Char →
    Except Trouble (Depth × Nat × List Char)
  | depth, fixed, line, ' ' :: rest =>
    margin ⟨depth.wide + 1, depth.narrow + 1⟩ fixed line rest
  | depth, fixed, line, '\t' :: rest =>
    margin ⟨(depth.wide / 8 + 1) * 8, depth.narrow + 1⟩ fixed line rest
  | _, fixed, line, '\x0c' :: rest => margin ⟨0, 0⟩ fixed line rest
  | depth, fixed, line, '\\' :: '\n' :: rest =>
    if rest.isEmpty then .error (.cutShort line)
    else margin depth (if fixed = 0 then depth.wide else fixed) (line + 1) rest
  | _, _, line, '\\' :: _ :: _ =>
    .error (.layout ⟨"unexpected character after line continuation character", line⟩)
  | depth, fixed, line, rest =>
    .ok (if fixed = 0 then depth else ⟨fixed, fixed⟩, line, rest)

/-- The greatest number of blocks that may be open at once, the module itself included. -/
def blockLimit : Nat := 100

/-- The blocks that are open after a line of some depth, the innermost first, and how many were
opened and closed. -/
def adjust (line : Nat) (d : Depth) : List Depth → Except Trouble (List Depth × Nat × Nat)
  | [] => .ok ([], 0, 0)
  | top :: below =>
    if d.wide = top.wide then
      if d.narrow = top.narrow then .ok (top :: below, 0, 0) else .error unclear
    else if top.wide < d.wide then
      if blockLimit ≤ (top :: below).length then
        .error (.layout ⟨"too many levels of indentation", line⟩)
      else if d.narrow ≤ top.narrow then .error unclear
      else .ok (d :: top :: below, 1, 0)
    else
      let remaining := (top :: below).dropWhile fun b => d.wide < b.wide
      match remaining with
      | b :: _ =>
        if d.wide != b.wide then
          .error (.layout ⟨"unindent does not match any outer indentation level", line⟩)
        else if d.narrow != b.narrow then .error unclear
        else .ok (remaining, 0, (top :: below).length - remaining.length)
      | [] => .error unclear
where
  /-- The trouble when the two measures disagree. -/
  unclear : Trouble := .layout ⟨"inconsistent use of tabs and spaces in indentation", line⟩

/-! ## The whole text -/

/-- The state of the scan: the line of the next character, the open blocks and brackets, and the
tokens so far. -/
structure Scan where
  line : Nat
  blocks : List Depth
  opened : List Opening
  tokens : Array Token
  deriving Inhabited

namespace Scan

def push (s : Scan) (kind : TokenKind) (text : String) (line : Nat) : Scan :=
  { s with tokens := s.tokens.push ⟨kind, text, line, s.opened.length⟩ }

def stop (s : Scan) (t : Trouble) : Words :=
  ⟨s.tokens, some (t, s.opened)⟩

def reject (s : Scan) (message : String) : Words :=
  s.stop (.word ⟨message, s.line⟩)

/-- Repeats a token without text. -/
def pushMany (s : Scan) (kind : TokenKind) (line : Nat) : Nat → Scan
  | 0 => s
  | n + 1 => (s.push kind "" line).pushMany kind line n

/-- The greatest number of brackets that may be open at once. -/
def bracketLimit : Nat := 200

/-- Adds a sign, and keeps account of brackets. -/
def pushSign (s : Scan) (sign : List Char) : Except String Scan :=
  let add (s : Scan) := s.push .operator (String.ofList sign) s.line
  match sign with
  | [c] =>
    if c == '(' || c == '[' || c == '\x7b' then
      if bracketLimit ≤ s.opened.length then .error "too many nested parentheses"
      else .ok (add { s with opened := (c, s.line) :: s.opened })
    else if c == ')' || c == ']' || c == '\x7d' then
      match s.opened with
      | [] => .error s!"unmatched '{c}'"
      | (o, line) :: below =>
        if closing o == c then .ok (add { s with opened := below })
        else if line = s.line then
          .error s!"closing parenthesis '{c}' does not match opening parenthesis '{o}'"
        else
          .error (s!"closing parenthesis '{c}' does not match opening parenthesis '{o}' " ++
            s!"on line {line}")
    else .ok (add s)
  | _ => .ok (add s)

def lineEnds (cs : List Char) : Nat :=
  cs.count '\n'

/-- The words of a text that ends with a line end, where `atStart` says whether a line starts here.
Every step but the one over a margin takes a character, so twice the length bounds their number. -/
def run : (fuel : Nat) → (atStart : Bool) → Scan → List Char → Words
  | 0, _, s, _ => ⟨s.tokens, none⟩
  | fuel + 1, true, s, cs =>
    match margin ⟨0, 0⟩ 0 s.line cs with
    | .error t => s.stop t
    | .ok (depth, line, rest) =>
      let s := { s with line := line }
      let here := if rest.isEmpty then line - 1 else line
      if rest.head? == some '#' || rest.head? == some '\n' then
        run fuel true { s with line := line + 1 } ((rest.dropWhile (· != '\n')).drop 1)
      else if !s.opened.isEmpty then run fuel false s rest
      else
        match adjust here depth s.blocks with
        | .error t => s.stop t
        | .ok (blocks, opening, closed) =>
          let s := { s with blocks := blocks }
          run fuel false ((s.pushMany .indent here opening).pushMany .dedent here closed) rest
  | fuel + 1, false, s, cs =>
    match cs.dropWhile fun c => c == ' ' || c == '\t' || c == '\x0c' with
    | [] =>
      if s.opened.isEmpty then ⟨(s.push .finish "" (s.line - 1)).tokens, none⟩
      else s.stop (.cutShort (s.line - 1))
    | '\n' :: rest => run fuel true (endLine s) rest
    | '#' :: rest => run fuel true (endLine s) ((rest.dropWhile (· != '\n')).drop 1)
    | '\\' :: '\n' :: rest =>
      if rest.isEmpty then s.stop (.cutShort s.line)
      else run fuel false { s with line := s.line + 1 } rest
    | '\\' :: _ =>
      s.stop (.layout ⟨"unexpected character after line continuation character", s.line⟩)
    | c :: rest =>
      if beginsWord c then
        let word := (c :: rest).takeWhile isWordPart
        let after := (c :: rest).dropWhile isWordPart
        let isQuote := after.head? == some '"' || after.head? == some '\''
        if isQuote && stringMarks.contains (word.map Char.toLower) then
          string fuel s word after
        else
          match if word.any (128 ≤ ·.toNat) then badPart? word else none with
          | some bad => s.reject (badCharacter bad)
          | none =>
            let text := String.ofList word
            run fuel false (s.push (if keywords.contains text then .keyword else .name) text s.line)
              after
      else if isAsciiDigit c || (c == '.' && rest.head?.any isAsciiDigit) then
        match number (c :: rest) with
        | .error message => s.reject message
        | .ok (taken, rest) => run fuel false (s.push .number (String.ofList taken) s.line) rest
      else if c == '"' || c == '\'' then string fuel s [] (c :: rest)
      else
        match signs.find? (·.isPrefixOf (c :: rest)) with
        | some sign =>
          match s.pushSign sign with
          | .error message => s.reject message
          | .ok s => run fuel false s (rest.drop (sign.length - 1))
        | none =>
          if isPrintable c.toNat then
            run fuel false (s.push .stray (String.ofList [c]) s.line) rest
          else s.reject (badCharacter c)
where
  /-- Ends a line: outside brackets that is a token. -/
  endLine (s : Scan) : Scan :=
    let s := if s.opened.isEmpty then s.push .newline "" s.line else s
    { s with line := s.line + 1 }
  /-- Takes a string with the letters before it. -/
  string (fuel : Nat) (s : Scan) (letters : List Char) (cs : List Char) : Words :=
    match stringLiteral cs with
    | .error (isTriple, lineEnds) =>
      s.reject ((if isTriple then "unterminated triple-quoted string literal"
        else "unterminated string literal") ++ s!" (detected at line {s.line + lineEnds})")
    | .ok (taken, rest) =>
      let s' := s.push .string (String.ofList (letters ++ taken)) s.line
      run fuel false { s' with line := s.line + lineEnds taken } rest

end Scan

/-- The words of a text whose first line has a number. A line end is added if the last line has
none. -/
def wordsFrom (line : Nat) (text : List Char) : Words :=
  let text := if text.getLast? == some '\n' then text else text ++ ['\n']
  Scan.run (2 * text.length + 2) true ⟨line, [⟨0, 0⟩], [], #[]⟩ text

end CodeAtlas.Script
