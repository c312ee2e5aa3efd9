/-!
# Line endings

Files may end their lines with a line feed, a carriage return, or both; `unifyNewlines` leaves line
feeds only. `lines` cuts a text at every character that ends a line.
-/

namespace CodeAtlas.Text

/-- Writes each carriage return, with the line feed after it if there is one, as one line feed. -/
def unifyNewlines : List Char → List Char
  | [] => []
  | '\r' :: '\n' :: rest => '\n' :: unifyNewlines rest
  | c :: rest => (if c = '\r' then '\n' else c) :: unifyNewlines rest

/-- The characters that end a line: line feed, vertical tab, form feed, carriage return, the three
higher information separators, next line, line separator and paragraph separator. -/
def endsLine (c : Char) : Bool :=
  let n := c.toNat
  (0xa ≤ n && n ≤ 0xd) || (0x1c ≤ n && n ≤ 0x1e) || n == 0x85 || n == 0x2028 || n == 0x2029

/-- Collects the lines of a text; `line` holds the line begun, last character first. -/
def linesFrom (line : List Char) : List Char → List (List Char)
  | [] => if line.isEmpty then [] else [line.reverse]
  | '\r' :: '\n' :: rest => line.reverse :: linesFrom [] rest
  | c :: rest =>
    if endsLine c then line.reverse :: linesFrom [] rest else linesFrom (c :: line) rest

/-- The lines of a text without their endings; an ending at the very end opens no further line, and
a carriage return with a line feed after it is one ending. -/
def lines (text : List Char) : List (List Char) :=
  linesFrom [] text

end CodeAtlas.Text
