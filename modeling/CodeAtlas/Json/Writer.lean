import CodeAtlas.Json.Basic
import CodeAtlas.Number.Shortest
import CodeAtlas.Text.Quoted

/-!
# Writing JSON

Two ways to write a value on one line. `render` writes JSON in ASCII: what is not printable ASCII is
escaped by its UTF-16 units. `display` writes the same value for reading, with quoted texts and the
words `None`, `True` and `False`.
-/

namespace CodeAtlas.Json

def unitEscape (unit : Nat) : List Char :=
  '\\' :: 'u' :: Text.Quoted.hex 4 unit

/-- One character inside a string. -/
def escapeChar (c : Char) : List Char :=
  let n := c.toNat
  if c = '"' then ['\\', '"']
  else if c = '\\' then ['\\', '\\']
  else if c = '\n' then ['\\', 'n']
  else if c = '\r' then ['\\', 'r']
  else if c = '\t' then ['\\', 't']
  else if n = 0x0c then ['\\', 'f']
  else if n = 0x08 then ['\\', 'b']
  else if 0x20 ≤ n && n ≤ 0x7e then [c]
  else if n < 0x10000 then unitEscape n
  else unitEscape (0xd800 + (n - 0x10000) / 0x400) ++ unitEscape (0xdc00 + (n - 0x10000) % 0x400)

def renderText (s : String) : String :=
  String.ofList ('"' :: s.toList.flatMap escapeChar ++ ['"'])

def renderNumber : Binary → String
  | .nan => "NaN"
  | .infinite negative => if negative then "-Infinity" else "Infinity"
  | x => x.text Binary.plain

mutual

/-- A value as JSON, with a space after each comma and colon. -/
def render : Json → String
  | .null => "null"
  | .bool b => if b then "true" else "false"
  | .int n => toString n
  | .number x => renderNumber x
  | .text s => renderText s
  | .array items => "[" ++ ", ".intercalate (renderItems items) ++ "]"
  | .object fields => "\x7b" ++ ", ".intercalate (renderFields fields) ++ "\x7d"

def renderItems : List Json → List String
  | [] => []
  | j :: rest => render j :: renderItems rest

def renderFields : List (String × Json) → List String
  | [] => []
  | (k, v) :: rest => (renderText k ++ ": " ++ render v) :: renderFields rest

end

mutual

def display : Json → String
  | .null => "None"
  | .bool b => if b then "True" else "False"
  | .int n => toString n
  | .number x => x.text Binary.plain
  | .text s => Text.Quoted.quote s
  | .array items => "[" ++ ", ".intercalate (displayItems items) ++ "]"
  | .object fields => "\x7b" ++ ", ".intercalate (displayFields fields) ++ "\x7d"

def displayItems : List Json → List String
  | [] => []
  | j :: rest => display j :: displayItems rest

def displayFields : List (String × Json) → List String
  | [] => []
  | (k, v) :: rest => (Text.Quoted.quote k ++ ": " ++ display v) :: displayFields rest

end

/-- A value put into a sentence: a text as it is, anything else for reading. -/
def phrase : Json → String
  | .text s => s
  | j => j.display

end CodeAtlas.Json
