import CodeAtlas.Json.Basic
import CodeAtlas.Number.Numeral
import CodeAtlas.Text.Quoted

/-!
# Access to JSON values

Taking fields, items and numbers from values whose shape is not known beforehand, and what goes
wrong when the shape is another one.
-/

namespace CodeAtlas.Json

def kindName : Json → String
  | .null => "NoneType"
  | .bool _ => "bool"
  | .int _ => "int"
  | .number _ => "float"
  | .text _ => "str"
  | .array _ => "list"
  | .object _ => "dict"

/-- Why something cannot be taken from a value. -/
inductive AccessError where
  | missing (key : String)
  /-- An object has no item by number. -/
  | missingItem (index : Nat)
  | fieldOfList
  | fieldOfText
  /-- A value of this kind has neither fields nor items. -/
  | noParts (kind : String)
  | listEnd
  | textEnd
  | noContainer (kind : String)
  | noLength (kind : String)
  | noElements (kind : String)
  | noNumber (kind : String)
  /-- A number is too great to be whole. -/
  | infinite
  | noDifference (kind : String)
  deriving DecidableEq, Repr

def AccessError.message : AccessError → String
  | .missing key => Text.Quoted.quote key
  | .missingItem index => toString index
  | .fieldOfList => "list indices must be integers or slices, not str"
  | .fieldOfText => "string indices must be integers, not 'str'"
  | .noParts kind => s!"'{kind}' object is not subscriptable"
  | .listEnd => "list index out of range"
  | .textEnd => "string index out of range"
  | .noContainer kind => s!"argument of type '{kind}' is not iterable"
  | .noLength kind => s!"object of type '{kind}' has no len()"
  | .noElements kind => s!"'{kind}' object is not iterable"
  | .noNumber kind =>
    s!"int() argument must be a string, a bytes-like object or a real number, not '{kind}'"
  | .infinite => "cannot convert float infinity to integer"
  | .noDifference kind => s!"unsupported operand type(s) for -: '{kind}' and 'int'"

def field (key : String) : Json → Except AccessError Json
  | .object fields =>
    match fields.lookup key with
    | some v => .ok v
    | none => .error (.missing key)
  | .array _ => .error .fieldOfList
  | .text _ => .error .fieldOfText
  | other => .error (.noParts other.kindName)

def first : Json → Except AccessError Json
  | .array (v :: _) => .ok v
  | .array [] => .error .listEnd
  | .text s =>
    match s.toList with
    | c :: _ => .ok (.text c.toString)
    | [] => .error .textEnd
  | .object _ => .error (.missingItem 0)
  | other => .error (.noParts other.kindName)

/-- Whether a text is among the fields of an object or the items of a list, or occurs in a text. -/
def mentions (key : String) : Json → Except AccessError Bool
  | .object fields => .ok (fields.any (·.1 == key))
  | .array items => .ok (items.any fun v => v.same (.text key))
  | .text s => .ok (Text.occursIn key.toList s.toList)
  | other => .error (.noContainer other.kindName)

/-- The number of fields, items or characters. -/
def count : Json → Except AccessError Nat
  | .object fields => .ok fields.length
  | .array items => .ok items.length
  | .text s => .ok s.length
  | other => .error (.noLength other.kindName)

/-- The items of a list, the names of the fields of an object, or the characters of a text. -/
def elements : Json → Except AccessError (List Json)
  | .array items => .ok items
  | .object fields => .ok (fields.map fun f => .text f.1)
  | .text s => .ok (s.toList.map fun c => .text c.toString)
  | other => .error (.noElements other.kindName)

/-- The whole number that a value stands for; none if it is text, or a number, that stands for
none. -/
def whole? : Json → Except AccessError (Option Int)
  | .bool b => .ok (some (if b then 1 else 0))
  | .int n => .ok (some n)
  | .number (.infinite _) => .error .infinite
  | .number x => .ok x.truncate?
  | .text s => .ok (Numeral.value? s.toList)
  | other => .error (.noNumber other.kindName)

end CodeAtlas.Json
