import CodeAtlas.Number.Binary

/-!
# JSON values

Values whose shape is not known beforehand: rows of a database, bodies of replies, claims of a
token. Objects keep their fields in order, and setting a field that is there replaces its value
where it stands.
-/

namespace CodeAtlas

/-- A JSON value. Integers are exact, and all other numbers are binary. -/
inductive Json where
  | null
  | bool (b : Bool)
  | int (n : Int)
  | number (x : Binary)
  | text (s : String)
  | array (items : List Json)
  | object (fields : List (String × Json))
  deriving Repr, Inhabited

namespace Json

/-- Sets a field: in its place if there is one, otherwise at the end. -/
def setField {α : Type} (fields : List (String × α)) (key : String) (value : α) :
    List (String × α) :=
  match fields with
  | [] => [(key, value)]
  | (k, v) :: rest => if k = key then (k, value) :: rest else (k, v) :: setField rest key value

/-- The value of a field of an object. -/
def get? (j : Json) (key : String) : Option Json :=
  match j with
  | .object fields => fields.lookup key
  | _ => none

def texts (items : List String) : Json :=
  .array (items.map .text)

/-- A text or null. -/
def ofOption (s : Option String) : Json :=
  match s with
  | none => .null
  | some s => .text s

/-- Whether a value counts as something: null, false, zero and everything empty do not. -/
def isTruthy : Json → Bool
  | .null => false
  | .bool b => b
  | .int n => n != 0
  | .number (.finite _ m _) => m != 0
  | .number _ => true
  | .text s => s != ""
  | .array items => !items.isEmpty
  | .object fields => !fields.isEmpty

/-- The binary number or integer that a value counts as in comparisons. -/
def quantity? : Json → Option (Int ⊕ Binary)
  | .bool b => some (.inl (if b then 1 else 0))
  | .int n => some (.inl n)
  | .number x => some (.inr x)
  | _ => none

/-- Equality of numbers by value. -/
def sameQuantity : Int ⊕ Binary → Int ⊕ Binary → Bool
  | .inl a, .inl b => a == b
  | .inl a, .inr x | .inr x, .inl a => x.isInteger a
  | .inr x, .inr y => x.sameValue y

mutual

/-- Equality of values: numbers compare by value, and objects without regard to order. -/
def same : Json → Json → Bool
  | .null, .null => true
  | .text a, .text b => a == b
  | .array as, .array bs => sameItems as bs
  | .object as, .object bs => as.length == bs.length && sameFields as bs
  | a, b =>
    match quantity? a, quantity? b with
    | some x, some y => sameQuantity x y
    | _, _ => false

def sameItems : List Json → List Json → Bool
  | [], [] => true
  | a :: as, b :: bs => same a b && sameItems as bs
  | _, _ => false

/-- Every field of the first object is equal in the second. -/
def sameFields : List (String × Json) → List (String × Json) → Bool
  | [], _ => true
  | (k, v) :: rest, other =>
    match other.lookup k with
    | none => false
    | some w => same v w && sameFields rest other

end

end Json

end CodeAtlas
