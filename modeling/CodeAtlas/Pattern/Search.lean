import CodeAtlas.Pattern.Basic

/-!
# Searching

All matches of a pattern in a text are found from left to right. A match begins at the first place
where the pattern matches at all and does not overlap the match before it. Where a match is empty,
the same place is tried once more for a match that is not.
-/

namespace CodeAtlas.Pattern

/-- A match: where it begins and ends, its text, and what its groups remember. -/
structure Match where
  start : Nat
  stop : Nat
  source : List Char
  captures : List (Nat × Capture)

def Match.text (m : Match) : List Char :=
  m.source.take (m.stop - m.start)

/-- What a group remembers, unless it took no part. -/
def Match.group? (m : Match) (index : Nat) : Option (List Char) :=
  (m.captures.lookup index).map Capture.text

/-- What a group remembers, and nothing if it took no part. -/
def Match.group (m : Match) (index : Nat) : List Char :=
  (m.group? index).getD []

/-- The match at one place, if there is one. With `nonEmpty`, empty ways to match do not count. -/
def matchAt? (p : Pattern) (bound : Nat) (nonEmpty : Bool) (c : Cursor) : Option Match :=
  (advance bound p
    (fun t => if nonEmpty && t.cursor.position == c.position then none else some t)
    ⟨c, []⟩).map fun t => ⟨c.position, t.cursor.position, c.rest, t.captures⟩

/-- The matches at one place: at most one that is empty and one that is not. -/
def matchesAt (p : Pattern) (bound : Nat) (c : Cursor) : List Match :=
  match matchAt? p bound false c with
  | none => []
  | some m =>
    if m.stop = m.start then
      match matchAt? p bound true c with
      | none => [m]
      | some m' => [m, m']
    else [m]

/-- Where searching goes on after the matches at one place. -/
def resumeAfter (resume : Nat) (found : List Match) : Nat :=
  found.foldl (fun r m => max r m.stop) resume

/-- The matches that begin at the position `resume` or later. -/
def findFrom (p : Pattern) (bound resume : Nat) (before : Option Char) (position : Nat)
    (rest : List Char) : List Match :=
  let here := if position < resume then [] else matchesAt p bound ⟨before, position, rest⟩
  match rest with
  | [] => here
  | c :: rest' =>
    here ++ findFrom p bound (resumeAfter resume here) (some c) (position + 1) rest'

def findAll (p : Pattern) (text : List Char) : List Match :=
  findFrom p text.length 0 none 0 text

/-- The first match at or after a place. -/
def firstFrom? (p : Pattern) (bound : Nat) (before : Option Char) (position : Nat)
    (rest : List Char) : Option Match :=
  match matchAt? p bound false ⟨before, position, rest⟩ with
  | some m => some m
  | none =>
    match rest with
    | [] => none
    | c :: rest' => firstFrom? p bound (some c) (position + 1) rest'

def find? (p : Pattern) (text : List Char) : Option Match :=
  firstFrom? p text.length none 0 text

def matchStart? (p : Pattern) (text : List Char) : Option Match :=
  matchAt? p text.length false (Cursor.start text)

/-- The texts of one group in all matches. -/
def collect (p : Pattern) (index : Nat) (text : List Char) : List (List Char) :=
  (findAll p text).map (·.group index)

def collectAll (p : Pattern) (text : List Char) : List (List Char) :=
  (findAll p text).map Match.text

/-- A text from `position` on with its matches, given in order, replaced. -/
def replaceFrom (replace : Match → List Char) (position : Nat) (rest : List Char) :
    List Match → List Char
  | [] => rest
  | m :: ms =>
    rest.take (m.start - position) ++ replace m ++
      replaceFrom replace m.stop (rest.drop (m.stop - position)) ms

/-- Puts something else in the place of every match. -/
def replaceAll (p : Pattern) (replace : Match → List Char) (text : List Char) : List Char :=
  replaceFrom replace 0 text (findAll p text)

def splitFrom (position : Nat) (rest : List Char) : List Match → List (List Char)
  | [] => [rest]
  | m :: ms =>
    rest.take (m.start - position) :: splitFrom m.stop (rest.drop (m.stop - position)) ms

/-- Cuts a text at every match. -/
def split (p : Pattern) (text : List Char) : List (List Char) :=
  splitFrom 0 text (findAll p text)

end CodeAtlas.Pattern
