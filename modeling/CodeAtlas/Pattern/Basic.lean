import CodeAtlas.Text.Case
import CodeAtlas.Text.Word

/-!
# Patterns

A pattern describes the texts that may stand at a place of a longer text. Matching tries the ways in
which a pattern can match in a fixed order of preference (left alternatives first, eager repetitions
longest first, reluctant ones shortest first) and takes the first way after which the rest of the
pattern matches as well. `Pattern.advance` is that search: it recurses on the pattern and is handed
what has to hold afterwards as a function, so that an earlier choice is revised when a later part
fails.

Repetitions of one character class are a constructor of their own (`span`), as nearly all
repetitions are of this kind and their matches are just the stretches of the class.
-/

namespace CodeAtlas

/-- A pattern over characters. Its groups are told apart by numbers. -/
inductive Pattern where
  /-- The empty text. -/
  | nothing
  /-- One character of a class. -/
  | one (accepts : Char → Bool)
  /-- At least `least` and at most `most` characters of a class, the longest stretch first if
  `eager`, otherwise the shortest first. -/
  | span (accepts : Char → Bool) (least : Nat) (most : Option Nat) (eager : Bool)
  /-- One pattern after another. -/
  | both (first second : Pattern)
  /-- The first pattern or, if that leads nowhere, the second. -/
  | either (first second : Pattern)
  /-- At least `least` and at most `most` times a pattern that is never empty. -/
  | again (body : Pattern) (least : Nat) (most : Option Nat) (eager : Bool)
  /-- A pattern whose text is remembered under a number. -/
  | group (index : Nat) (body : Pattern)
  /-- The text that a group remembers, once more. -/
  | same (index : Nat)
  /-- The place where a pattern would match, without moving on. -/
  | ahead (body : Pattern)
  /-- The place where a pattern would not match. -/
  | notAhead (body : Pattern)
  /-- A place between two neighbours, either of which may be absent at an end of the text. -/
  | edge (holds : Option Char → Option Char → Bool)

namespace Pattern

/-- A place in a text: the character before it, how many characters precede it, and what follows. -/
structure Cursor where
  before : Option Char
  position : Nat
  rest : List Char

def Cursor.start (text : List Char) : Cursor :=
  ⟨none, 0, text⟩

/-- What a group remembers: where it began, the text from there on, and how much of it is meant. -/
structure Capture where
  start : Nat
  source : List Char
  size : Nat

def Capture.text (c : Capture) : List Char :=
  c.source.take c.size

/-- A place together with the captures made on the way, the latest first. -/
structure State where
  cursor : Cursor
  captures : List (Nat × Capture)

def State.step (s : State) (c : Char) (rest : List Char) : State :=
  ⟨⟨some c, s.cursor.position + 1, rest⟩, s.captures⟩

/-- The states after 0, 1, 2, … characters of a class, the furthest first; `passed` holds those
already found. A bound of `none` is no bound. -/
def spanStates (accepts : Char → Bool) (most : Option Nat) (before : Option Char) (position : Nat)
    (captures : List (Nat × Capture)) (rest : List Char) (passed : List State) : List State :=
  let here := State.mk ⟨before, position, rest⟩ captures :: passed
  match rest with
  | [] => here
  | c :: rest' =>
    if accepts c && most != some 0 then
      spanStates accepts (most.map (· - 1)) (some c) (position + 1) captures rest' here
    else here

/-- Exactly `count` characters of a class. -/
def takeExactly (accepts : Char → Bool) : (count : Nat) → State → Option State
  | 0, s => some s
  | count + 1, s =>
    match s.cursor.rest with
    | [] => none
    | c :: rest => if accepts c then takeExactly accepts count (s.step c rest) else none

/-- Tries `next` after 0, 1, 2, … further characters of a class, the nearest place first. -/
def spanReluctant (accepts : Char → Bool) (next : State → Option State) (most : Option Nat)
    (before : Option Char) (position : Nat) (captures : List (Nat × Capture))
    (rest : List Char) : Option State :=
  match next ⟨⟨before, position, rest⟩, captures⟩ with
  | some found => some found
  | none =>
    match rest with
    | [] => none
    | c :: rest' =>
      if accepts c && most != some 0 then
        spanReluctant accepts next (most.map (· - 1)) (some c) (position + 1) captures rest'
      else none

/-- Matches `body` exactly `count` times. -/
def times (body : (State → Option State) → State → Option State) :
    (count : Nat) → (State → Option State) → State → Option State
  | 0, next, s => next s
  | count + 1, next, s => body (times body count next) s

/-- Matches `body` up to `count` times, as often as possible first. A round that does not move on
is not taken. -/
def upToEager (body : (State → Option State) → State → Option State)
    (next : State → Option State) : (count : Nat) → State → Option State
  | 0, s => next s
  | count + 1, s =>
    match body (fun t =>
        if s.cursor.position < t.cursor.position then upToEager body next count t else none) s with
    | some found => some found
    | none => next s

/-- Matches `body` up to `count` times, as seldom as possible first. -/
def upToReluctant (body : (State → Option State) → State → Option State)
    (next : State → Option State) : (count : Nat) → State → Option State
  | 0, s => next s
  | count + 1, s =>
    match next s with
    | some found => some found
    | none =>
      body (fun t =>
        if s.cursor.position < t.cursor.position then upToReluctant body next count t else none) s

/-- Removes a text from the front of another, if it stands there. -/
def State.skip? (s : State) : List Char → Option State
  | [] => some s
  | c :: text =>
    match s.cursor.rest with
    | [] => none
    | d :: rest => if c = d then (s.step d rest).skip? text else none

/-- The first way, in order of preference, to match a pattern at a state so that `next` succeeds
where the match ends. `bound` is any number not below the length of the text: it limits repetitions
that have no limit of their own. -/
def advance (bound : Nat) : Pattern → (State → Option State) → State → Option State
  | .nothing, next, s => next s
  | .one accepts, next, s =>
    match s.cursor.rest with
    | [] => none
    | c :: rest => if accepts c then next (s.step c rest) else none
  | .span accepts least most eager, next, s =>
    match takeExactly accepts least s with
    | none => none
    | some t =>
      let more := most.map (· - least)
      if eager then
        (spanStates accepts more t.cursor.before t.cursor.position t.captures t.cursor.rest
          []).findSome? next
      else
        spanReluctant accepts next more t.cursor.before t.cursor.position t.captures t.cursor.rest
  | .both first second, next, s => advance bound first (advance bound second next) s
  | .either first second, next, s =>
    match advance bound first next s with
    | some found => some found
    | none => advance bound second next s
  | .again body least most eager, next, s =>
    let more := (most.map (· - least)).getD bound
    times (advance bound body) least
      (fun t =>
        if eager then upToEager (advance bound body) next more t
        else upToReluctant (advance bound body) next more t) s
  | .group index body, next, s =>
    advance bound body
      (fun t => next { t with
        captures := (index, ⟨s.cursor.position, s.cursor.rest,
          t.cursor.position - s.cursor.position⟩) :: t.captures }) s
  | .same index, next, s =>
    match s.captures.lookup index with
    | none => none
    | some capture =>
      match s.skip? capture.text with
      | none => none
      | some t => next t
  | .ahead body, next, s =>
    match advance bound body some s with
    | none => none
    | some t => next { s with captures := t.captures }
  | .notAhead body, next, s =>
    match advance bound body some s with
    | none => next s
    | some _ => none
  | .edge holds, next, s => if holds s.cursor.before s.cursor.rest.head? then next s else none

/-! ## Building patterns -/

instance : Append Pattern := ⟨both⟩

instance : OrOp Pattern := ⟨either⟩

def char (c : Char) : Pattern :=
  one (· == c)

/-- A text, letter by letter. -/
def ofChars : List Char → Pattern
  | [] => nothing
  | [c] => char c
  | c :: rest => both (char c) (ofChars rest)

def lit (text : String) : Pattern :=
  ofChars text.toList

/-- A character that is the given one but for case. -/
def sameBut (c d : Char) : Bool :=
  Text.foldCase d == Text.foldCase c

/-- A text, letter by letter, in any case. -/
def ofCharsAnyCase : List Char → Pattern
  | [] => nothing
  | [c] => one (sameBut c)
  | c :: rest => both (one (sameBut c)) (ofCharsAnyCase rest)

def litAnyCase (text : String) : Pattern :=
  ofCharsAnyCase text.toList

/-- The first of several patterns that leads on. -/
def oneOf : List Pattern → Pattern
  | [] => one (fun _ => false)
  | [p] => p
  | p :: ps => either p (oneOf ps)

/-- The first of several texts that leads on. -/
def anyOf (texts : List String) : Pattern :=
  oneOf (texts.map lit)

/-- Any number of characters of a class, as many as possible. -/
def many (accepts : Char → Bool) : Pattern :=
  span accepts 0 none true

/-- At least one character of a class, as many as possible. -/
def many1 (accepts : Char → Bool) : Pattern :=
  span accepts 1 none true

/-- Any number of characters of a class, as few as possible. -/
def fewest (accepts : Char → Bool) : Pattern :=
  span accepts 0 none false

/-- A pattern or nothing, preferring the pattern. -/
def opt (p : Pattern) : Pattern :=
  either p nothing

/-- Any number of repetitions, as many as possible. -/
def star (p : Pattern) : Pattern :=
  again p 0 none true

/-- Some white space. -/
def blanks1 : Pattern :=
  many1 Text.isBlank

/-- White space or none. -/
def blanks : Pattern :=
  many Text.isBlank

def lineStart : Pattern :=
  edge fun before _ => before == none || before == some '\n'

def lineEnd : Pattern :=
  edge fun _ after => after == none || after == some '\n'

def textStart : Pattern :=
  edge fun before _ => before == none

def textEnd : Pattern :=
  edge fun _ after => after == none

/-- A place where a word begins or ends. -/
def wordEdge : Pattern :=
  edge fun before after => before.any Text.isWord != after.any Text.isWord

/-! ## Character classes -/

def among (chars : String) : Char → Bool :=
  let listed := chars.toList
  fun c => listed.contains c

def notAmong (chars : String) : Char → Bool :=
  let listed := chars.toList
  fun c => !listed.contains c

def anyChar : Char → Bool :=
  fun _ => true

/-- Every character but the line feed. -/
def inLine (c : Char) : Bool :=
  c != '\n'

def isCapital (c : Char) : Bool :=
  'A' ≤ c && c ≤ 'Z'

/-- What begins an ASCII name: a letter or the underscore. -/
def beginsName (c : Char) : Bool :=
  Text.isAsciiLetter c || c == '_'

end Pattern

end CodeAtlas
