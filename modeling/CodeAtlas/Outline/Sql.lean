import CodeAtlas.Outline.Basic

/-!
# SQL outlines

Counts of statements, tables with their columns and keys, views, routines and a few queries.
Keywords are read in any case. The comments of a script are not looked for: they are supplied from
outside.
-/

namespace CodeAtlas.Sql

open Pattern Outline Text

/-- How often each kind of statement occurs. -/
structure Counts where
  selects : Nat
  inserts : Nat
  updates : Nat
  deletes : Nat
  deriving DecidableEq, Repr

/-- A column with its type and what follows it. -/
structure Column where
  name : String
  type : String
  constraints : String
  deriving DecidableEq, Repr

/-- A column that refers to a column of another table. -/
structure ForeignKey where
  column : String
  refTable : String
  refColumn : String
  deriving DecidableEq, Repr

structure Table where
  schema : Option String
  name : String
  columns : List Column
  primaryKeys : List String
  foreignKeys : List ForeignKey
  deriving DecidableEq, Repr

structure View where
  name : String
  definition : String
  deriving DecidableEq, Repr

structure Routine where
  name : String
  params : List String
  returns : Option String
  deriving DecidableEq, Repr

structure Outline where
  counts : Counts
  tables : List Table
  views : List View
  routines : List Routine
  queries : List String
  deriving DecidableEq, Repr

/-! ## Pieces of patterns -/

/-- Keywords in any case, with white space between them. -/
def keywords : List String → Pattern
  | [] => nothing
  | [w] => litAnyCase w
  | w :: ws => litAnyCase w ++ blanks1 ++ keywords ws

/-- The end of the text, or the place before a line feed that ends it. -/
def finalPlace : Pattern :=
  textEnd ||| ahead (lit "\n" ++ textEnd)

/-- A pattern that may stand in backticks, each of which may be missing. -/
def ticked (p : Pattern) : Pattern :=
  opt (lit "`") ++ p ++ opt (lit "`")

def statementEnd : Pattern :=
  lit ";" ||| finalPlace

/-- The clause `IF NOT EXISTS` with white space after it. -/
def ifNotExists : Pattern :=
  opt (keywords ["IF", "NOT", "EXISTS"] ++ blanks1)

/-! ## Counts -/

/-- How often a keyword occurs as a word. -/
def countWord (keyword : String) (code : List Char) : Nat :=
  ((wordEdge ++ litAnyCase keyword ++ wordEdge).findAll code).length

def counts (code : List Char) : Counts :=
  ⟨countWord "SELECT" code, countWord "INSERT" code, countWord "UPDATE" code,
    countWord "DELETE" code⟩

/-! ## Tables -/

/-- A table: schema, name and body are groups 1 to 3. -/
def tablePattern : Pattern :=
  keywords ["CREATE", "TABLE"] ++ blanks1 ++ ifNotExists ++
    opt (ticked (group 1 (many1 isWord)) ++ lit ".") ++ ticked (group 2 (many1 isWord)) ++
    blanks ++ lit "(" ++ group 3 (fewest anyChar) ++ lit ")" ++ blanks ++ statementEnd

/-- A comma after which no closing parenthesis comes before an opening one. -/
def partSeparator : Pattern :=
  lit "," ++ blanks ++ notAhead (many (notAmong "()") ++ lit ")")

/-- Characters of a column type, letters in any case. -/
def isTypeChar (c : Char) : Bool :=
  isAsciiWord (foldCase c) || c == '(' || c == ')'

/-- A column: name, type and the rest of the line are groups 1 to 3. -/
def columnPattern : Pattern :=
  ticked (group 1 (many1 isWord)) ++ blanks1 ++ group 2 (many1 isTypeChar) ++ blanks ++
    group 3 (many inLine) ++ finalPlace

def primaryKeyPattern : Pattern :=
  keywords ["PRIMARY", "KEY"]

/-- A reference within a column: table and column are groups 1 and 2. -/
def referencePattern : Pattern :=
  litAnyCase "REFERENCES" ++ blanks1 ++ ticked (group 1 (many1 isWord)) ++ blanks ++ lit "(" ++
    ticked (group 2 (many1 isWord)) ++ lit ")"

/-- A list in parentheses, which is the group given. -/
def nameList (index : Nat) : Pattern :=
  lit "(" ++ group index (many1 (notAmong ")")) ++ lit ")"

/-- A primary key of a table; its columns are group 1. -/
def tablePrimaryPattern : Pattern :=
  primaryKeyPattern ++ blanks ++ nameList 1

/-- A foreign key of a table: columns, table and referenced columns are groups 1 to 3. -/
def tableForeignPattern : Pattern :=
  keywords ["FOREIGN", "KEY"] ++ blanks ++ nameList 1 ++ blanks ++ litAnyCase "REFERENCES" ++
    blanks1 ++ ticked (group 2 (many1 isWord)) ++ blanks ++ nameList 3

/-- The names in a list, without white space and backticks around them. -/
def names (text : List Char) : List String :=
  (splitAt ',' text).map fun n =>
    String.ofList (trimBoth (· == '`') (trim n))

/-- One part of a table's body, read: a column with its keys, or keys only. -/
structure Part where
  column : Option Column
  primaryKeys : List String
  foreignKeys : List ForeignKey
  deriving DecidableEq, Repr

def columnPart (m : Match) : Part :=
  let name := String.ofList (m.group 1)
  let rest := m.group 3
  { column := some ⟨name, String.ofList (m.group 2), String.ofList (trim rest)⟩
    primaryKeys := if (primaryKeyPattern.find? rest).isSome then [name] else []
    foreignKeys := match referencePattern.find? rest with
      | none => []
      | some r => [⟨name, String.ofList (r.group 1), String.ofList (r.group 2)⟩] }

def constraintPart (part : List Char) : Part where
  column := none
  primaryKeys := match tablePrimaryPattern.matchStart? part with
    | none => []
    | some m => names (m.group 1)
  foreignKeys := match tableForeignPattern.matchStart? part with
    | none => []
    | some m =>
      ((names (m.group 1)).zip (names (m.group 3))).map fun (column, refColumn) =>
        ⟨column, String.ofList (m.group 2), refColumn⟩

/-- Reads one part of a table's body. -/
def readPart (part : List Char) : Part :=
  match columnPattern.matchStart? part with
  | some m => columnPart m
  | none => constraintPart part

/-- A part without white space around it and commas after it. -/
def trimPart (part : List Char) : List Char :=
  ((trim part).reverse.dropWhile (· == ',')).reverse

/-- The parts of a table's body. -/
def parts (body : List Char) : List Part :=
  (partSeparator.split body).map fun part => readPart (trimPart part)

def tableOf (m : Match) : Table :=
  let ps := parts (m.group 3)
  { schema := (m.group? 1).map String.ofList
    name := String.ofList (m.group 2)
    columns := ps.filterMap Part.column
    primaryKeys := (ps.flatMap Part.primaryKeys).eraseDups
    foreignKeys := ps.flatMap Part.foreignKeys }

def tables (code : List Char) : List Table :=
  (tablePattern.findAll code).map tableOf

/-! ## Views, routines and queries -/

/-- A view: name and definition are groups 1 and 2. -/
def viewPattern : Pattern :=
  keywords ["CREATE", "VIEW"] ++ blanks1 ++ ifNotExists ++
    ticked (group 1 (many1 isDottedWord)) ++ blanks1 ++ litAnyCase "AS" ++ blanks1 ++
    group 2 (litAnyCase "SELECT" ++ fewest anyChar) ++ statementEnd

def views (code : List Char) : List View :=
  (viewPattern.findAll code).map fun m =>
    ⟨String.ofList (m.group 1), String.ofList (trim (m.group 2))⟩

/-- A routine: name, parameters and result are groups 1 to 3. -/
def routinePattern : Pattern :=
  litAnyCase "CREATE" ++ blanks1 ++ opt (keywords ["OR", "REPLACE"] ++ blanks1) ++
    oneOf [litAnyCase "FUNCTION", litAnyCase "PROCEDURE"] ++ blanks1 ++
    ticked (group 1 (many1 isDottedWord)) ++ blanks ++ parenthesised 2 ++ blanks ++
    opt (group 3 (litAnyCase "RETURNS" ++ blanks1 ++ many1 fun c => !isBlank c)) ++ blanks ++
    group 4 (oneOf (["AS", "LANGUAGE", "BEGIN"].map litAnyCase))

def routines (code : List Char) : List Routine :=
  (routinePattern.findAll code).map fun m =>
    ⟨String.ofList (m.group 1), paramList (m.group 2), (m.group? 3).map String.ofList⟩

/-- A query up to the name of its source, within three hundred characters. -/
def queryPattern : Pattern :=
  litAnyCase "SELECT" ++ span anyChar 1 (some 300) false ++ litAnyCase "FROM" ++ blanks1 ++
    many1 isDottedWord

/-- The first three queries of a text. -/
def queries (code : List Char) : List String :=
  ((queryPattern.collectAll code).take 3).map fun q => String.ofList (trim q)

def outline (code : List Char) : Outline where
  counts := counts code
  tables := tables code
  views := views code
  routines := routines code
  queries := queries code

/-! ## JSON values -/

def Counts.toJson (c : Counts) : Json :=
  .object [("selects", .int c.selects), ("inserts", .int c.inserts), ("updates", .int c.updates),
    ("deletes", .int c.deletes)]

def Column.toJson (c : Column) : Json :=
  .object [("name", .text c.name), ("type", .text c.type), ("constraints", .text c.constraints)]

def ForeignKey.toJson (k : ForeignKey) : Json :=
  .object [("column", .text k.column), ("ref_table", .text k.refTable),
    ("ref_column", .text k.refColumn)]

def Table.toJson (t : Table) : Json :=
  .object [("schema", .ofOption t.schema), ("name", .text t.name),
    ("columns", .array (t.columns.map Column.toJson)), ("primary_keys", .texts t.primaryKeys),
    ("foreign_keys", .array (t.foreignKeys.map ForeignKey.toJson))]

def View.toJson (v : View) : Json :=
  .object [("name", .text v.name), ("definition", .text v.definition)]

def Routine.toJson (r : Routine) : Json :=
  .object [("name", .text r.name), ("params", .texts r.params), ("returns", .ofOption r.returns)]

/-- The outline as the fields of a JSON object, with the comments supplied from outside. -/
def Outline.fields (o : Outline) (single block : List Json) : List (String × Json) :=
  [("counts", o.counts.toJson), ("tables", .array (o.tables.map Table.toJson)),
    ("views", .array (o.views.map View.toJson)),
    ("functions", .array (o.routines.map Routine.toJson)), ("select_examples", .texts o.queries),
    ("comments", .object [("single_line", .array single), ("block", .array block)])]

end CodeAtlas.Sql
