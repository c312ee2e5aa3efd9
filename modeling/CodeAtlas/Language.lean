import CodeAtlas.Files.Path

/-!
# Languages

The languages that have an outline of their own, and how a path tells them: by the extension of its
last component, in any case.
-/

namespace CodeAtlas

/-- A language with an outline of its own. -/
inductive Language where
  | python
  | java
  | javaScript
  | typeScript
  | go
  | ruby
  | kotlin
  | rust
  | cpp
  | c
  | cSharp
  | php
  | swift
  | objectiveC
  | sql
  deriving DecidableEq, Repr, Inhabited

namespace Language

def name : Language → String
  | .python => "python"
  | .java => "java"
  | .javaScript => "javascript"
  | .typeScript => "typescript"
  | .go => "go"
  | .ruby => "ruby"
  | .kotlin => "kotlin"
  | .rust => "rust"
  | .cpp => "cpp"
  | .c => "c"
  | .cSharp => "csharp"
  | .php => "php"
  | .swift => "swift"
  | .objectiveC => "objectivec"
  | .sql => "sql"

def extension : Language → String
  | .python => "py"
  | .java => "java"
  | .javaScript => "js"
  | .typeScript => "ts"
  | .go => "go"
  | .ruby => "rb"
  | .kotlin => "kt"
  | .rust => "rs"
  | .cpp => "cpp"
  | .c => "c"
  | .cSharp => "cs"
  | .php => "php"
  | .swift => "swift"
  | .objectiveC => "m"
  | .sql => "sql"

def all : List Language :=
  [.python, .java, .javaScript, .typeScript, .go, .ruby, .kotlin, .rust, .cpp, .c, .cSharp, .php,
    .swift, .objectiveC, .sql]

def ofName? (name : String) : Option Language :=
  all.find? (·.name == name)

/-- By the extension alone. -/
def detect? (path : String) : Option Language :=
  all.find? (·.extension == Path.extension path)

end Language

end CodeAtlas
