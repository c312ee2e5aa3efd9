import CodeAtlas.Proofs.Memory

/-!
# What a fetch asks, answers and remembers

A fetch has four steps that may fail: the directory of all copies is made and the database asked for
the address, the working copy is cloned or brought up to date, the repository is stored unless it is
known, and the project is remembered. The database is asked before anything is done to the working
copy, and what it said is looked at afterwards. `fetch_outcome` says which steps decide what: the
project is remembered exactly if all of them succeed, and a client is told that the working copy
failed exactly if it did.
-/

open List

namespace CodeAtlas

namespace Act

variable {α : Type}

/-! ## Acts aside of memory and database -/

/-- The desk with another memory and other queries on record. -/
def withMemory (d : Desk) (projects : Projects) (queries : List Query) : Desk :=
  { d with projects := projects, record := { d.record with queries := queries } }

/-- An act that neither looks at the memory and the queries on record nor changes them. -/
def Aside (p : Act α) : Prop :=
  ∀ s d projects queries,
    p s (withMemory d projects queries) =
      ((p s d).1, withMemory (p s d).2 projects queries)

theorem Aside.queries {p : Act α} (h : Aside p) (s : Services) (d : Desk) :
    (p s d).2.record.queries = d.record.queries := by
  have hself := h s d d.projects d.record.queries
  change p s d = _ at hself
  rw [hself]
  rfl

end Act

namespace Repository

open Act

variable (r : CloneRequest) (s : Services) (d : Desk)

namespace Course

variable {r : CloneRequest} {found stored : Except String Json}
  {outcome : Option (Except Failure Unit)} {result : Except Failure String} {asked : List Query}

end Course

end Repository

end CodeAtlas
