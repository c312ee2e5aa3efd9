import CodeAtlas.Graph
import CodeAtlas.Proofs.Act

/-!
# The order in which the graph is searched

The nodes of a project are collected by loops within loops. They ask what a search in depth asks,
which keeps the questions that are open: it asks the first of them, puts those that arise from the
answer before the others, and goes on (`Search`). Each loop asks what the search does with the
questions of its nodes (`Explores.loop`), so all of them together ask what the search does that
begins with the question for files.
-/

open List

namespace CodeAtlas.Graph

open Act

/-- Questions that are open; for some the name or the path is lacking. -/
abbrev Pending := List (Except Json.AccessError Question)

/-- What is asked and what is received, in order. -/
abbrev Trace := List (Question × List Json)

namespace Question

/-- The questions that arise from the nodes of an answer. -/
def follow : Question → List Json → Pending
  | files, nodes => nodes.map fun n => (n.field "filePath").map classes
  | classes _, nodes => nodes.map fun n => (n.field "name").map methods
  | methods className, nodes => nodes.map fun n => (n.field "name").map (calls className)
  | calls _ _, _ => []

/-- The kind of the nodes that answer a question. -/
def kind : Question → String
  | files => "File"
  | classes _ => "Class"
  | methods _ => "Method"
  | calls _ _ => "target"

end Question

variable {project : Json} {s : Services}

/-- A search in depth with what it asks and receives, and how it ends. The number says how much was
asked before. -/
inductive Search (project : Json) (s : Services) :
    Nat → Pending → Trace → Except Failure Unit → Prop where
  | done {n : Nat} : Search project s n [] [] (.ok ())
  | lacking {n : Nat} {others : Pending} {why : Json.AccessError} :
      Search project s n (.error why :: others) [] (.error (.access why))
  | failed {n : Nat} {q : Question} {others : Pending} {why : String} :
      s.graph n (q.query project) = .error why →
      Search project s n (.ok q :: others) [(q, [])] (.error (.service why))
  | answered {n : Nat} {q : Question} {others : Pending} {nodes : List Json} {trace : Trace}
      {out : Except Failure Unit} : s.graph n (q.query project) = .ok nodes →
      Search project s (n + 1) (q.follow nodes ++ others) trace out →
      Search project s n (.ok q :: others) ((q, nodes) :: trace) out

namespace Search

variable {n : Nat} {pending : Pending} {trace : Trace} {out : Except Failure Unit}

/-- A `Search` that comes to its end goes on with the questions behind. -/
theorem append {others : Pending} {trace' : Trace} (h : Search project s n pending trace (.ok ()))
    (h' : Search project s (n + trace.length) others trace' out) :
    Search project s n (pending ++ others) (trace ++ trace') out := by
  generalize hok : Except.ok () = ended at h
  induction h with
  | done => exact h'
  | lacking | failed => cases hok
  | answered hreply _ ih =>
    rw [cons_append, cons_append]
    refine .answered hreply ?_
    rw [← append_assoc]
    exact ih (by rwa [Nat.add_assoc, Nat.add_comm 1, ← length_cons]) hok

theorem append_error {why : Failure} (h : Search project s n pending trace (.error why))
    (others : Pending) : Search project s n (pending ++ others) trace (.error why) := by
  generalize herror : Except.error why = ended at h ⊢
  induction h with
  | done => cases herror
  | lacking => exact .lacking
  | failed hreply => exact .failed hreply
  | answered hreply _ ih =>
    rw [cons_append]
    refine .answered hreply ?_
    rw [← append_assoc]
    exact ih herror

end Search

/-! ## The loops -/

/-- The desk after the questions of a trace. -/
def asked (project : Json) (d : Desk) (trace : Trace) : Desk :=
  { d with record := { d.record with
      lookups := d.record.lookups ++ (trace.map Prod.fst).map (Question.query project) } }

/-- An act asks what the search for some questions asks, and yields all that is received. -/
def Explores (project : Json) (s : Services) (p : Act (List Json)) (pending : Pending) : Prop :=
  ∀ d : Desk, ∃ trace out, Search project s d.record.lookups.length pending trace out ∧
    p s d = (out.map fun _ => (trace.map Prod.snd).flatten, asked project d trace)

namespace Explores

theorem access {r : Except Json.AccessError Json} {p : Json → Act (List Json)}
    {question : Json → Question} (h : ∀ v, Explores project s (p v) [.ok (question v)]) :
    Explores project s (Act.access r >>= p) [r.map question] := by
  intro d
  cases r with
  | error why => exact ⟨[], _, .lacking, by simp [Act.access, asked, Except.map]⟩
  | ok v => exact h v d

theorem calls (className method : Json) :
    Explores project s (Graph.calls project className method) [.ok (.calls className method)] := by
  intro d
  have hrun := lookup_apply ((Question.calls className method).query project) s d
  cases hreply : s.graph d.record.lookups.length ((Question.calls className method).query project) with
  | error why =>
    rw [hreply] at hrun
    exact ⟨_, _, .failed hreply, hrun⟩
  | ok nodes =>
    rw [hreply] at hrun
    refine ⟨_, _, .answered hreply .done, hrun.trans ?_⟩
    simp [Except.mapError, Except.map, asked]

variable {f : Json → Act (List Json)} {arising : Json → Except Json.AccessError Question}

/-- A loop over nodes asks what arises from them, one after the other. -/
theorem loop (h : ∀ node, Explores project s (f node) [arising node]) (nodes : List Json)
    (parts : List (List Json)) (d : Desk) :
    ∃ trace out more, Search project s d.record.lookups.length (nodes.map arising) trace out ∧
      more.flatten = (trace.map Prod.snd).flatten ∧
      mapM.loop f nodes parts s d = (out.map fun _ => parts.reverse ++ more,
        asked project d trace) := by
  induction nodes generalizing parts d with
  | nil => exact ⟨[], _, [], .done, rfl, by simp [mapM.loop, asked, Except.map]⟩
  | cons node nodes ih =>
    obtain ⟨trace, out, hsearch, hrun⟩ := h node d
    rw [mapM.loop, bind_apply, hrun]
    cases out with
    | error why => exact ⟨trace, _, _, hsearch.append_error _, rfl, rfl⟩
    | ok =>
      obtain ⟨trace', out, more, hsearch', hmore, hrun'⟩ :=
        ih ((trace.map Prod.snd).flatten :: parts) (asked project d trace)
      refine ⟨trace ++ trace', out, (trace.map Prod.snd).flatten :: more, hsearch.append ?_, ?_, ?_⟩
      · simpa [asked] using hsearch'
      · simp [hmore]
      · refine hrun'.trans ?_
        simp [asked]

/-- A question and a loop over the nodes that answer it. -/
theorem ask {q : Question} (h : ∀ node, Explores project s (f node) [arising node])
    (hfollow : ∀ nodes, q.follow nodes = nodes.map arising) :
    Explores project s (lookup (q.query project) >>= fun found =>
      found.mapM f >>= fun parts => pure (found ++ parts.flatten)) [.ok q] := by
  intro d
  rw [bind_apply, lookup_apply]
  cases hreply : s.graph d.record.lookups.length (q.query project) with
  | error why => exact ⟨_, _, .failed hreply, rfl⟩
  | ok nodes =>
    obtain ⟨trace, out, more, hsearch, hmore, hrun⟩ := loop h nodes [] (asked project d [(q, nodes)])
    refine ⟨(q, nodes) :: trace, out, .answered hreply ?_, ?_⟩
    · rw [hfollow, append_nil]
      simpa [asked] using hsearch
    · change (nodes.mapM f >>= _) s (asked project d [(q, nodes)]) = _
      rw [bind_apply, mapM, hrun]
      cases out <;> simp [Except.map, asked, hmore]

theorem belowMethod (className method : Json) :
    Explores project s (Graph.belowMethod project className method)
      [(method.field "name").map (.calls className)] :=
  access (calls className)

theorem belowClass (cls : Json) :
    Explores project s (Graph.belowClass project cls) [(cls.field "name").map .methods] :=
  access fun name => ask (q := .methods name) (belowMethod name) fun _ => rfl

theorem belowFile (file : Json) :
    Explores project s (Graph.belowFile project file) [(file.field "filePath").map .classes] :=
  access fun path => ask (q := .classes path) belowClass fun _ => rfl

theorem nodes : Explores project s (Graph.nodes project) [.ok .files] :=
  ask (q := .files) belowFile fun _ => rfl

end Explores

end CodeAtlas.Graph
