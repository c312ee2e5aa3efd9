import CodeAtlas.Proofs.Changes
import CodeAtlas.Repository

/-!
# What acts do to the desk

An act is a function of the services and the desk, so it is opened step by step: each primitive in
front of a bind has a lemma that says which desk the rest starts from. Acts that only ask services
or print are `Quiet`, and so is what is made of quiet acts (`Quiet.bind`).
-/

namespace CodeAtlas.Act

variable {α β : Type}

/-! ## Opening binds -/

variable (p : Act α) (f : α → Act β)

theorem bind_apply (s : Services) (d : Desk) :
    (p >>= f) s d =
      match p s d with
      | (.ok a, d') => f a s d'
      | (.error e, d') => (.error e, d') := rfl

theorem bind_of_ok {p : Act α} {s : Services} {d d' : Desk} {a : α} (h : p s d = (.ok a, d'))
    (f : α → Act β) : (p >>= f) s d = f a s d' := by
  rw [bind_apply, h]

theorem bind_assoc {γ : Type} (g : β → Act γ) : (p >>= f) >>= g = p >>= fun a => f a >>= g := by
  funext s d
  rw [bind_apply, bind_apply, bind_apply]
  obtain ⟨result, d'⟩ := p s d
  cases result <;> rfl

/-- A bind ends where its first act fails, or goes on with what that act yields. -/
theorem bind_cases (s : Services) (d : Desk) :
    (∃ e, (p s d).1 = .error e ∧ (p >>= f) s d = (.error e, (p s d).2)) ∨
      ∃ a, (p s d).1 = .ok a ∧ (p >>= f) s d = f a s (p s d).2 := by
  rw [bind_apply]
  obtain ⟨result, d'⟩ := p s d
  cases result with
  | error e => exact .inl ⟨e, rfl, rfl⟩
  | ok a => exact .inr ⟨a, rfl, rfl⟩

@[simp] theorem pure_apply (a : α) (s : Services) (d : Desk) :
    (pure a : Act α) s d = (.ok a, d) := rfl

@[simp] theorem desk_bind (f : Desk → Act β) (s : Services) (d : Desk) :
    (desk >>= f) s d = f d s d := rfl

@[simp] theorem services_bind (f : Services → Act β) (s : Services) (d : Desk) :
    (services >>= f) s d = f s s d := rfl

@[simp] theorem change_bind (g : Desk → Desk) (f : Unit → Act β) (s : Services) (d : Desk) :
    (change g >>= f) s d = f () s (g d) := rfl

@[simp] theorem ofExcept_ok_bind {ε : Type} (cause : ε → Failure) (a : α) (f : α → Act β)
    (s : Services) (d : Desk) : (ofExcept cause (.ok a) >>= f) s d = f a s d := rfl

@[simp] theorem ofExcept_error_bind {ε : Type} (cause : ε → Failure) (e : ε) (f : α → Act β)
    (s : Services) (d : Desk) : (ofExcept cause (.error e) >>= f) s d = (.error (cause e), d) := rfl

/-! ## What services answer -/

theorem query_apply (q : Query) (s : Services) (d : Desk) : query q s d =
      ((s.database d.record.queries.length q).mapError .service,
        { d with record := { d.record with queries := d.record.queries ++ [q] } }) := rfl

theorem lookup_apply (q : GraphQuery) (s : Services) (d : Desk) : lookup q s d =
      ((s.graph d.record.lookups.length q).mapError .service,
        { d with record := { d.record with lookups := d.record.lookups ++ [q] } }) := rfl

theorem ask_apply (question : Json) (s : Services) (d : Desk) : ask question s d =
      (match s.assistant with
        | .reply text => .ok text
        | .failure _ message => .error (.service message),
        { d with record := { d.record with questions := d.record.questions ++ [question] } }) := by
  unfold ask
  rw [note, change_bind, services_bind]
  cases s.assistant <;> rfl

/-- The files after a command that git carried out or failed at. -/
def filesAfter (s : Services) (c : CopyCommand) (files : Workspace) : Workspace :=
  { files with root := (s.git c files).2 }

theorem git_apply (c : CopyCommand) (s : Services) (d : Desk) : git c s d =
      ((s.git c d.files).1.mapError .service,
        { d with
          files := filesAfter s c d.files
          record := { d.record with commands := d.record.commands ++ [c] } }) := rfl

/-! ## Quiet acts -/

/-- Nothing has changed but what was asked of services other than git, and what was printed. -/
structure Quiet (d d' : Desk) : Prop where
  files : d'.files = d.files
  projects : d'.projects = d.projects
  commands : d'.record.commands = d.record.commands

theorem Quiet.refl (d : Desk) : Quiet d d :=
  ⟨rfl, rfl, rfl⟩

theorem Quiet.trans {a b c : Desk} (hab : Quiet a b) (hbc : Quiet b c) : Quiet a c :=
  ⟨hbc.files.trans hab.files, hbc.projects.trans hab.projects, hbc.commands.trans hab.commands⟩

theorem Quiet.bind {p : Act α} {f : α → Act β} {s : Services} (hp : ∀ d, Quiet d (p s d).2)
    (hf : ∀ a d, Quiet d (f a s d).2) (d : Desk) : Quiet d ((p >>= f) s d).2 := by
  have h := hp d
  rw [bind_apply]
  generalize p s d = out at h ⊢
  obtain ⟨result, d'⟩ := out
  cases result with
  | error e => exact h
  | ok a => exact h.trans (hf a d')

theorem print_quiet (line : String) (s : Services) (d : Desk) : Quiet d (print line s d).2 :=
  ⟨rfl, rfl, rfl⟩

theorem query_quiet (q : Query) (s : Services) (d : Desk) : Quiet d (query q s d).2 :=
  ⟨rfl, rfl, rfl⟩

theorem lookup_quiet (q : GraphQuery) (s : Services) (d : Desk) : Quiet d (lookup q s d).2 :=
  ⟨rfl, rfl, rfl⟩

end CodeAtlas.Act
