import CodeAtlas.Proofs.Path

/-!
# The theory of directory trees

A change at one place of a tree is seen by what is at every other place: places beside it keep what
they hold, places above it keep their kind, and places below it are where the new node has them
(`at?_alter_of_beside`, `at?_alter_of_above`, `at?_alter_of_below`). A property of single nodes is
checked for a whole tree by `all`, and a change keeps it if what is put there has it (`all_alter`).
-/

open List

namespace CodeAtlas.Node

variable {name : String} {n : Node} {es : List (String × Node)}
variable {l place : List String}

/-! ## Entries -/

/-- In a directory with different names, an entry is found under its name. -/
theorem lookup_eq_some_iff_mem (h : (es.map Prod.fst).Nodup) :
    es.lookup name = some n ↔ (name, n) ∈ es := by
  induction es with
  | nil => simp
  | cons e rest ih =>
    obtain ⟨k, m⟩ := e
    rw [map_cons, nodup_cons] at h
    rw [lookup_cons, mem_cons]
    by_cases hk : name = k
    · subst hk
      have hnot : ∀ n, (name, n) ∉ rest := fun n hn => h.1 (mem_map.mpr ⟨(name, n), hn, rfl⟩)
      simp [hnot, eq_comm]
    · have hk' : (name == k) = false := by simpa using hk
      simp [hk', hk, ih h.2]

theorem lookup_putEntry_self (es : List (String × Node)) (name : String) (n : Node) :
    (putEntry es name (some n)).lookup name = some n := by
  induction es with
  | nil => simp [putEntry]
  | cons e rest ih =>
    obtain ⟨k, m⟩ := e
    by_cases hk : k = name
    · simp [putEntry, hk]
    · have hk' : (name == k) = false := by simpa using fun h => hk h.symm
      simp [putEntry, hk, lookup_cons, hk', ih]

variable {other : String} {m : Node} {isOpen : Bool} {f : Option Node → Option Node}
  {value : Option Node} {isName : String → Bool}

theorem lookup_putEntry_of_ne (es : List (String × Node)) (h : other ≠ name) (value : Option Node) :
    (putEntry es name value).lookup other = es.lookup other := by
  have hother : (other == name) = false := by simpa using h
  induction es with
  | nil =>
    cases value with
    | none => rfl
    | some v => simp [putEntry, hother, lookup_cons]
  | cons e rest ih =>
    obtain ⟨k, m⟩ := e
    by_cases hk : k = name
    · subst hk
      cases value with
      | none | some _ => simp [putEntry, lookup_cons, hother]
    · simp only [putEntry, hk, if_false, lookup_cons, ih]

/-- `putEntry` without a value removes the one entry with the name. -/
theorem lookup_putEntry_none (h : (es.map Prod.fst).Nodup) :
    (putEntry es name none).lookup name = none := by
  induction es with
  | nil => rfl
  | cons e rest ih =>
    obtain ⟨k, m⟩ := e
    rw [map_cons, nodup_cons] at h
    by_cases hk : k = name
    · subst hk
      rw [putEntry, if_pos rfl, lookup_eq_none_iff]
      intro e he
      simpa using fun hkey : k = e.1 => h.1 (mem_map.mpr ⟨e, he, hkey.symm⟩)
    · have hk' : (name == k) = false := by simpa using fun h => hk h.symm
      rw [putEntry, if_neg hk, lookup_cons, hk']
      exact ih h.2

theorem child?_setChild_of_ne (n : Node) (h : other ≠ name) (value : Option Node) :
    (n.setChild name value).child? other = n.child? other := by
  cases n with
  | file _ | link _ => rfl
  | directory o es => exact lookup_putEntry_of_ne es h value

/-- Where an entry is there to be replaced, the new one is there afterwards. -/
theorem child?_setChild_self (h : n.child? name = some m) (new : Node) :
    (n.setChild name (some new)).child? name = some new := by
  cases n with
  | file _ | link _ => exact absurd h (by simp [child?, entries])
  | directory o es => exact lookup_putEntry_self es name new

/-! ## Places -/

@[simp] theorem at?_nil (n : Node) : n.at? [] = some n := rfl

theorem at?_cons (n : Node) (name : String) (rest : List String) :
    n.at? (name :: rest) = (n.child? name).bind (·.at? rest) := by
  rw [at?]
  cases n.child? name <;> rfl

theorem at?_append (n : Node) (l r : List String) : n.at? (l ++ r) = (n.at? l).bind (·.at? r) := by
  induction l generalizing n with
  | nil => rfl
  | cons name rest ih =>
    rw [cons_append, at?_cons, at?_cons]
    cases n.child? name with
    | none => rfl
    | some c => exact ih c

/-- What is in a directory under a name is what its entry says. -/
theorem at?_concat (h : n.at? l = some (.directory isOpen es)) (name : String) :
    n.at? (l ++ [name]) = es.lookup name := by
  rw [at?_append, h, Option.bind_some, at?_cons]
  simp [child?, entries]

/-- The tree after a `change` at a place; one that leaves nothing of the root is not made. -/
def alter (f : Option Node → Option Node) (place : List String) (n : Node) : Node :=
  (change f place n).getD n

variable (f)

theorem alter_singleton (name : String) (n : Node) :
    alter f [name] n = n.setChild name (f (n.child? name)) := rfl

/-- `alter` further down changes the entry on the way, if there is one. -/
theorem alter_cons (name : String) {rest : List String} (hrest : rest ≠ []) (n : Node) :
    alter f (name :: rest) n = match n.child? name with
      | none => n
      | some c => n.setChild name (some (alter f rest c)) := by
  obtain ⟨next, more, rfl⟩ := exists_cons_of_ne_nil hrest
  have hsome : ∀ c : Node, change f (next :: more) c = some (alter f (next :: more) c) := by
    intro c
    unfold alter change
    split <;> first | rfl | simp_all
    split <;> rfl
  cases hc : n.child? name with
  | none => simp [alter, change, hc]
  | some c =>
    have : change f (name :: next :: more) n =
        some (n.setChild name (change f (next :: more) c)) := by
      rw [change]
      · simp [hc]
      · simp
    rw [alter, this, hsome c]
    rfl

/-- `alter` leaves places beside it what they held. -/
theorem at?_alter_of_beside {other : List String} (n : Node) (hbelow : ¬ place <+: other)
    (habove : ¬ other <+: place) : (alter f place n).at? other = n.at? other := by
  induction place generalizing n other with
  | nil => exact absurd nil_prefix hbelow
  | cons name rest ih =>
    cases other with
    | nil => exact absurd nil_prefix habove
    | cons name' rest' =>
      rw [at?_cons, at?_cons]
      by_cases hname : name' = name
      · subst hname
        rw [cons_prefix_cons] at hbelow habove
        have hrest : rest ≠ [] := fun h => hbelow ⟨rfl, h ▸ nil_prefix⟩
        rw [alter_cons f name' hrest]
        cases hc : n.child? name' with
        | none => simp [hc]
        | some c =>
          rw [child?_setChild_self hc]
          exact ih c (fun h => hbelow ⟨rfl, h⟩) (fun h => habove ⟨rfl, h⟩)
      · by_cases hrest : rest = []
        · rw [hrest, alter_singleton, child?_setChild_of_ne n hname]
        · rw [alter_cons f name hrest]
          cases n.child? name with
          | none => rfl
          | some c => rw [child?_setChild_of_ne n hname]

/-- Places above `alter` see it as a change further down. -/
theorem at?_alter_of_above (l : List String) {r : List String} (hr : r ≠ []) (n : Node) :
    (alter f (l ++ r) n).at? l = (n.at? l).map (alter f r) := by
  induction l generalizing n with
  | nil => rfl
  | cons name rest ih =>
    rw [cons_append, alter_cons f name (by simp [hr]), at?_cons n]
    cases hc : n.child? name with
    | none => simp [at?_cons, hc]
    | some c =>
      simp only [at?_cons, child?_setChild_self hc]
      exact ih c

variable {f} in
/-- Where something was there to `alter`, the new node and what it holds are there afterwards. -/
theorem at?_alter_of_below {old new : Node} (hold : n.at? place = some old)
    (hnew : f (some old) = some new) (r : List String) :
    (alter f place n).at? (place ++ r) = new.at? r := by
  induction place generalizing n with
  | nil =>
    have : n = old := Option.some.inj hold
    simp [alter, change, this, hnew]
  | cons name rest ih =>
    rw [at?_cons] at hold
    rw [cons_append, at?_cons]
    cases hc : n.child? name with
    | none => simp [hc] at hold
    | some c =>
      rw [hc, Option.bind_some] at hold
      by_cases hrest : rest = []
      · subst hrest
        have : c = old := Option.some.inj hold
        rw [alter_singleton, hc, this, hnew, child?_setChild_self hc]
        rfl
      · rw [alter_cons f name hrest, hc]
        simp only [child?_setChild_self hc]
        exact ih hold

/-- What `alter` makes of an entry is there afterwards, if the names of the directory are different
or the entry is not removed. -/
theorem at?_alter_concat (name : String) (f : Option Node → Option Node)
    (h : n.at? l = some (.directory isOpen es))
    (hf : (es.map Prod.fst).Nodup ∨ f (es.lookup name) ≠ none) (r : List String) :
    (alter f (l ++ [name]) n).at? (l ++ name :: r) = (f (es.lookup name)).bind (·.at? r) := by
  have habove := at?_alter_of_above f l (cons_ne_nil name []) n
  rw [h, Option.map_some, alter_singleton, setChild] at habove
  rw [at?_append, habove, Option.bind_some, at?_cons, child?, entries]
  change ((putEntry es name (f (es.lookup name))).lookup name).bind _ = _
  cases hnew : f (es.lookup name) with
  | none => rw [lookup_putEntry_none (hf.resolve_right fun hsome => hsome hnew)]
  | some new => rw [lookup_putEntry_self]

/-- `alter` removes nothing but what is at its place or below. -/
theorem isSome_at?_alter (n : Node) (h : ¬ place <+: l) :
    ((alter f place n).at? l).isSome = (n.at? l).isSome := by
  by_cases habove : l <+: place
  · obtain ⟨r, rfl⟩ := habove
    have hr : r ≠ [] := by
      intro hr
      exact h (by simp [hr])
    rw [at?_alter_of_above f l hr, Option.isSome_map]
  · rw [at?_alter_of_beside f n h habove]

variable {f}

/-! ## Properties of whole trees -/

theorem entriesInduction {P : Node → Prop} (file : ∀ bytes, P (.file bytes))
    (link : ∀ target, P (.link target))
    (directory : ∀ isOpen es, (∀ e ∈ es, P e.2) → P (.directory isOpen es)) (n : Node) : P n := by
  match n with
  | .file bytes => exact file bytes
  | .link target => exact link target
  | .directory isOpen es =>
    refine directory isOpen es fun e he => ?_
    have hsize : sizeOf e.2 < 2 + sizeOf es := by
      have hmem := sizeOf_lt_of_mem he
      obtain ⟨name, m⟩ := e
      simp only [Prod.mk.sizeOf_spec] at hmem ⊢
      omega
    exact entriesInduction file link directory e.2
termination_by sizeOf n

/-- Induction where only what stands in open directories counts. -/
theorem openInduction {P : Node → Prop} (closed : ∀ n, (∀ es, n ≠ .directory true es) → P n)
    (opened : ∀ es, (∀ e ∈ es, P e.2) → P (.directory true es)) (n : Node) : P n := by
  induction n using entriesInduction with
  | file _ | link _ => exact closed _ (by simp)
  | directory isOpen es ih =>
    cases isOpen with
    | false => exact closed _ (by simp)
    | true => exact opened es ih

mutual

/-- Whether every node of a tree passes a check. -/
def all (ok : Node → Bool) : Node → Bool
  | .file bytes => ok (.file bytes)
  | .link target => ok (.link target)
  | .directory isOpen es => ok (.directory isOpen es) && allEntries ok es

/-- Whether every node below the names of a directory passes a check. -/
def allEntries (ok : Node → Bool) : List (String × Node) → Bool
  | [] => true
  | (_, n) :: rest => all ok n && allEntries ok rest

end

variable {ok : Node → Bool}

theorem ok_of_all (h : all ok n) : ok n := by
  cases n with
  | file _ | link _ => simpa [all] using h
  | directory o es => exact ((Bool.and_eq_true _ _).mp (by simpa [all] using h)).1

theorem allEntries_eq_true : allEntries ok es ↔ ∀ e ∈ es, all ok e.2 := by
  induction es with
  | nil => simp [allEntries]
  | cons e rest ih => simp [allEntries, ih]

/-- What holds of all nodes of a directory holds of those under its entries. -/
theorem all_of_mem_entries (h : all ok (.directory isOpen es)) : ∀ e ∈ es, all ok e.2 := by
  rw [all, Bool.and_eq_true, allEntries_eq_true] at h
  exact h.2

theorem all_of_lookup (h : allEntries ok es) (hn : es.lookup name = some n) : all ok n := by
  obtain ⟨l₁, l₂, rfl, -⟩ := lookup_eq_some_iff.mp hn
  exact allEntries_eq_true.mp h (name, n) (by simp)

theorem all_of_child? (h : all ok n) (hm : n.child? name = some m) : all ok m := by
  cases n with
  | file _ | link _ => exact absurd hm (by simp [child?, entries])
  | directory o es =>
    rw [all, Bool.and_eq_true] at h
    exact all_of_lookup h.2 hm

theorem all_of_at? (h : all ok n) (hm : n.at? l = some m) : all ok m := by
  induction l generalizing n with
  | nil => exact Option.some.inj hm ▸ h
  | cons name rest ih =>
    rw [at?_cons] at hm
    obtain ⟨c, hc, hrest⟩ := Option.bind_eq_some_iff.mp hm
    exact ih (all_of_child? h hc) hrest

theorem mem_of_mem_putEntry {e : String × Node} (h : e ∈ putEntry es name value) :
    e ∈ es ∨ (e.1 = name ∧ value = some e.2) := by
  induction es with
  | nil =>
    cases value with
    | none => simp [putEntry] at h
    | some v =>
      rw [putEntry, mem_singleton] at h
      exact .inr ⟨by rw [h], by rw [h]⟩
  | cons e' rest ih =>
    obtain ⟨k, m⟩ := e'
    by_cases hk : k = name
    · subst hk
      cases value with
      | none =>
        simp only [putEntry, if_true] at h
        exact .inl (mem_cons_of_mem _ h)
      | some v =>
        simp only [putEntry, if_true, mem_cons] at h
        rcases h with rfl | h
        · exact .inr ⟨rfl, rfl⟩
        · exact .inl (mem_cons_of_mem _ h)
    · simp only [putEntry, hk, if_false, mem_cons] at h
      rcases h with rfl | h
      · exact .inl mem_cons_self
      · rcases ih h with h | h
        · exact .inl (mem_cons_of_mem _ h)
        · exact .inr h

/-- `putEntry` keeps names apart: it replaces the entry of its name. -/
theorem nodup_putEntry (h : (es.map Prod.fst).Nodup) :
    ((putEntry es name value).map Prod.fst).Nodup := by
  induction es with
  | nil => cases value <;> simp [putEntry]
  | cons e rest ih =>
    obtain ⟨k, m⟩ := e
    rw [map_cons, nodup_cons] at h
    by_cases hk : k = name
    · cases value with
      | none => simpa only [putEntry, hk, if_true] using h.2
      | some v => simpa only [putEntry, hk, if_true, map_cons, nodup_cons] using hk ▸ h
    · simp only [putEntry, hk, if_false, map_cons, nodup_cons]
      refine ⟨fun hmem => ?_, ih h.2⟩
      obtain ⟨e, he, hek⟩ := mem_map.mp hmem
      rcases mem_of_mem_putEntry he with hold | ⟨hname, -⟩
      · exact h.1 (mem_map.mpr ⟨e, hold, hek⟩)
      · exact hk (hek.symm.trans hname)

/-- The check lets `putEntry` set names to anything, as far as they are names for it. -/
def KeptByEntries (ok : Node → Bool) (isName : String → Bool) : Prop :=
  ∀ o es name value, ok (.directory o es) = true → isName name = true →
    ok (.directory o (putEntry es name value)) = true

theorem all_setChild (hok : KeptByEntries ok isName) (h : all ok n) (hname : isName name)
    (hvalue : ∀ v, value = some v → all ok v) : all ok (n.setChild name value) := by
  cases n with
  | file _ | link _ => exact h
  | directory o es =>
    rw [all, Bool.and_eq_true] at h
    rw [setChild, all, Bool.and_eq_true, allEntries_eq_true]
    refine ⟨hok o es name value h.1 hname, ?_⟩
    intro e he
    rcases mem_of_mem_putEntry he with hold | ⟨-, hnew⟩
    · exact allEntries_eq_true.mp h.2 e hold
    · exact hvalue e.2 hnew

/-- `alter` keeps a property of the whole tree if what is put there has it. -/
theorem all_alter (hok : KeptByEntries ok isName)
    (hf : ∀ old new, (∀ o, old = some o → all ok o) → f old = some new → all ok new)
    (hplace : ∀ name ∈ place, isName name) (h : all ok n) : all ok (alter f place n) := by
  induction place generalizing n with
  | nil =>
    unfold alter change
    cases hnew : f (some n) with
    | none => exact h
    | some new => exact hf _ _ (fun o ho => Option.some.inj ho ▸ h) hnew
  | cons name rest ih =>
    have hname := hplace name mem_cons_self
    by_cases hrest : rest = []
    · subst hrest
      rw [alter_singleton]
      refine all_setChild hok h hname fun v hv => hf _ _ ?_ hv
      intro o ho
      exact all_of_child? h ho
    · rw [alter_cons f name hrest]
      cases hc : n.child? name with
      | none => exact h
      | some c =>
        refine all_setChild hok h hname fun v hv => ?_
        rw [← Option.some.inj hv]
        exact ih (fun m hm => hplace m (mem_cons_of_mem _ hm)) (all_of_child? h hc)

end CodeAtlas.Node
