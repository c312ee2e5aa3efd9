import CodeAtlas.Files.Removal
import CodeAtlas.Proofs.Resolution
import Mathlib.Order.Defs.Unbundled

/-!
# What operations on files change

Making directories puts new nodes at places, one after another, and removing a directory changes
what is at one place in several steps. A relation that every such step has, the whole operation has
(`makeDirectories_chain`, `removeTree_chain`). Removing a directory takes away nothing but what its
path leads to (`location_of_removed`), and spares everything else (`removeTree_spares`) unless a
link is in its place.
-/

open List

namespace CodeAtlas.Workspace

open Node CodeAtlas.Path

variable {w w' : Workspace} {path : String}

/-! ## Changes at a place -/

theorem change_root (w : Workspace) (l : Location) (f : Option Node → Option Node) :
    (w.change l f).root = alter f l w.root := rfl

theorem put_root (w : Workspace) (l : Location) (n : Node) :
    (w.put l n).root = alter (fun _ => some n) l w.root := rfl

variable {place l : Location} {old new : Node} {name : String} {p : Place} {v : Workspace}

/-- A change further down leaves a node of its kind, and as open as it was. -/
theorem fits_alter (f : Option Node → Option Node) (hplace : place ≠ []) (n : Node) :
    (n.alter f place).Fits n ∧ n.Fits (n.alter f place) := by
  have hset : ∀ (name : String) (value : Option Node),
      (n.setChild name value).Fits n ∧ n.Fits (n.setChild name value) := by
    intro name value
    cases n <;> simp [setChild, Node.Fits]
  obtain ⟨name, rest, rfl⟩ := exists_cons_of_ne_nil hplace
  by_cases hrest : rest = []
  · subst hrest
    rw [alter_singleton]
    exact hset name _
  · rw [alter_cons f name hrest]
    cases n.child? name with
    | none => exact ⟨Node.Fits.refl n, Node.Fits.refl n⟩
    | some c => exact hset name _

/-- Everything that is there outside of a place is still there, of its kind and as open as it was,
and what is beside the place is the same. -/
structure Spares (place : Location) (w w' : Workspace) : Prop where
  base : w'.base = w.base
  kept : ∀ l n, ¬ place <+: l → w.root.at? l = some n →
    ∃ n', w'.root.at? l = some n' ∧ n'.Fits n ∧ n.Fits n'
  beside : ∀ l, ¬ place <+: l → ¬ l <+: place → w'.root.at? l = w.root.at? l

instance (place : Location) : IsPreorder Workspace (Spares place) where
  refl w := ⟨rfl, fun _ n _ h => ⟨n, h, .refl n, .refl n⟩, fun _ _ _ => rfl⟩
  trans a b c hab hbc := by
    refine ⟨hbc.base.trans hab.base, fun l n hl hn => ?_, fun l hl hl' => ?_⟩
    · obtain ⟨m, hm, hmn, hnm⟩ := hab.kept l n hl hn
      obtain ⟨k, hk, hkm, hmk⟩ := hbc.kept l m hl hm
      exact ⟨k, hk, hkm.trans hmn, hnm.trans hmk⟩
    · rw [hbc.beside l hl hl', hab.beside l hl hl']

theorem change_spares (w : Workspace) (place : Location) (f : Option Node → Option Node) :
    Spares place w (w.change place f) := by
  refine ⟨rfl, fun l n hl hn => ?_, fun l hl hl' => at?_alter_of_beside f w.root hl hl'⟩
  by_cases habove : l <+: place
  · obtain ⟨r, rfl⟩ := habove
    have hr : r ≠ [] := fun hr => hl (by simp [hr])
    obtain ⟨hfits, hfits'⟩ := fits_alter f hr n
    refine ⟨n.alter f r, ?_, hfits, hfits'⟩
    rw [change_root, at?_alter_of_above f l hr, hn, Option.map_some]
  · refine ⟨n, ?_, .refl n, .refl n⟩
    rw [change_root, at?_alter_of_beside f w.root hl habove, hn]

/-- Replacing a node by one that holds nothing new makes the tree `Poorer`. -/
theorem change_poorer {f : Option Node → Option Node} (hold : w.root.at? place = some old)
    (hnew : f (some old) = some new)
    (hfits : ∀ r m', new.at? r = some m' → ∃ m, old.at? r = some m ∧ m'.Fits m) :
    Poorer (w.change place f) w := by
  refine ⟨rfl, fun l n' hn' => ?_⟩
  by_cases hbelow : place <+: l
  · obtain ⟨r, rfl⟩ := hbelow
    rw [change_root, at?_alter_of_below hold hnew] at hn'
    obtain ⟨m, hm, hmfits⟩ := hfits r n' hn'
    exact ⟨m, by rw [at?_append, hold, Option.bind_some, hm], hmfits⟩
  · have hsome : (w.root.at? l).isSome := by
      rw [← isSome_at?_alter f w.root hbelow, ← change_root, hn']
      rfl
    obtain ⟨n, hn⟩ := Option.isSome_iff_exists.mp hsome
    obtain ⟨m, hm, hmfits, -⟩ := (change_spares w place f).kept l n hbelow hn
    have : m = n' := Option.some.inj (hm.symm.trans hn')
    exact ⟨n, hn, this ▸ hmfits⟩

/-! ## Making and writing -/

/-- `place?` gives the last name of a path and the open directory that its parent leads to. -/
theorem place?_eq_ok (h : w.place? path = .ok (l, name)) :
    name = baseName (dropTrailingSlashes path) ∧ ∃ es links, w.resolve true
            (if parent (dropTrailingSlashes path) = "" then "."
              else parent (dropTrailingSlashes path)) =
          .ok ⟨l, .directory true es, links⟩ := by
  unfold place? at h
  simp only at h
  cases hres : w.resolve true
      (if parent (dropTrailingSlashes path) = "" then "."
        else parent (dropTrailingSlashes path)) with
  | error e =>
    rw [hres] at h
    cases e <;> cases h
  | ok p =>
    obtain ⟨location, node, links⟩ := p
    rw [hres] at h
    cases node with
    | file _ | link _ => cases h
    | directory isOpen es =>
      cases isOpen with
      | false => cases h
      | true =>
        cases h
        exact ⟨rfl, es, links, rfl⟩

theorem makeDirectory_eq_ok (h : w.makeDirectory path = .ok w') :
    ∃ l name, w.place? path = .ok (l, name) ∧ w' = w.put (l ++ [name]) emptyDirectory ∧
      ∃ p, w.resolve false path = .error (.path .notFound p) := by
  unfold makeDirectory at h
  split at h
  · cases h
  · rename_i p hres
    cases hplace : w.place? path with
    | error e => rw [hplace] at h; cases h
    | ok found =>
      obtain ⟨l, name⟩ := found
      rw [hplace] at h
      cases h
      exact ⟨l, name, rfl, rfl, p, hres⟩
  · cases h

section Chains

variable {R : Workspace → Workspace → Prop} [IsPreorder Workspace R]

/-- A fold that may fail has a relation if each of its steps has it. -/
theorem foldlM_chain {f : Workspace → String → Except FileError Workspace} {paths : List String}
    (hf : ∀ w p w', p ∈ paths → f w p = .ok w' → R w w') (h : paths.foldlM f w = .ok w') :
    R w w' := by
  induction paths generalizing w with
  | nil =>
    cases h
    exact refl_of R _
  | cons p rest ih =>
    rw [foldlM_cons] at h
    cases hstep : f w p with
    | error e => rw [hstep] at h; cases h
    | ok next =>
      rw [hstep] at h
      exact trans_of R (hf w p next mem_cons_self hstep)
        (ih (fun v q v' hq => hf v q v' (mem_cons_of_mem _ hq)) h)

/-- `makeDirectories` makes one after another, each in the `ancestry` of the path and not there
before. -/
theorem makeDirectories_chain
    (hmake : ∀ w p w', p ∈ ancestry path.length path → (p ≠ path → w.exists? p = false) →
      w.makeDirectory p = .ok w' → R w w') (h : w.makeDirectories path = .ok w') : R w w' := by
  refine foldlM_chain (fun v p v' hp hstep => ?_) h
  split at hstep
  · cases hstep
    exact refl_of R v
  · rename_i hskip
    unfold ensureOne at hstep
    split at hstep
    · cases hstep
      exact refl_of R v
    · refine hmake v p v' hp (fun hne => ?_) hstep
      simpa [hne] using hskip

end Chains

/-! ## The working directory stays where it is -/

def SameBase (w w' : Workspace) : Prop :=
  w'.base = w.base

instance : IsPreorder Workspace SameBase where
  refl _ := rfl
  trans _ _ _ hab hbc := hbc.trans hab

theorem makeDirectories_sameBase (h : w.makeDirectories path = .ok w') : SameBase w w' := by
  refine makeDirectories_chain (fun v p v' _ _ hmade => ?_) h
  obtain ⟨l, name, -, rfl, -⟩ := makeDirectory_eq_ok hmade
  rfl

/-! ## Removing -/

/-- A directory, closed; anything else as it is. -/
def closed : Option Node → Option Node
  | some (.directory _ es) => some (.directory false es)
  | other => other

theorem close_eq_ok (h : w.close path = .ok w') :
    ∃ p, w.resolve true path = .ok p ∧ w' = w.change p.location closed := by
  unfold close at h
  cases hres : w.resolve true path with
  | error e => rw [hres] at h; cases h
  | ok p =>
    rw [hres] at h
    cases h
    exact ⟨p, rfl, rfl⟩

/-- The last component of a path that is not empty, with what is before it and after it. -/
theorem eq_append_of_dropWhile {names above : List String}
    (h : names.reverse.dropWhile (· == "") = name :: above) :
    ∃ slashes, names = above.reverse ++ name :: slashes ∧ (∀ c ∈ slashes, c = "") ∧ name ≠ "" := by
  refine ⟨(names.reverse.takeWhile (· == "")).reverse, ?_, fun c hc => ?_, ?_⟩
  · have hsplit := congrArg reverse (takeWhile_append_dropWhile
      (p := (· == "")) (l := names.reverse))
    rw [h, reverse_append, reverse_cons, reverse_reverse, append_assoc, singleton_append] at hsplit
    exact hsplit.symm
  · simpa using mem_takeWhile_imp (mem_reverse.mp hc)
  · have hhead := head?_dropWhile_not (· == "") names.reverse
    rw [h, head?_cons] at hhead
    simpa using hhead

/-- `removeEmpty` removes a directory from the one that the components before its name lead to. -/
theorem removeEmpty_eq_ok (h : w.removeEmpty path = .ok w') :
    ∃ above name slashes l es links isOpen,
      components path = above ++ name :: slashes ∧ (∀ c ∈ slashes, c = "") ∧
      name ≠ "" ∧ name ≠ "." ∧ name ≠ ".." ∧
      w.resolveFrom true linkLimit (start w.home path) above =
        .ok ⟨l, .directory true es, links⟩ ∧
      es.lookup name = some (.directory isOpen []) ∧ w' = w.change (l ++ [name]) fun _ => none := by
  unfold removeEmpty at h
  split at h
  · cases h
  rename_i name above hdrop
  obtain ⟨slashes, hnames, hslashes, hname⟩ := eq_append_of_dropWhile hdrop
  -- only an open directory that lists an empty one under the name gets through
  cases hres : w.resolveFrom true linkLimit (start w.home path) above.reverse with
  | error e => rw [hres] at h; cases h
  | ok p =>
    obtain ⟨l, node, links⟩ := p
    rw [hres] at h
    cases node with
    | file _ | link _ => cases h
    | directory isOpen es =>
      cases isOpen with
      | false => cases h
      | true =>
        change (if name = "." then Except.error (FileError.path .invalid path)
          else _) = _ at h
        split at h
        · cases h
        split at h
        · cases h
        rename_i hpoint hpoints
        split at h
        · cases h
        · rename_i isOpen hlook
          cases h
          exact ⟨above.reverse, name, slashes, l, es, links, isOpen, hnames, hslashes, hname,
            hpoint, hpoints, hres, hlook, rfl⟩
        · cases h
        · cases h

/-- For `resolveFrom`, components that are nothing but slashes stay where they are. -/
theorem location_of_resolveFrom_slashes {followLast : Bool} {links : Nat} {here : Location}
    {slashes : List String} (hslashes : ∀ c ∈ slashes, c = "")
    (h : w.resolveFrom followLast links here slashes = .ok p) : p.location = here := by
  induction slashes with
  | nil =>
    rw [resolveFrom_nil] at h
    split at h
    · cases h
    · cases h
      rfl
  | cons c rest ih =>
    rw [hslashes c mem_cons_self] at h
    exact ih (fun c hc => hslashes c (mem_cons_of_mem _ hc)) (resolveFrom_of_empty_cons h)

/-- In a `Poorer` tree `removeEmpty` removes what the path led to before. -/
theorem removeEmpty_eq_change {v' : Workspace} (hpoorer : Poorer v w)
    (h : v.removeEmpty path = .ok v') (hp : w.resolve false path = .ok p) :
    v' = v.change p.location fun _ => none := by
  obtain ⟨above, name, slashes, l, es, links, isOpen, hnames, hslashes, hempty, hpoint, hpoints,
    hres, hlook, rfl⟩ := removeEmpty_eq_ok h
  obtain ⟨-, -, -, hall⟩ := resolve_eq_ok_iff.mp hp
  obtain ⟨n, hn⟩ := hpoorer.resolveFrom hres
  obtain ⟨es', c, hat, hlook', hfits⟩ := hpoorer.entry (at?_of_resolveFrom hres) hlook
  -- the components before the name lead to the same directory, and the name to its entry
  rw [hpoorer.home] at hn
  rw [hnames, resolveFrom_append w false linkLimit _ above (.inl (by simp)), hn] at hall
  change w.resolveFrom false links l (name :: slashes) = _ at hall
  rw [resolveFrom_cons, hat] at hall
  simp only [hempty, hpoint, hpoints, decide_false, Bool.or_self, Bool.false_eq_true, if_false]
    at hall
  split at hall
  · cases hall
  rw [hlook'] at hall
  cases c with
  | file _ | link _ => exact absurd hfits (by simp [Node.Fits])
  | directory _ _ =>
    rw [location_of_resolveFrom_slashes hslashes hall]

/-- In a `Poorer` tree `close` closes what the path led to before, unless that is a link. -/
theorem close_eq_change {v' : Workspace} (hpoorer : Poorer v w) (h : v.close path = .ok v')
    (hp : w.resolve false path = .ok p) (hlink : p.node.isLink = false) :
    v' = v.change p.location closed := by
  obtain ⟨q, hq, rfl⟩ := close_eq_ok h
  obtain ⟨-, -, -, hall⟩ := resolve_eq_ok_iff.mp hp
  obtain ⟨-, -, -, hres⟩ := resolve_eq_ok_iff.mp hq
  obtain ⟨n, hn⟩ := hpoorer.resolveFrom hres
  rw [hpoorer.home, resolveFrom_of_not_link hall hlink] at hn
  cases hn
  rfl

/-- A closed directory holds what the open one holds. -/
theorem at?_closed (h : closed (some old) = some new) (r : Location) :
    (new.at? r).isSome = (old.at? r).isSome ∧
      ∀ m', new.at? r = some m' → ∃ m, old.at? r = some m ∧ m'.Fits m := by
  cases old with
  | file _ | link _ => cases h; exact ⟨rfl, fun m' hm' => ⟨m', hm', .refl m'⟩⟩
  | directory isOpen es =>
    cases h
    cases r with
    | nil =>
      refine ⟨rfl, fun m' hm' => ⟨_, rfl, ?_⟩⟩
      cases hm'
      simp [Node.Fits]
    | cons name rest => exact ⟨rfl, fun m' hm' => ⟨m', hm', .refl m'⟩⟩

/-- `close` takes nothing away, and lets less through. -/
theorem close_keeps (h : w.close path = .ok w') :
    Poorer w' w ∧ ∀ l, (w'.root.at? l).isSome = (w.root.at? l).isSome := by
  obtain ⟨p, hp, rfl⟩ := close_eq_ok h
  have hat := at?_of_resolve hp
  obtain ⟨new, hnew⟩ : ∃ new, closed (some p.node) = some new := by
    cases p.node <;> exact ⟨_, rfl⟩
  refine ⟨change_poorer hat hnew fun r => (at?_closed hnew r).2, fun l => ?_⟩
  by_cases hbelow : p.location <+: l
  · obtain ⟨r, rfl⟩ := hbelow
    rw [change_root, at?_alter_of_below hat hnew, (at?_closed hnew r).1, at?_append, hat,
      Option.bind_some]
  · rw [change_root, isSome_at?_alter _ _ hbelow]

theorem close_sameBase (h : w.close path = .ok w') : SameBase w w' := by
  obtain ⟨p, -, rfl⟩ := close_eq_ok h
  rfl

section Chain

variable {R : Workspace → Workspace → Prop} [IsPreorder Workspace R]

/-- `finishRemoval` in a `Poorer` tree removes or closes what the path led to. -/
theorem finishRemoval_chain (hpoorer : Poorer v w) (hp : w.resolve false path = .ok p)
    (hlink : p.node.isLink = false) (hgone : ∀ v, R v (v.change p.location fun _ => none))
    (hclosed : ∀ v, R v (v.change p.location closed)) : R v (v.finishRemoval path).1 := by
  unfold finishRemoval
  cases hfirst : v.removeEmpty path with
  | ok v' =>
    rw [removeEmpty_eq_change hpoorer hfirst hp]
    exact hgone v
  | error e =>
    simp only
    cases hclose : v.close path with
    | error e' => exact refl_of R v
    | ok v' =>
      have hstep : R v v' := close_eq_change hpoorer hclose hp hlink ▸ hclosed v
      simp only
      cases hsecond : v'.removeEmpty path with
      | error e' => exact hstep
      | ok v'' =>
        rw [removeEmpty_eq_change ((close_keeps hclose).1.trans hpoorer) hsecond hp]
        exact trans_of R hstep (hgone v')

/-- `removeTree` changes a directory step by step, all at the place that its path leads to: what
could not be emptied is put there, or else an empty directory, which is removed or closed. -/
theorem removeTree_chain (hp : w.resolve false path = .ok p) (hlink : p.node.isLink = false)
    (hleft : ∀ n, leftAt p.node = some n → R w (w.put p.location n))
    (hempty : R w (w.put p.location .emptyDirectory))
    (hgone : ∀ v, R v (v.change p.location fun _ => none))
    (hclosed : ∀ v, R v (v.change p.location closed)) : R w (w.removeTree path).1 := by
  have hat := at?_of_resolve hp
  obtain ⟨location, node, links⟩ := p
  unfold removeTree
  rw [hp]
  cases node with
  | file _ => exact refl_of R w
  | link _ => cases hlink
  | directory isOpen es =>
    cases isOpen with
    | false => exact refl_of R w
    | true =>
      simp only
      cases hes : leftOf es with
      | some left => exact hleft _ (by rw [leftAt, hes]; rfl)
      | none =>
        have hpoorer : Poorer (w.put location .emptyDirectory) w := by
          refine change_poorer hat rfl fun r m' hm' => ?_
          cases r with
          | nil =>
            cases hm'
            exact ⟨_, rfl, fun _ => rfl⟩
          | cons name rest => cases hm'
        exact trans_of R hempty (finishRemoval_chain hpoorer hp hlink hgone hclosed)

end Chain

/-- `removeTree` changes nothing but what is at the place its path leads to. -/
theorem removeTree_spares (hp : w.resolve false path = .ok p) (hlink : p.node.isLink = false) :
    Spares p.location w (w.removeTree path).1 :=
  removeTree_chain hp hlink (fun _ _ => change_spares w _ _) (change_spares w _ _)
    (fun v => change_spares v _ _) fun v => change_spares v _ _

/-- Apart from a directory that its path leads to, `removeTree` at most closes what a link leads
to. -/
theorem removeTree_cases (w : Workspace) (path : String) :
    (w.removeTree path).1 = w ∨ w.close path = .ok (w.removeTree path).1 ∨
      ∃ p, w.resolve false path = .ok p ∧ p.node.isLink = false := by
  cases hp : w.resolve false path with
  | error e => exact .inl (by simp only [removeTree, hp])
  | ok p =>
    obtain ⟨location, node, links⟩ := p
    cases node with
    | file _ | directory _ _ => exact .inr (.inr ⟨_, rfl, rfl⟩)
    | link target =>
      cases hclose : w.close path with
      | error e => exact .inl (by simp only [removeTree, hp, hclose])
      | ok w' => exact .inr (.inl (by simp only [removeTree, hp, hclose]))

theorem removeTree_base (w : Workspace) (path : String) : (w.removeTree path).1.base = w.base := by
  rcases removeTree_cases w path with hsame | hclose | ⟨p, hp, hlink⟩
  · rw [hsame]
  · exact close_sameBase hclose
  · exact (removeTree_spares hp hlink).base

/-- Whatever `removeTree` takes away was at the place that its path leads to, or below. -/
theorem location_of_removed (hthere : (w.root.at? l).isSome)
    (hgone : (w.removeTree path).1.root.at? l = none) :
    ∃ p, w.resolve false path = .ok p ∧ p.location <+: l := by
  obtain ⟨n, hn⟩ := Option.isSome_iff_exists.mp hthere
  rcases removeTree_cases w path with hsame | hclose | ⟨p, hp, hlink⟩
  · rw [hsame, hn] at hgone
    cases hgone
  · have hkept := (close_keeps hclose).2 l
    rw [hgone, hthere] at hkept
    cases hkept
  · refine ⟨p, hp, ?_⟩
    by_contra hout
    obtain ⟨n', hn', -⟩ := (removeTree_spares hp hlink).kept l n hout hn
    rw [hgone] at hn'
    cases hn'

end CodeAtlas.Workspace
