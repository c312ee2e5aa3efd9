import CodeAtlas.Proofs.Tree

/-!
# Where paths lead

Resolving a path follows links, so where it leads depends on the whole tree. Four facts make it
tractable:

* components are resolved one after another (`resolveFrom_append`), each in one of six ways
  (`Leads`), and what is found is what the tree holds at the place reached (`at?_of_resolveFrom`);
* a tree that has lost nodes, or had directories closed, leads nowhere new (`Poorer.resolveFrom`);
* two trees lead to the same if they hold nodes of one kind on the way (`resolveFrom_cons_congr`);
* a way without links leads to the place that its components spell (`location_of_straight`).
-/

open List

namespace CodeAtlas

open Node CodeAtlas.Path

variable {w : Workspace} {followLast : Bool} {links : Nat} {names : List String} {here : Location}
variable {p : Place} {w' : Workspace}

namespace Workspace

theorem error_or_ok_of_map_eq {ε α β : Type} {f : α → β} {x y : Except ε α} (h : x.map f = y.map f) :
    (∃ e, x = .error e ∧ y = .error e) ∨ ∃ a b, x = .ok a ∧ y = .ok b ∧ f a = f b := by
  cases x <;> cases y <;> simp_all [Except.map]

/-! ## One component after another -/

/-- How `resolveFrom` goes on with the target of a link, with so many links left. -/
def follow (w : Workspace) (followLast : Bool) :
    (linksLeft : Nat) → Location → String → List String → Except FileCause Place
  | 0, _, _, _ => .error .tooManyLinks
  | links + 1, place, target, rest =>
    if target = "" then .error .notFound
    else w.resolveFrom followLast links (start place target) (components target ++ rest)

theorem resolveFrom_eq_walk (w : Workspace) (followLast : Bool) (links : Nat) (here : Location)
    (names : List String) : w.resolveFrom followLast links here names =
      walk w.root links followLast (w.follow followLast links) names here := by
  cases links <;> rfl

theorem resolveFrom_nil (w : Workspace) (followLast : Bool) (links : Nat) (here : Location) :
    w.resolveFrom followLast links here [] = match w.root.at? here with
      | none => .error .notFound
      | some n => .ok ⟨here, n, links⟩ := by
  cases hat : w.root.at? here with
  | none | some _ => simp only [resolveFrom_eq_walk, walk, hat]

theorem resolveFrom_cons (w : Workspace) (followLast : Bool) (links : Nat) (here : Location)
    (name : String) (rest : List String) : w.resolveFrom followLast links here (name :: rest) =
      match w.root.at? here with
      | some (.directory true es) =>
        if name = "" || name = "." then w.resolveFrom followLast links here rest
        else if name = ".." then w.resolveFrom followLast links here.dropLast rest
        else if nameLimit < name.utf8ByteSize then .error .nameTooLong
        else
          match es.lookup name with
          | none => .error .notFound
          | some (.link target) =>
            if rest.isEmpty && !followLast then .ok ⟨here ++ [name], .link target, links⟩
            else w.follow followLast links here target rest
          | some _ => w.resolveFrom followLast links (here ++ [name]) rest
      | some (.directory false _) => .error .denied
      | some _ => .error .notDirectory
      | none => .error .notFound := by
  simp only [resolveFrom_eq_walk]
  rfl

/-- `resolveFrom` takes components one after another: the rest starts where the first part leads,
with the links that it has left. -/
theorem resolveFrom_append (w : Workspace) (followLast : Bool) (links : Nat) (here : Location)
    (names : List String) {rest : List String} (hrest : rest ≠ [] ∨ followLast) :
    w.resolveFrom followLast links here (names ++ rest) =
      (w.resolveFrom true links here names).bind fun p =>
        w.resolveFrom followLast p.linksLeft p.location rest := by
  induction links using Nat.strong_induction_on generalizing here names with
  | _ links ihLinks =>
  induction names generalizing here with
  | nil =>
    rw [nil_append, resolveFrom_nil w true]
    cases hat : w.root.at? here with
    | some n => rfl
    | none =>
      cases rest with
      | nil => rw [resolveFrom_nil, hat]; rfl
      | cons name rest => rw [resolveFrom_cons, hat]; rfl
  | cons name names ih =>
    rw [cons_append, resolveFrom_cons, resolveFrom_cons]
    cases hat : w.root.at? here with
    | none => rfl
    | some n =>
      cases n with
      | file _ | link _ => rfl
      | directory isOpen es =>
        cases isOpen with
        | false => rfl
        | true =>
          simp only
          split
          · exact ih here
          split
          · exact ih here.dropLast
          split
          · rfl
          cases hlook : es.lookup name with
          | none => rfl
          | some c =>
            cases c with
            | file _ | directory _ _ => exact ih (here ++ [name])
            | link target =>
              have hgo : ((names ++ rest).isEmpty && !followLast) = false := by
                rcases hrest with h | h <;> simp [h]
              simp only [hgo, Bool.not_true, Bool.and_false, Bool.false_eq_true, if_false]
              -- the target is resolved with one link less
              cases links with
              | zero => rfl
              | succ links =>
                simp only [follow]
                split
                · rfl
                · rw [← append_assoc]
                  exact ihLinks links (Nat.lt_succ_self _) _ _

/-! ## The way to a place -/

/-- The way that components lead to a place, one case for each kind of component. -/
inductive Leads (w : Workspace) (followLast : Bool) : Nat → Location → List String → Place → Prop
  | here {links : Nat} {l : Location} {n : Node} (hat : w.root.at? l = some n) :
    Leads w followLast links l [] ⟨l, n, links⟩
  /-- An empty component or a point stays where it is. -/
  | stay {links : Nat} {l : Location} {name : String} {rest : List String} {p : Place}
    {es : List (String × Node)} (hat : w.root.at? l = some (.directory true es))
    (hname : (name = "" || name = ".") = true) (h : Leads w followLast links l rest p) :
    Leads w followLast links l (name :: rest) p
  | up {links : Nat} {l : Location} {rest : List String} {p : Place} {es : List (String × Node)}
    (hat : w.root.at? l = some (.directory true es))
    (h : Leads w followLast links l.dropLast rest p) :
    Leads w followLast links l (".." :: rest) p
  | down {links : Nat} {l : Location} {name : String} {rest : List String} {p : Place}
    {es : List (String × Node)} {n : Node} (hat : w.root.at? l = some (.directory true es))
    (hname : (name = "" || name = ".") = false) (hup : name ≠ "..")
    (hshort : ¬ nameLimit < name.utf8ByteSize) (hlook : es.lookup name = some n)
    (hlink : n.isLink = false) (h : Leads w followLast links (l ++ [name]) rest p) :
    Leads w followLast links l (name :: rest) p
  /-- A link at the very end that is not followed. -/
  | link {links : Nat} {l : Location} {name target : String} {es : List (String × Node)}
    (hat : w.root.at? l = some (.directory true es))
    (hname : (name = "" || name = ".") = false) (hup : name ≠ "..")
    (hshort : ¬ nameLimit < name.utf8ByteSize) (hlook : es.lookup name = some (.link target))
    (hlast : followLast = false) :
    Leads w followLast links l [name] ⟨l ++ [name], .link target, links⟩
  /-- Any other link: its target and the rest are resolved with one link less. -/
  | follow {links : Nat} {l : Location} {name target : String} {rest : List String}
    {p : Place} {es : List (String × Node)} (hat : w.root.at? l = some (.directory true es))
    (hname : (name = "" || name = ".") = false) (hup : name ≠ "..")
    (hshort : ¬ nameLimit < name.utf8ByteSize) (hlook : es.lookup name = some (.link target))
    (hgo : (rest.isEmpty && !followLast) = false) (htarget : target ≠ "")
    (h : Leads w followLast links (start l target) (components target ++ rest) p) :
    Leads w followLast (links + 1) l (name :: rest) p

theorem leads_of_resolveFrom {l : Location} (h : w.resolveFrom followLast links l names = .ok p) :
    Leads w followLast links l names p := by
  -- links bound the outer induction; between two of them the components do
  induction links using Nat.strong_induction_on generalizing l names with
  | _ links ihLinks =>
  induction names generalizing l with
  | nil =>
    rw [resolveFrom_nil] at h
    cases hat : w.root.at? l with
    | none => rw [hat] at h; cases h
    | some n =>
      rw [hat] at h
      cases h
      exact .here hat
  | cons name names ih =>
    rw [resolveFrom_cons] at h
    split at h
    case h_2 => cases h
    case h_3 => cases h
    case h_4 => cases h
    case h_1 es hat =>
      split at h
      · rename_i hname
        exact .stay hat hname (ih h)
      rename_i hname
      rw [Bool.not_eq_true] at hname
      split at h
      · rename_i hup
        subst hup
        exact .up hat (ih h)
      rename_i hup
      split at h
      · cases h
      rename_i hshort
      -- an ordinary name: what the directory has under it decides
      cases hlook : es.lookup name with
      | none => rw [hlook] at h; cases h
      | some n =>
        rw [hlook] at h
        cases n with
        | file _ | directory _ _ => exact .down hat hname hup hshort hlook rfl (ih h)
        | link target =>
          simp only at h
          split at h
          · rename_i hlast
            rw [Bool.and_eq_true, List.isEmpty_iff] at hlast
            obtain ⟨rfl, hlast⟩ := hlast
            cases h
            exact .link hat hname hup hshort hlook (by simpa using hlast)
          rename_i hgo
          rw [Bool.not_eq_true] at hgo
          cases links with
          | zero => cases h
          | succ links =>
            simp only [follow] at h
            split at h
            · cases h
            rename_i htarget
            exact .follow hat hname hup hshort hlook hgo htarget
              (ihLinks links (Nat.lt_succ_self _) h)

theorem Leads.resolveFrom {l : Location} (h : Leads w followLast links l names p) :
    w.resolveFrom followLast links l names = .ok p := by
  induction h with
  | here hat => rw [resolveFrom_nil, hat]
  | stay hat hname _ ih => rw [resolveFrom_cons, hat]; simp only [hname, if_true, ih]
  | up hat _ ih => rw [resolveFrom_cons, hat]; exact ih
  | @down _ _ _ _ _ _ n hat hname hup hshort hlook hlink _ ih =>
    rw [resolveFrom_cons, hat]
    simp only [hname, hup, hshort, Bool.false_eq_true, if_false, hlook]
    cases n with
    | file _ | directory _ _ => exact ih
    | link _ => cases hlink
  | link hat hname hup hshort hlook hlast =>
    rw [resolveFrom_cons, hat]
    simp only [hname, hup, hshort, Bool.false_eq_true, if_false, hlook, hlast, isEmpty_nil,
      Bool.not_false, Bool.and_self, if_true]
  | follow hat hname hup hshort hlook hgo htarget _ ih =>
    rw [resolveFrom_cons, hat]
    simp only [hname, hup, hshort, Bool.false_eq_true, if_false, hlook, hgo, Workspace.follow,
      htarget]
    exact ih

/-- What `resolveFrom` finds is what the tree holds at the place reached. -/
theorem at?_of_resolveFrom (h : w.resolveFrom followLast links here names = .ok p) :
    w.root.at? p.location = some p.node := by
  replace h := leads_of_resolveFrom h
  induction h with
  | here hat => exact hat
  | stay _ _ _ ih | up _ _ ih | down _ _ _ _ _ _ _ ih | follow _ _ _ _ _ _ _ _ ih => exact ih
  | link hat _ _ _ hlook => rw [at?_concat hat, hlook]

/-- A path that does not lead to a link leads to the same place when links at its end are
followed. -/
theorem resolveFrom_of_not_link (h : w.resolveFrom false links here names = .ok p)
    (hp : p.node.isLink = false) : w.resolveFrom true links here names = .ok p := by
  refine Leads.resolveFrom ?_
  replace h := leads_of_resolveFrom h
  induction h with
  | here hat => exact .here hat
  | stay hat hname _ ih => exact .stay hat hname (ih hp)
  | up hat _ ih => exact .up hat (ih hp)
  | down hat hname hup hshort hlook hlink _ ih =>
    exact .down hat hname hup hshort hlook hlink (ih hp)
  | link => cases hp
  | follow hat hname hup hshort hlook _ htarget _ ih =>
    exact .follow hat hname hup hshort hlook (by simp) htarget (ih hp)

theorem Leads.linksLeft_le {l : Location} (h : Leads w followLast links l names p) :
    p.linksLeft ≤ links := by
  induction h with
  | here | link => exact Nat.le_refl _
  | stay _ _ _ ih | up _ _ ih | down _ _ _ _ _ _ _ ih => exact ih
  | follow _ _ _ _ _ _ _ _ ih => exact ih.trans (Nat.le_succ _)

/-- A way on which no link is followed leads where `Path.step` goes in the text alone. -/
theorem location_of_straight (h : w.resolveFrom followLast links here names = .ok p)
    (hlinks : p.linksLeft = links) : p.location = names.foldl step here := by
  replace h := leads_of_resolveFrom h
  induction h with
  | here => rfl
  | stay _ hname _ ih =>
    rw [foldl_cons, step, if_pos hname]
    exact ih hlinks
  | up _ _ ih => exact ih hlinks
  | down _ hname hup _ _ _ _ ih =>
    rw [foldl_cons, step, if_neg (by simp [hname]), if_neg hup]
    exact ih hlinks
  | link _ hname hup => rw [foldl_cons, step, if_neg (by simp [hname]), if_neg hup]; rfl
  | follow _ _ _ _ _ _ _ hway _ =>
    -- a link that was followed is missing in the end
    have hle := hway.linksLeft_le
    omega

/-! ## Poorer trees -/

end Workspace

/-- A node that lets less through: of the same kind, with the same bytes or the same target, and
open only where the other is. -/
def Node.Fits : Node → Node → Prop
  | .file bytes, .file bytes' => bytes = bytes'
  | .link target, .link target' => target = target'
  | .directory isOpen _, .directory isOpen' _ => isOpen = true → isOpen' = true
  | _, _ => False

theorem Node.Fits.refl (n : Node) : n.Fits n := by
  cases n <;> simp [Node.Fits]

theorem Node.Fits.trans {a b c : Node} (hab : a.Fits b) (hbc : b.Fits c) : a.Fits c := by
  cases a <;> cases b <;> cases c <;> simp_all [Node.Fits]

theorem Node.Fits.isLink_eq {n m : Node} (h : n.Fits m) : n.isLink = m.isLink := by
  cases n <;> cases m <;> simp_all [Node.Fits, isLink]

theorem Node.Fits.eq_link {target : String} {m : Node} (h : (link target).Fits m) :
    m = .link target := by
  cases m with
  | file _ | directory _ _ => exact absurd h (by simp [Node.Fits])
  | link target' =>
    have htarget : target = target' := h
    rw [htarget]

theorem Node.Fits.eq_file {bytes : List UInt8} {m : Node} (h : (file bytes).Fits m) :
    m = .file bytes := by
  cases m with
  | link _ | directory _ _ => exact absurd h (by simp [Node.Fits])
  | file bytes' =>
    have hbytes : bytes = bytes' := h
    rw [hbytes]

namespace Workspace

/-- Everything in a workspace is in the other, too, and lets at least as much through there. -/
structure Poorer (w' w : Workspace) : Prop where
  base : w'.base = w.base
  fits : ∀ l n', w'.root.at? l = some n' → ∃ n, w.root.at? l = some n ∧ n'.Fits n

theorem Poorer.trans {a b c : Workspace} (hab : Poorer a b) (hbc : Poorer b c) : Poorer a c := by
  refine ⟨hab.base.trans hbc.base, fun l n h => ?_⟩
  obtain ⟨m, hm, hnm⟩ := hab.fits l n h
  obtain ⟨k, hk, hmk⟩ := hbc.fits l m hm
  exact ⟨k, hk, hnm.trans hmk⟩

theorem Poorer.home (h : Poorer w' w) : w'.home = w.home :=
  congrArg properComponents h.base

/-- An open directory of the poorer tree is open in the richer one. -/
theorem Poorer.directory (h : Poorer w' w) {l : Location} {es' : List (String × Node)}
    (hat : w'.root.at? l = some (.directory true es')) :
    ∃ es, w.root.at? l = some (.directory true es) := by
  obtain ⟨n, hn, hfits⟩ := h.fits l _ hat
  cases n with
  | file _ | link _ => exact absurd hfits (by simp [Node.Fits])
  | directory isOpen es =>
    have hopen : isOpen := hfits rfl
    exact ⟨es, by rw [hn, hopen]⟩

theorem Poorer.entry (h : Poorer w' w) {name : String} {es' : List (String × Node)} {c' : Node}
    (hat : w'.root.at? here = some (.directory true es')) (hlook : es'.lookup name = some c') :
    ∃ es c, w.root.at? here = some (.directory true es) ∧ es.lookup name = some c ∧ c'.Fits c := by
  obtain ⟨es, hes⟩ := h.directory hat
  have hchild : w'.root.at? (here ++ [name]) = some c' := by rw [at?_concat hat, hlook]
  obtain ⟨c, hc, hfits⟩ := h.fits _ _ hchild
  rw [at?_concat hes] at hc
  exact ⟨es, c, hes, hc, hfits⟩

/-- `resolveFrom` leads in a `Poorer` tree only where it leads in the richer one. -/
theorem Poorer.resolveFrom (hw : Poorer w' w)
    (h : w'.resolveFrom followLast links here names = .ok p) :
    ∃ n, w.resolveFrom followLast links here names = .ok ⟨p.location, n, p.linksLeft⟩ := by
  suffices hway : ∃ n, Leads w followLast links here names ⟨p.location, n, p.linksLeft⟩ by
    obtain ⟨n, hn⟩ := hway
    exact ⟨n, hn.resolveFrom⟩
  -- every step of the way is open in the richer tree, too, and links there have the same targets
  replace h := leads_of_resolveFrom h
  induction h with
  | here hat =>
    obtain ⟨n, hn, -⟩ := hw.fits _ _ hat
    exact ⟨n, .here hn⟩
  | stay hat hname _ ih =>
    obtain ⟨n, hn⟩ := ih
    obtain ⟨es, hes⟩ := hw.directory hat
    exact ⟨n, .stay hes hname hn⟩
  | up hat _ ih =>
    obtain ⟨n, hn⟩ := ih
    obtain ⟨es, hes⟩ := hw.directory hat
    exact ⟨n, .up hes hn⟩
  | down hat hname hup hshort hlook hlink _ ih =>
    obtain ⟨n, hn⟩ := ih
    obtain ⟨es, c, hes, hc, hfits⟩ := hw.entry hat hlook
    exact ⟨n, .down hes hname hup hshort hc (hfits.isLink_eq.symm.trans hlink) hn⟩
  | link hat hname hup hshort hlook hlast =>
    obtain ⟨es, c, hes, hc, hfits⟩ := hw.entry hat hlook
    obtain rfl := hfits.eq_link
    exact ⟨_, .link hes hname hup hshort hc hlast⟩
  | follow hat hname hup hshort hlook hgo htarget _ ih =>
    obtain ⟨n, hn⟩ := ih
    obtain ⟨es, c, hes, hc, hfits⟩ := hw.entry hat hlook
    obtain rfl := hfits.eq_link
    exact ⟨n, .follow hes hname hup hshort hc hgo htarget hn⟩

/-! ## Nodes of one kind -/

/-- Nothing at either place, or nodes of one kind: files, links with one target, or directories as
open as each other. -/
inductive SameKind : Option Node → Option Node → Prop
  | none : SameKind none none
  | file (bytes bytes' : List UInt8) : SameKind (some (.file bytes)) (some (.file bytes'))
  | link (target : String) : SameKind (some (.link target)) (some (.link target))
  | directory (isOpen : Bool) (es es' : List (String × Node)) :
    SameKind (some (.directory isOpen es)) (some (.directory isOpen es'))

theorem SameKind.refl (found : Option Node) : SameKind found found := by
  rcases found with _ | _ | _ | _ <;> constructor

theorem SameKind.of_fits {n n' : Node} (h : n.Fits n') (h' : n'.Fits n) :
    SameKind (some n) (some n') := by
  cases n with
  | file bytes =>
    cases n' with
    | file bytes' => exact .file bytes bytes'
    | link _ | directory _ _ => exact absurd h (by simp [Node.Fits])
  | link target =>
    rw [h.eq_link]
    exact .link target
  | directory isOpen es =>
    cases n' with
    | file _ | link _ => exact absurd h (by simp [Node.Fits])
    | directory isOpen' es' =>
      have hopen : isOpen = isOpen' := by
        cases isOpen <;> cases isOpen' <;> simp_all [Node.Fits]
      rw [hopen]
      exact .directory isOpen' es es'

/-- One component leads to the same in two trees, as far as `view` tells, if they hold nodes of one
kind where it is looked up and under its name, and if the rest leads to the same. -/
theorem resolveFrom_cons_congr {β : Type} (view : Place → β) {name : String} {rest : List String}
    {l : Location} (hhere : SameKind (w.root.at? l) (w'.root.at? l))
    (hstay : (name = "" || name = ".") = true → (w'.resolveFrom followLast links l rest).map view =
      (w.resolveFrom followLast links l rest).map view)
    (hup : name = ".." → (w'.resolveFrom followLast links l.dropLast rest).map view =
      (w.resolveFrom followLast links l.dropLast rest).map view)
    (hdown : (name = "" || name = ".") = false →
      SameKind (w.root.at? (l ++ [name])) (w'.root.at? (l ++ [name])) ∧
        (w'.resolveFrom followLast links (l ++ [name]) rest).map view =
          (w.resolveFrom followLast links (l ++ [name]) rest).map view)
    (hfollow : (name = "" || name = ".") = false → ∀ target,
      w.root.at? (l ++ [name]) = some (.link target) →
        (w'.follow followLast links l target rest).map view =
          (w.follow followLast links l target rest).map view) :
    (w'.resolveFrom followLast links l (name :: rest)).map view =
      (w.resolveFrom followLast links l (name :: rest)).map view := by
  rw [Workspace.resolveFrom_cons, Workspace.resolveFrom_cons]
  cases hat : w.root.at? l with
  | none =>
    rw [hat] at hhere
    generalize w'.root.at? l = found at hhere
    cases hhere
    rfl
  | some n =>
    rw [hat] at hhere
    cases hat' : w'.root.at? l with
    | none => rw [hat'] at hhere; cases hhere
    | some n' =>
      rw [hat'] at hhere
      cases hhere with
      | file | link => rfl
      | directory isOpen es es' =>
        cases isOpen with
        | false => rfl
        | true =>
          cases hblank : (decide (name = "") || decide (name = ".")) with
          | true =>
            simp only [if_true]
            exact hstay hblank
          | false =>
            simp only [Bool.false_eq_true, if_false]
            split
            · exact hup ‹_›
            split
            · rfl
            -- the entries are what the places below hold
            obtain ⟨hentry, hdown⟩ := hdown hblank
            have hfollow := hfollow hblank
            rw [at?_concat hat] at hentry hfollow
            rw [at?_concat hat'] at hentry
            generalize es.lookup name = entry at hentry hfollow
            generalize es'.lookup name = entry' at hentry
            cases hentry with
            | none => rfl
            | file | directory => exact hdown
            | link target =>
              simp only
              split
              · rfl
              · exact hfollow target rfl

end Workspace

/-! ## Tame trees -/

/-- A file, or a directory whose entries have names that are names, each of them once. -/
def Node.isTame : Node → Bool
  | .file _ => true
  | .link _ => false
  | .directory _ es => es.all (fun e => isName e.1) && (es.map Prod.fst).Nodup

theorem Node.isTame_directory {isOpen : Bool} {es : List (String × Node)} :
    isTame (.directory isOpen es) ↔ (∀ e ∈ es, isName e.1) ∧ (es.map Prod.fst).Nodup := by
  simp [isTame]

theorem Node.isTame_keptByEntries : KeptByEntries isTame isName := by
  intro o es name value h hname
  rw [isTame_directory] at h ⊢
  refine ⟨fun e he => ?_, nodup_putEntry h.2⟩
  rcases mem_of_mem_putEntry he with hold | ⟨hnew, -⟩
  · exact h.1 e hold
  · rw [hnew]
    exact hname

theorem Node.isLink_of_tame {n : Node} (h : n.all isTame) : n.isLink = false := by
  cases n with
  | file _ | directory _ _ => rfl
  | link _ => exact absurd (ok_of_all h) (by simp [isTame])

namespace Workspace

/-- An empty component in front changes nothing where a path leads. -/
theorem resolveFrom_of_empty_cons (h : w.resolveFrom followLast links here ("" :: names) = .ok p) :
    w.resolveFrom followLast links here names = .ok p := by
  rw [resolveFrom_cons] at h
  split at h
  · simpa using h
  · cases h
  · cases h
  · cases h

/-- `resolve` leads somewhere exactly if a path is one at all and its components lead there. -/
theorem resolve_eq_ok_iff {path : String} : w.resolve followLast path = .ok p ↔
      '\x00' ∉ path.toList ∧ path ≠ "" ∧ path.utf8ByteSize ≤ pathLimit ∧
        w.resolveFrom followLast linkLimit (start w.home path) (components path) = .ok p := by
  unfold resolve
  by_cases hnull : path.toList.contains '\x00'
  · have : '\x00' ∈ path.toList := by simpa using hnull
    simp [this]
  have hnull' : '\x00' ∉ path.toList := by simpa using hnull
  by_cases hempty : path = ""
  · simp [hempty]
  by_cases hlong : pathLimit < path.utf8ByteSize
  · simp [hnull', hempty, hlong, Nat.not_le.mpr hlong]
  simp only [hnull, hempty, hlong, Bool.false_eq_true, if_false, hnull', not_false_eq_true, ne_eq,
    true_and, Nat.not_lt.mp hlong]
  cases w.resolveFrom followLast linkLimit (start w.home path) (components path) with
  | error _ | ok _ => simp [Except.mapError]

/-- What `resolve` finds is what the tree holds at the place reached. -/
theorem at?_of_resolve {path : String} (h : w.resolve followLast path = .ok p) :
    w.root.at? p.location = some p.node :=
  at?_of_resolveFrom (resolve_eq_ok_iff.mp h).2.2.2

end Workspace

end CodeAtlas
