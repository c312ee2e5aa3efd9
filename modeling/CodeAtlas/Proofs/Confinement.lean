import CodeAtlas.Proofs.Ancestry
import CodeAtlas.Proofs.Changes

/-!
# Changes confined to one directory

A directory of the working directory holds others side by side, and no links are in it (`Tidy`). A
change that makes no link, at the place of one of them or below, `Advances` the workspace: it stays
tidy, and all else stays as it was (`change_advances`). So do `makeDirectories` of the directory
that holds them (`makeDirectories_advances`) and `removeTree` of one of them
(`removeTree_advances`). What paths in the directories beside it lead to is the same before and
after (`Spares.resolve_beside`).
-/

open List

namespace CodeAtlas

open CodeAtlas.Path Node

variable {es : List (String × Node)}

namespace Node

/-! ## What is left of a tree -/

/-- `leftOf` stops at the first entry of which something is left. -/
theorem leftOf_cases {left : List (String × Node)} (h : leftOf es = some left) :
    ∃ gone name n n' rest, es = gone ++ (name, n) :: rest ∧ leftAt n = some n' ∧
      left = (name, n') :: rest := by
  induction es with
  | nil => cases h
  | cons first rest ih =>
    obtain ⟨name, n⟩ := first
    rw [leftOf] at h
    cases hleft : leftAt n with
    | some n' =>
      rw [hleft] at h
      exact ⟨[], name, n, n', rest, rfl, hleft, (Option.some.inj h).symm⟩
    | none =>
      rw [hleft] at h
      obtain ⟨gone, other, m, m', more, rfl, hm, rfl⟩ := ih h
      exact ⟨(name, n) :: gone, other, m, m', more, rfl, hm, rfl⟩

/-- What `leftOf` leaves in a directory was there, or is what `leftAt` left of what was there. -/
theorem mem_of_leftOf {left : List (String × Node)} (h : leftOf es = some left) {e : String × Node}
    (he : e ∈ left) : e ∈ es ∨ ∃ n, (e.1, n) ∈ es ∧ leftAt n = some e.2 := by
  obtain ⟨gone, name, n, n', rest, rfl, hleft, rfl⟩ := leftOf_cases h
  rcases mem_cons.mp he with rfl | he
  · exact .inr ⟨n, by simp, hleft⟩
  · exact .inl (by simp [he])

/-- The names that `leftOf` leaves are some of those that were there, in their order. -/
theorem sublist_of_leftOf {left : List (String × Node)} (h : leftOf es = some left) :
    left.map Prod.fst <+ es.map Prod.fst := by
  obtain ⟨gone, name, n, n', rest, rfl, -, rfl⟩ := leftOf_cases h
  simp

/-- What `leftAt` leaves of a tree without links has none. -/
theorem isTame_leftAt {n n' : Node} (h : n.all isTame) (hleft : leftAt n = some n') :
    n'.all isTame := by
  induction n using entriesInduction generalizing n' with
  | file _ | link _ => cases hleft
  | directory isOpen es ih =>
    cases isOpen with
    | false =>
      cases hleft
      exact h
    | true =>
      rw [leftAt] at hleft
      obtain ⟨left, hes, rfl⟩ := Option.map_eq_some_iff.mp hleft
      rw [all, Bool.and_eq_true, allEntries_eq_true, isTame_directory] at h ⊢
      obtain ⟨⟨hnames, hnodup⟩, hbelow⟩ := h
      refine ⟨⟨fun e he => ?_, (sublist_of_leftOf hes).nodup hnodup⟩, fun e he => ?_⟩
      · rcases mem_of_leftOf hes he with hold | ⟨m, hm, -⟩
        · exact hnames e hold
        · exact hnames (e.1, m) hm
      · rcases mem_of_leftOf hes he with hold | ⟨m, hm, hmleft⟩
        · exact hbelow e hold
        · exact ih _ hm (hbelow _ hm) hmleft

/-- What `leftAt` leaves of a tree without links has no file that the tree did not have. -/
theorem at?_of_leftAt {n n' : Node} (h : n.all isTame) (hleft : leftAt n = some n')
    {r : List String} {bytes : List UInt8} (hfile : n'.at? r = some (.file bytes)) :
    n.at? r = some (.file bytes) := by
  induction n using entriesInduction generalizing n' r with
  | file _ | link _ => cases hleft
  | directory isOpen es ih =>
    cases isOpen with
    | false =>
      cases hleft
      exact hfile
    | true =>
      rw [leftAt] at hleft
      obtain ⟨left, hes, rfl⟩ := Option.map_eq_some_iff.mp hleft
      rw [all, Bool.and_eq_true, allEntries_eq_true, isTame_directory] at h
      obtain ⟨⟨-, hnodup⟩, hbelow⟩ := h
      cases r with
      | nil => cases hfile
      | cons name rest =>
        obtain ⟨c', hc', hrest⟩ := Option.bind_eq_some_iff.mp (at?_cons _ name rest ▸ hfile)
        have hnodup' := (sublist_of_leftOf hes).nodup hnodup
        have hmem : (name, c') ∈ left := (lookup_eq_some_iff_mem hnodup').mp hc'
        -- the entry is one of the tree, or what is left of one
        rcases mem_of_leftOf hes hmem with hold | ⟨c, hc, hcleft⟩
        · rw [at?_cons, child?, entries, (lookup_eq_some_iff_mem hnodup).mpr hold]
          exact hrest
        · rw [at?_cons, child?, entries, (lookup_eq_some_iff_mem hnodup).mpr hc]
          exact ih _ hc (hbelow _ hc) hcleft hrest

end Node

namespace Workspace

variable {base top name path : String} {names : List String} {w w' : Workspace}
variable {l rest : Location} {followLast : Bool}

/-- A working directory that is where its path says, and whose entry `top` has no links in it. -/
structure Tidy (base top : String) (w : Workspace) : Prop where
  spells : Spells base (properComponents base)
  home : ∃ isOpen es, w.root.at? (properComponents base) = some (.directory isOpen es)
  tame : ∀ n, w.root.at? (properComponents base ++ [top]) = some n → n.all isTame = true
  base : w.base = base

variable {n : Node} {p : Place} {f : Option Node → Option Node} {other : String}

theorem Tidy.tame_of_at? (h : Tidy base top w)
    (hn : w.root.at? (properComponents base ++ top :: names) = some n) : n.all isTame := by
  rw [append_cons, at?_append] at hn
  obtain ⟨above, habove, hbelow⟩ := Option.bind_eq_some_iff.mp hn
  exact all_of_at? (h.tame above habove) hbelow

/-! ## Where paths lead in a tidy workspace -/

/-- No link is on the way through `top`. -/
theorem Tidy.no_link (h : Tidy base top w) {k : Location}
    (hk : k <+: properComponents base ++ top :: names) (target : String) :
    w.root.at? k ≠ some (.link target) := by
  intro hlink
  rcases prefix_or_prefix_of_prefix hk (prefix_append _ _) with ⟨r, hr⟩ | ⟨r, rfl⟩
  · -- the working directory is a directory, so all above it are
    obtain ⟨isOpen, es, hhome⟩ := h.home
    rw [← hr, at?_append, hlink, Option.bind_some] at hhome
    cases r with
    | nil | cons _ _ => cases hhome
  · rw [prefix_append_right_inj] at hk
    cases r with
    | nil =>
      obtain ⟨isOpen, es, hhome⟩ := h.home
      rw [append_nil, hhome] at hlink
      cases hlink
    | cons first rest =>
      obtain ⟨more, hmore⟩ := hk
      cases hmore
      cases isLink_of_tame (h.tame_of_at? hlink)

/-- A path that `Spells` a place on the way through `top` leads there, and to no link. -/
theorem Tidy.location_of_resolve (h : Tidy base top w)
    (hpath : Spells path (properComponents base ++ l)) (hl : l <+: top :: names)
    (hp : w.resolve followLast path = .ok p) :
    p.location = properComponents base ++ l ∧
      w.root.at? (properComponents base ++ l) = some p.node ∧ p.node.isLink = false := by
  have hway : properComponents base ++ l <+: properComponents base ++ top :: names :=
    (prefix_append_right_inj _).mpr hl
  have hlocation := hpath.location (fun k hk target => h.no_link (hk.trans hway) target) hp
  have hat := at?_of_resolve hp
  rw [hlocation] at hat
  refine ⟨hlocation, hat, ?_⟩
  cases hnode : p.node with
  | file _ | directory _ _ => rfl
  | link target => exact absurd (hnode ▸ hat) (h.no_link hway target)

/-- What such a path finds is what the tree holds there. -/
theorem Tidy.at?_of_find? (h : Tidy base top w) (hpath : Spells path (properComponents base ++ l))
    (hl : l <+: top :: names) (hn : w.find? path = some n) :
    w.root.at? (properComponents base ++ l) = some n := by
  unfold find? at hn
  cases hp : w.resolve true path with
  | error e => rw [hp] at hn; cases hn
  | ok p =>
    rw [hp] at hn
    cases hn
    exact (h.location_of_resolve hpath hl hp).2.1

/-! ## Changes that keep a workspace tidy -/

theorem Spares.directory {place : Location} (h : Spares place w w') (hl : ¬ place <+: l)
    {isOpen : Bool} (hat : w.root.at? l = some (.directory isOpen es)) :
    ∃ es', w'.root.at? l = some (.directory isOpen es') := by
  obtain ⟨n', hn', hfits, hfits'⟩ := h.kept l _ hl hat
  have hkind := SameKind.of_fits hfits' hfits
  cases hkind with
  | directory _ _ es' => exact ⟨es', hn'⟩

/-- A change below the working directory leaves it a directory. -/
theorem Spares.home (hs : Spares (properComponents base ++ top :: rest) w w')
    (h : ∃ isOpen es, w.root.at? (properComponents base) = some (.directory isOpen es)) :
    ∃ isOpen es, w'.root.at? (properComponents base) = some (.directory isOpen es) := by
  obtain ⟨isOpen, es, hat⟩ := h
  refine ⟨isOpen, hs.directory (fun hprefix => ?_) hat⟩
  have hlen := hprefix.length_le
  rw [length_append, length_cons] at hlen
  omega

/-- A change below `top` that makes no link keeps `Tidy`. -/
theorem Tidy.change (h : Tidy base top w) (hne : rest ≠ []) (hrest : ∀ name ∈ rest, isName name)
    (hf : ∀ old new, (∀ o, old = some o → o.all isTame) → f old = some new →
      new.all isTame) : Tidy base top (w.change (properComponents base ++ top :: rest) f) := by
  refine ⟨h.spells, (change_spares w _ f).home h.home, fun n hn => ?_, h.base⟩
  have habove := at?_alter_of_above f (properComponents base ++ [top]) hne w.root
  rw [change_root] at hn
  rw [append_assoc, singleton_append, hn] at habove
  obtain ⟨old, hold, hnew⟩ := Option.map_eq_some_iff.mp habove.symm
  rw [← hnew]
  exact all_alter isTame_keptByEntries hf hrest (h.tame old hold)

/-- From a `Tidy` workspace to a tidy one, with nothing changed but one directory in `top`. -/
def Advances (base top name : String) (w w' : Workspace) : Prop :=
  Tidy base top w → Tidy base top w' ∧ Spares (properComponents base ++ [top, name]) w w'

instance (base top name : String) : IsPreorder Workspace (Advances base top name) where
  refl w h := ⟨h, refl_of (Spares _) w⟩
  trans a b c hab hbc h := by
    obtain ⟨hb, hspares⟩ := hab h
    obtain ⟨hc, hspares'⟩ := hbc hb
    exact ⟨hc, trans_of (Spares _) hspares hspares'⟩

/-- A change at the place of a directory that makes no link `Advances`. -/
theorem change_advances (w : Workspace) (hname : isName name)
    (hf : ∀ old new, (∀ o, old = some o → o.all isTame) → f old = some new →
      new.all isTame) :
    Advances base top name w (w.change (properComponents base ++ [top, name]) f) := by
  intro h
  exact ⟨h.change (by simp) (by simpa using hname) hf, change_spares w _ f⟩

theorem put_advances (w : Workspace) (hname : isName name) (hn : n.all isTame) :
    Advances base top name w (w.put (properComponents base ++ [top, name]) n) :=
  change_advances w hname fun _ _ _ hnew => Option.some.inj hnew ▸ hn

/-! ## Making `top` -/

/-- Where `top` is not there, making it changes nothing else: all that could be in it is missing
before and after. -/
theorem put_top_advances (name : String)
    (hnone : w.root.at? (properComponents base ++ [top]) = none) :
    Advances base top name w (w.put (properComponents base ++ [top]) .emptyDirectory) := by
  intro h
  obtain ⟨isOpen, es, hhome⟩ := h.home
  have hspares := change_spares w (properComponents base ++ [top]) fun _ => some .emptyDirectory
  have hput := at?_alter_concat top (fun _ => some .emptyDirectory) hhome
    (.inr (Option.some_ne_none _))
  have hnothing : ∀ r, w.root.at? (properComponents base ++ top :: r) = none := by
    intro r
    rw [append_cons, at?_append, hnone]
    rfl
  refine ⟨⟨h.spells, hspares.home h.home, fun n hn => ?_, h.base⟩, rfl, ?_, ?_⟩
  · rw [put_root, hput] at hn
    cases hn
    rfl
  · intro l n hl hn
    refine hspares.kept l n (fun hbelow => ?_) hn
    obtain ⟨r, rfl⟩ := hbelow
    rw [append_assoc, singleton_append, hnothing] at hn
    cases hn
  · intro l hl hl'
    by_cases hbelow : properComponents base ++ [top] <+: l
    · obtain ⟨r, rfl⟩ := hbelow
      rw [append_assoc, singleton_append, hnothing, put_root, hput]
      cases r with
      | nil => exact absurd ⟨[name], by simp⟩ hl'
      | cons next more => rfl
    · exact hspares.beside l hbelow fun habove => hl' (habove.trans ⟨[name], by simp⟩)

/-- `makeDirectory` of `top` puts an empty directory at its place, where nothing was. -/
theorem Tidy.makeDirectory (h : Tidy base top w) (htop : isName top)
    (hmade : w.makeDirectory (join base top) = .ok w') :
    w' = w.put (properComponents base ++ [top]) .emptyDirectory ∧
      w.root.at? (properComponents base ++ [top]) = none := by
  obtain ⟨place, last, hplace, rfl, p, hmissing⟩ := makeDirectory_eq_ok hmade
  have hspells := h.spells.join htop
  have htrim := dropTrailingSlashes_of_isSolid (isSolid_join base htop)
  obtain ⟨hlast, es, links, hres⟩ := place?_eq_ok hplace
  rw [htrim] at hlast hres
  have hne := parent_ne_empty hspells.absolute
  have hparent : Spells (parent (join base top)) (properComponents base ++ []) := by
    obtain ⟨k, -, hk⟩ := hspells.above (htrim.symm ▸ hne)
    rw [htrim] at hk
    rwa [append_nil, ← properComponents_parent_join base htop, hk.proper]
  rw [if_neg hne] at hres
  obtain ⟨rfl, -, -⟩ := h.location_of_resolve hparent (List.nil_prefix (l := [top])) hres
  rw [hlast, baseName_join base htop, append_nil]
  refine ⟨rfl, ?_⟩
  -- were something there, the path would lead to it
  cases hat : w.root.at? (properComponents base ++ [top]) with
  | none => rfl
  | some n =>
    exact absurd hmissing
      (hspells.resolve_ne_notFound hat (isLink_of_tame (h.tame n hat)) p)

/-- `makeDirectories` of `top` makes at most `top`: what is above it is there. -/
theorem makeDirectories_advances (htop : isName top) (name : String)
    (hmade : w.makeDirectories (join base top) = .ok w') : Advances base top name w w' := by
  refine makeDirectories_chain (fun v p v' hp _ hv h => ?_) hmade
  rcases mem_ancestry_join h.spells htop hp with rfl | ⟨k, ⟨r, hr⟩, hspells⟩
  · obtain ⟨rfl, hnone⟩ := h.makeDirectory htop hv
    exact put_top_advances name hnone h
  · obtain ⟨-, -, -, -, q, hq⟩ := makeDirectory_eq_ok hv
    obtain ⟨isOpen, es, hhome⟩ := h.home
    rw [← hr, at?_append] at hhome
    obtain ⟨n, hn, hbelow⟩ := Option.bind_eq_some_iff.mp hhome
    have hlink : n.isLink = false := by
      cases n with
      | file _ | directory _ _ => rfl
      | link _ => cases r <;> cases hbelow
    exact absurd hq (hspells.resolve_ne_notFound hn hlink q)

/-! ## Removing a directory -/

/-- `Advances` in which the one directory gets no file that it did not have. -/
def Thins (base top name : String) (w w' : Workspace) : Prop :=
  Advances base top name w w' ∧ (Tidy base top w → ∀ r bytes,
    w'.root.at? (properComponents base ++ [top, name] ++ r) = some (.file bytes) →
      w.root.at? (properComponents base ++ [top, name] ++ r) = some (.file bytes))

instance (base top name : String) : IsPreorder Workspace (Thins base top name) where
  refl w := ⟨refl_of (Advances base top name) w, fun _ _ _ hfile => hfile⟩
  trans a b c hab hbc := by
    refine ⟨trans_of (Advances base top name) hab.1 hbc.1, fun h r bytes hfile => ?_⟩
    exact hab.2 h r bytes (hbc.2 (hab.1 h).1 r bytes hfile)

/-- A change at the place of a directory that makes no link and brings in no file. -/
theorem change_thins (hname : isName name)
    (hf : ∀ old new, (∀ o, old = some o → o.all isTame) → f old = some new →
      new.all isTame)
    (hfiles : Tidy base top w → ∀ new r bytes,
      f (w.root.at? (properComponents base ++ [top, name])) = some new →
      new.at? r = some (.file bytes) →
        w.root.at? (properComponents base ++ [top, name] ++ r) = some (.file bytes)) :
    Thins base top name w (w.change (properComponents base ++ [top, name]) f) := by
  refine ⟨change_advances w hname hf, fun h r bytes hfile => ?_⟩
  have hplace : properComponents base ++ [top, name] = properComponents base ++ [top] ++ [name] :=
    append_cons _ top [name]
  rw [change_root, hplace, append_assoc _ [name] r, singleton_append] at hfile
  have habove := at?_alter_of_above f (properComponents base ++ [top]) (cons_ne_nil name [])
    w.root
  -- the directory that holds it is there, with names of which none is there twice
  cases hat : w.root.at? (properComponents base ++ [top]) with
  | none =>
    rw [hat] at habove
    rw [at?_append, habove] at hfile
    cases hfile
  | some n =>
    cases n with
    | file _ | link _ =>
      rw [hat] at habove
      rw [at?_append, habove] at hfile
      cases hfile
    | directory isOpen es =>
      have hnodup := (isTame_directory.mp (ok_of_all (h.tame _ hat))).2
      rw [at?_alter_concat _ _ hat (.inl hnodup)] at hfile
      obtain ⟨new, hnew, hr⟩ := Option.bind_eq_some_iff.mp hfile
      refine hfiles h new r bytes ?_ hr
      rw [hplace, at?_concat hat]
      exact hnew

/-- `removeTree` of a directory in `top`, as far as it can be removed, `Thins` it. -/
theorem removeTree_thins (hname : isName name)
    (hpath : Spells path (properComponents base ++ [top, name])) (h : Tidy base top w) :
    Thins base top name w (w.removeTree path).1 := by
  cases hp : w.resolve false path with
  | error e =>
    unfold removeTree
    rw [hp]
    exact refl_of (Thins base top name) w
  | ok p =>
    obtain ⟨hlocation, hat, hlink⟩ := h.location_of_resolve hpath (prefix_rfl (l := [top, name])) hp
    have htame := h.tame_of_at? hat
    -- the four changes a removal is made of, each inside the copy
    refine removeTree_chain (R := Thins base top name) hp hlink (fun n hn => ?_) ?_
      (fun v => ?_) (fun v => ?_)
    · rw [hlocation]
      refine change_thins hname (fun _ _ _ hnew => ?_) fun _ new r bytes hnew hfile => ?_
      · cases hnew
        exact isTame_leftAt htame hn
      · cases hnew
        rw [at?_append, hat]
        exact at?_of_leftAt htame hn hfile
    · rw [hlocation]
      refine change_thins hname (fun _ _ _ hnew => Option.some.inj hnew ▸ rfl)
        fun _ new r bytes hnew hfile => ?_
      cases hnew
      cases r with
      | nil | cons _ _ => cases hfile
    · rw [hlocation]
      exact change_thins hname (fun _ _ _ hnew => by cases hnew) fun _ _ _ _ hnew => by cases hnew
    · rw [hlocation]
      refine change_thins hname (fun old new hold hnew => ?_) fun _ new r bytes hnew hfile => ?_
      · cases old with
        | none => cases hnew
        | some o =>
          have htame := hold o rfl
          cases o with
          | file _ | link _ => cases hnew; exact htame
          | directory isOpen es =>
            cases hnew
            rw [Node.all] at htame ⊢
            exact htame
      · rw [at?_append]
        cases hold : v.root.at? (properComponents base ++ [top, name]) with
        | none => rw [hold] at hnew; cases hnew
        | some o =>
          rw [hold] at hnew
          obtain ⟨m, hm, hfits⟩ := (at?_closed hnew r).2 _ hfile
          rw [Option.bind_some, hm, hfits.eq_file]

/-- So it `Advances` the workspace. -/
theorem removeTree_advances (hname : isName name)
    (hpath : Spells path (properComponents base ++ [top, name])) (w : Workspace) :
    Advances base top name w (w.removeTree path).1 :=
  fun h => (removeTree_thins hname hpath h).1 h

/-! ## What is beside the directory -/

/-- Another directory in `top` is the same, with all that is in it. -/
theorem Spares.at?_beside (hs : Spares (properComponents base ++ [top, name]) w w')
    (hne : other ≠ name) (names : List String) :
    w'.root.at? (properComponents base ++ top :: other :: names) =
      w.root.at? (properComponents base ++ top :: other :: names) := by
  refine hs.beside _ (fun hstart => hne ?_) fun hstart => hne ?_
  · rw [prefix_append_right_inj] at hstart
    simpa [eq_comm] using hstart
  · rw [prefix_append_right_inj] at hstart
    have hboth : name = other ∧ names = [] := by simpa [eq_comm] using hstart
    exact hboth.1.symm

/-- **What is beside the directory stays within reach.** Where another directory in `top` is there,
every path that spells a place in it leads to the same as before. -/
theorem Spares.resolve_beside (hs : Spares (properComponents base ++ [top, name]) w w')
    (h : Tidy base top w) (hne : other ≠ name)
    (hat : w.root.at? (properComponents base ++ [top, other]) = some n)
    (hpath : Spells path (properComponents base ++ top :: other :: names)) (followLast : Bool) :
    w'.resolve followLast path = w.resolve followLast path := by
  refine hpath.resolve_congr (fun k hk => ⟨?_, h.no_link hk⟩) (hs.at?_beside hne names)
  by_cases habove : k <+: properComponents base ++ [top]
  · -- a directory on the way to the other one, as open as it was
    obtain ⟨r, hr⟩ := habove
    have hthere : ∃ m, w.root.at? k = some m := by
      rw [show properComponents base ++ [top, other] = k ++ (r ++ [other]) by
        rw [← append_assoc, hr]; simp, at?_append] at hat
      obtain ⟨m, hm, -⟩ := Option.bind_eq_some_iff.mp hat
      exact ⟨m, hm⟩
    obtain ⟨m, hm⟩ := hthere
    have hout : ¬ properComponents base ++ [top, name] <+: k := by
      intro hbelow
      have hlen := (hbelow.trans ⟨r, hr⟩).length_le
      simp at hlen
    obtain ⟨m', hm', hfits, hfits'⟩ := hs.kept k m hout hm
    rw [hm, hm']
    exact .of_fits hfits' hfits
  · -- from the other directory on, everything is the same
    rw [append_cons] at hk
    rcases prefix_or_prefix_of_prefix hk (prefix_append _ _) with hbefore | ⟨r, rfl⟩
    · exact absurd hbefore habove
    cases r with
    | nil => exact absurd (by simp) habove
    | cons first rest =>
      rw [prefix_append_right_inj] at hk
      obtain ⟨more, hmore⟩ := hk
      cases hmore
      rw [append_assoc, singleton_append, hs.at?_beside hne]
      exact .refl _

end Workspace

end CodeAtlas
