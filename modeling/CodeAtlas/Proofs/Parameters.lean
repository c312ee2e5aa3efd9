import CodeAtlas.Outline.Python
import Mathlib.Data.List.Basic

/-!
# The parameters of a function

A signature keeps the defaults of all parameters that may be given by position in one list, without
saying whose they are: they belong to the last of these parameters. The outline deals them out again
to the ordinary parameters alone.

What the grammar allows (`Grammatical`) is all that its rule for parameters ever yields
(`Grammar.yields_functionParameters`). For such signatures it is settled here which default each
parameter is reported with (`parametersOf_eq`): its own, unless a parameter given by position only
has a default. Parameters given by position only are never reported.
-/

open List

namespace CodeAtlas

namespace Script

namespace Parameters

def inOrder (ps : Parameters) : List Parameter :=
  ps.positional ++ ps.ordinary ++ ps.rest.toList ++ ps.named ++ ps.namedRest.toList

/-- In a list of parameters, what follows a default has a default. -/
def Aligned (ps : List Parameter) : Prop :=
  ps.Pairwise fun p q => p.default.isSome = true → q.default.isSome = true

/-- What the grammar allows: of the parameters that may be given by position only the last have
defaults, and those for further arguments have none. -/
structure Grammatical (ps : Parameters) : Prop where
  aligned : Aligned (ps.positional ++ ps.ordinary)
  rest : ∀ p ∈ ps.rest, p.default = none
  namedRest : ∀ p ∈ ps.namedRest, p.default = none

/-! ## Alignment -/

variable {ps : List Parameter}

theorem aligned_append {ds : List Parameter} (hps : ∀ p ∈ ps, p.default = none)
    (hds : ∀ p ∈ ds, p.default.isSome) : Aligned (ps ++ ds) := by
  unfold Aligned
  rw [pairwise_append]
  refine ⟨?_, ?_, ?_⟩
  · apply pairwise_of_forall_mem_list
    intro p hp q _ hsome
    rw [hps p hp] at hsome
    cases hsome
  · apply pairwise_of_forall_mem_list
    intro p _ q hq _
    exact hds q hq
  · intro p hp q _ hsome
    rw [hps p hp] at hsome
    cases hsome

theorem map_some_filterMap (h : ∀ p ∈ ps, p.default.isSome) :
    (ps.filterMap Parameter.default).map some = ps.map Parameter.default := by
  induction ps with
  | nil => rfl
  | cons p rest ih =>
    obtain ⟨value, hvalue⟩ := Option.isSome_iff_exists.mp (h p mem_cons_self)
    rw [filterMap_cons_some hvalue, map_cons, map_cons, hvalue,
      ih fun q hq => h q (mem_cons_of_mem _ hq)]

/-- Defaults that are moved to the end, with nothing in the places before, are where they belong. -/
theorem replicate_append_defaults (h : Aligned ps) :
    replicate (ps.length - (ps.filterMap Parameter.default).length) none ++
      (ps.filterMap Parameter.default).map some = ps.map Parameter.default := by
  induction ps with
  | nil => rfl
  | cons p rest ih =>
    obtain ⟨hp, hrest⟩ := pairwise_cons.mp h
    cases hdefault : p.default with
    | none =>
      -- one more place without a default
      have hle := length_filterMap_le Parameter.default rest
      rw [filterMap_cons_none hdefault, length_cons, Nat.succ_sub hle,
        replicate_succ, cons_append, ih hrest, map_cons, hdefault]
    | some value =>
      -- every later parameter has a default, so no place is left empty
      have hall : ∀ q ∈ p :: rest, q.default.isSome := by
        intro q hq
        rcases mem_cons.mp hq with rfl | hq
        · rw [hdefault]
          rfl
        · apply hp q hq
          rw [hdefault]
          rfl
      have hlength := congrArg length (map_some_filterMap hall)
      rw [length_map, length_map] at hlength
      rw [hlength, Nat.sub_self, replicate_zero, nil_append, map_some_filterMap hall]

end Parameters

/-! ## What the grammar yields -/

namespace P

variable {α β : Type} {Q : α → Prop} {R : β → Prop}

/-- Whatever a parser yields, from any mark of any text, has a property. -/
def Yields (p : P α) (Q : α → Prop) : Prop :=
  ∀ e s a s', p e s = .yes a s' → Q a

theorem Yields.pure {a : α} (h : Q a) : Yields (Pure.pure a) Q := by
  intro e s b s' hb
  cases hb
  exact h

variable {p : P α} {f : α → P β}

theorem Yields.bind (hp : Yields p Q) (hf : ∀ a, Q a → Yields (f a) R) : Yields (p >>= f) R := by
  intro e s b s' hb
  simp only [Bind.bind] at hb
  cases hfirst : p e s with
  | yes a s₁ =>
    rw [hfirst] at hb
    exact hf a (hp e s a s₁ hfirst) e s₁ b s' hb
  | no _ | abort _ => rw [hfirst] at hb; cases hb

/-- Nothing need be known of what is not used. -/
theorem Yields.skip (hf : ∀ a, Yields (f a) R) : Yields (p >>= f) R :=
  .bind (Q := fun _ => True) (fun _ _ _ _ _ => trivial) fun a _ => hf a

theorem Yields.orElse {q : P α} (hp : Yields p Q) (hq : Yields q Q) : Yields (p <|> q) Q := by
  intro e s a s' ha
  change P.orElse p (fun _ => q) e s = _ at ha
  unfold P.orElse at ha
  cases hfirst : p e s with
  | yes b s₁ =>
    rw [hfirst] at ha
    cases ha
    exact hp e s _ _ hfirst
  | no s₁ =>
    rw [hfirst] at ha
    exact hq e _ a s' ha
  | abort b => rw [hfirst] at ha; cases ha

theorem Yields.explain {p : P Unit} : Yields (explain p : P α) Q := by
  intro e s a s' ha
  unfold P.explain at ha
  split at ha
  · cases hp : p e s <;> rw [hp] at ha <;> cases ha
  · cases ha

theorem Yields.optional {p : P α} (hp : Yields p Q) :
    Yields (optional p) fun o => ∀ a ∈ o, Q a := by
  refine .orElse (.bind hp fun a ha => .pure ?_) (.pure ?_)
  · simpa using ha
  · simp

theorem Yields.repeatAtMost {p : P α} (hp : Yields p Q) (n : Nat) :
    Yields (repeatAtMost p n) fun l => ∀ a ∈ l, Q a := by
  induction n with
  | zero => exact .pure (by simp)
  | succ n ih =>
    refine .orElse (.bind hp fun a ha => .bind ih fun l hl => .pure ?_)
      (.pure ?_)
    · simpa using ⟨ha, hl⟩
    · simp

theorem Yields.many {p : P α} (hp : Yields p Q) : Yields (many p) fun l => ∀ a ∈ l, Q a := by
  intro e s l s' hl
  exact hp.repeatAtMost _ e s l s' hl

theorem Yields.many1 {p : P α} (hp : Yields p Q) : Yields (many1 p) fun l => ∀ a ∈ l, Q a := by
  refine .bind hp fun a ha => .bind (.many hp) fun l hl => .pure ?_
  simpa using ⟨ha, hl⟩

end P

namespace Grammar.ParameterStyle

open P Parameters

def IsPlain (p : Parameter) : Prop :=
  p.default = none

def IsDefaulted (p : Parameter) : Prop :=
  p.default.isSome = true

/-- A style whose parameters get defaults from the rules alone. -/
structure IsBare (s : ParameterStyle) : Prop where
  parameter : Yields s.parameter IsPlain
  starParameter : Yields s.starParameter IsPlain

theorem isBare_functionStyle (g : Grammar) : (functionStyle g).IsBare := by
  constructor
  · exact .skip fun name => .skip fun hint => .pure rfl
  · exact .skip fun name => .skip fun hint => .pure rfl

/-- The parameters for further arguments have no defaults. -/
def TailIsPlain (tail : Tail) : Prop :=
  (∀ p ∈ tail.1, IsPlain p) ∧ ∀ p ∈ tail.2.2, IsPlain p

variable (g : Grammar) {s : ParameterStyle} (hs : s.IsBare)

theorem yields_defaulted (s : ParameterStyle) : Yields (s.defaulted g) IsDefaulted := by
  refine .skip fun p => .skip fun value => .skip fun _ => .pure ?_
  cases p
  rfl

include hs

theorem yields_plain : Yields s.plain IsPlain :=
  .bind hs.parameter fun _ hp => .skip fun _ => .pure hp

theorem yields_doubleStar : Yields s.doubleStar IsPlain :=
  .orElse .explain (.skip fun _ => yields_plain hs)

theorem yields_slashPlain : Yields s.slashPlain fun ps => ∀ p ∈ ps, IsPlain p :=
  .bind (.many1 (yields_plain hs)) fun _ hps => .skip fun _ => .pure hps

theorem yields_slashDefaulted :
    Yields (s.slashDefaulted g) fun l => ∃ ps ds, l = ps ++ ds ∧ (∀ p ∈ ps, IsPlain p) ∧
      ∀ p ∈ ds, IsDefaulted p :=
  .bind (.many (yields_plain hs)) fun ps hps =>
    .bind (.many1 (yields_defaulted g s)) fun ds hds =>
      .skip fun _ => .pure ⟨ps, ds, rfl, hps, hds⟩

theorem yields_star : Yields (s.star g) TailIsPlain := by
  have hdouble := Yields.optional (yields_doubleStar hs)
  refine .orElse .explain (.orElse ?_ (.orElse ?_ (.orElse ?_ ?_)))
  · refine .skip fun _ => .bind (yields_plain hs) fun rest hrest => ?_
    refine .skip fun named => .bind hdouble fun double hd => .pure ⟨?_, hd⟩
    simpa using hrest
  · refine .skip fun _ => .bind hs.starParameter fun rest hrest => ?_
    refine .skip fun _ => .skip fun named => ?_
    refine .bind hdouble fun double hd => .pure ⟨?_, hd⟩
    simpa using hrest
  · refine .skip fun _ => .skip fun _ => .skip fun named => ?_
    refine .bind hdouble fun double hd => .pure ⟨?_, hd⟩
    simp
  · refine .bind (yields_doubleStar hs) fun double hd => .pure ⟨?_, ?_⟩
    · simp
    · simpa using hd

omit hs in
/-- Parameters put together from parts that are in order. -/
theorem grammatical_assemble {positional ordinary ps ds : List Parameter} {tail : Option Tail}
    (hsplit : positional ++ ordinary = ps ++ ds) (hps : ∀ p ∈ ps, IsPlain p)
    (hds : ∀ p ∈ ds, IsDefaulted p) (htail : ∀ t ∈ tail, TailIsPlain t) :
    (assemble positional ordinary tail).Grammatical := by
  have haligned : Aligned (positional ++ ordinary) := by
    rw [hsplit]
    exact aligned_append hps hds
  cases tail with
  | none =>
    refine ⟨haligned, ?_, ?_⟩
    · simp [assemble, Parameters.rest]
    · simp [assemble, Parameters.namedRest]
  | some t =>
    obtain ⟨hrest, hnamedRest⟩ := htail t rfl
    exact ⟨haligned, hrest, hnamedRest⟩

theorem yields_ordered : Yields (s.ordered g) Grammatical := by
  have htail := Yields.optional (yields_star g hs)
  have hplain := Yields.many (yields_plain hs)
  have hdefaulted := Yields.many (yields_defaulted g s)
  refine .orElse ?_ (.orElse ?_ (.orElse ?_ (.orElse ?_ ?_)))
  · refine .bind (yields_slashPlain hs) fun positional hpos => ?_
    refine .bind hplain fun ps hps => .bind hdefaulted fun ds hds => ?_
    refine .bind htail fun tail ht => .pure ?_
    refine grammatical_assemble (append_assoc _ _ _).symm (fun p hp => ?_) hds ht
    rcases mem_append.mp hp with hp | hp
    · exact hpos p hp
    · exact hps p hp
  · refine .bind (yields_slashDefaulted g hs) fun positional hpos => ?_
    obtain ⟨ps, ds, rfl, hps, hds⟩ := hpos
    refine .bind hdefaulted fun ds' hds' => .bind htail fun tail ht => .pure ?_
    refine grammatical_assemble (append_assoc _ _ _) hps (fun p hp => ?_) ht
    rcases mem_append.mp hp with hp | hp
    · exact hds p hp
    · exact hds' p hp
  · refine .bind (.many1 (yields_plain hs)) fun ps hps => ?_
    refine .bind hdefaulted fun ds hds => .bind htail fun tail ht => .pure ?_
    exact grammatical_assemble (nil_append _) hps hds ht
  · refine .bind (.many1 (yields_defaulted g s)) fun ds hds => ?_
    refine .bind htail fun tail ht => .pure ?_
    exact grammatical_assemble (show [] ++ ds = [] ++ ds from rfl) (by simp) hds ht
  · refine .bind (yields_star g hs) fun tail ht => .pure ?_
    refine grammatical_assemble (show [] ++ [] = [] ++ [] from rfl) (by simp) (by simp) ?_
    simpa using ht

theorem yields_parameters : Yields (s.parameters g) Grammatical :=
  .orElse .explain (yields_ordered g hs)

end Grammar.ParameterStyle

/-- **What the rule `parameters` yields** is `Grammatical`, however deep rules may be nested. -/
theorem Grammar.yields_functionParameters (depth : Nat) :
    P.Yields (Grammar.upTo depth .parameters) Parameters.Grammatical := by
  cases depth with
  | zero =>
    intro e s ps s' hps
    cases hps
  | succ depth =>
    exact ParameterStyle.yields_parameters _ (ParameterStyle.isBare_functionStyle _)

end Script

namespace Python

open Script (Parameters)
open Script.Parameters

/-! ## What is reported -/

/-- A parameter as it is reported with the default of another one. -/
def reportWith (kind : ParameterKind) (p owner : Script.Parameter) : Parameter :=
  ⟨p.id, textOf p.hint, textOf owner.default, kind⟩

def reportOwn (kind : ParameterKind) (p : Script.Parameter) : Parameter :=
  reportWith kind p p

/-- The reports on the parameters after the ordinary ones, each with its own default. -/
def laterReports (ps : Parameters) : List Parameter :=
  ps.rest.toList.map (reportOwn .rest) ++ ps.named.map (reportOwn .named) ++
    ps.namedRest.toList.map (reportOwn .namedRest)

/-- The parameters given by position only that have defaults. -/
def positionalDefaulted (ps : Parameters) : List Script.Parameter :=
  ps.positional.filter (·.default.isSome)

variable {ps : Parameters}

/-- The defaults as they are dealt out: those of parameters given by position only come first. -/
theorem dealt_defaults (h : ps.Grammatical) :
    ps.ordinary.zipWith (fun p d => (⟨p.id, textOf p.hint, textOf d, .ordinary⟩ : Parameter))
        (replicate (ps.ordinary.length - (ps.defaults.map some).length) none ++
          ps.defaults.map some) =
      ps.ordinary.zipWith (reportWith .ordinary) (positionalDefaulted ps ++ ps.ordinary) := by
  have hdefaults : ps.defaults = (positionalDefaulted ps).filterMap Script.Parameter.default ++
      ps.ordinary.filterMap Script.Parameter.default := by
    unfold Script.Parameters.defaults positionalDefaulted
    have hself : ∀ p : Script.Parameter,
        (if p.default.isSome = true then p.default else none) = p.default := by
      intro p
      cases p.default <;> rfl
    simp only [filterMap_append, filterMap_filter, hself]
  obtain ⟨-, hordinary, hafter⟩ := pairwise_append.mp h.aligned
  have hgiven : ∀ p ∈ positionalDefaulted ps, p.default.isSome := by
    intro p hp
    exact (mem_filter.mp hp).2
  have hdealt : replicate (ps.ordinary.length - (ps.defaults.map some).length) none ++
      ps.defaults.map some = (positionalDefaulted ps ++ ps.ordinary).map Script.Parameter.default := by
    rw [length_map, hdefaults, map_append, map_append, map_some_filterMap hgiven]
    cases hcases : positionalDefaulted ps with
    | nil => exact replicate_append_defaults hordinary
    | cons first others =>
      -- a default before the ordinary parameters: each of these has one, too
      have hfirst : first ∈ positionalDefaulted ps := by
        rw [hcases]
        exact mem_cons_self
      have hall : ∀ p ∈ ps.ordinary, p.default.isSome := fun p hp =>
        hafter first (mem_filter.mp hfirst).1 p hp (hgiven first hfirst)
      have hlength := congrArg length (map_some_filterMap hall)
      rw [length_map, length_map] at hlength
      rw [map_some_filterMap hall, length_append, hlength, Nat.sub_eq_zero_of_le (by omega)]
      rfl
  rw [hdealt, zipWith_map_right]
  rfl

/-- **Which parameters `parametersOf` reports, and with which defaults.** -/
theorem parametersOf_eq (h : ps.Grammatical) : parametersOf ps =
      ps.ordinary.zipWith (reportWith .ordinary) (positionalDefaulted ps ++ ps.ordinary) ++
        laterReports ps := by
  unfold parametersOf laterReports
  simp only [dealt_defaults h, Option.toList_map, append_assoc]
  rfl

theorem map_name_zipWith {ps owners : List Script.Parameter} (h : ps.length ≤ owners.length) :
    (ps.zipWith (reportWith .ordinary) owners).map (·.name) = ps.map Script.Parameter.id := by
  induction ps generalizing owners with
  | nil => rfl
  | cons p rest ih =>
    cases owners with
    | nil => cases h
    | cons owner owners =>
      rw [zipWith_cons_cons, map_cons, map_cons, ih (Nat.le_of_succ_le_succ h)]
      rfl

theorem inOrder_drop (ps : Parameters) : ps.inOrder.drop ps.positional.length =
      ps.ordinary ++ (ps.rest.toList ++ (ps.named ++ ps.namedRest.toList)) := by
  unfold Script.Parameters.inOrder
  simp only [append_assoc, drop_left]

/-- `parametersOf` has the names of the signature, without the first ones. -/
theorem map_name_parametersOf (h : ps.Grammatical) :
    (parametersOf ps).map (·.name) =
      (ps.inOrder.drop ps.positional.length).map Script.Parameter.id := by
  have hlength : ps.ordinary.length ≤ (positionalDefaulted ps ++ ps.ordinary).length := by
    rw [length_append]
    omega
  rw [parametersOf_eq h, inOrder_drop, map_append, map_name_zipWith hlength]
  unfold laterReports
  simp only [map_append, map_map, append_assoc]
  rfl

/-- `parametersOf` has the own defaults if no parameter given by position only has one. -/
theorem parametersOf_eq_own (h : ps.Grammatical)
    (hpositional : ∀ p ∈ ps.positional, p.default = none) :
    parametersOf ps = ps.ordinary.map (reportOwn .ordinary) ++ laterReports ps := by
  have hnone : positionalDefaulted ps = [] := by
    unfold positionalDefaulted
    rw [filter_eq_nil_iff]
    intro p hp
    rw [hpositional p hp]
    exact Bool.false_ne_true
  rw [parametersOf_eq h, hnone, nil_append, zipWith_self]
  rfl

/-- **The parameters of a function.** Those given by position only are left out; all others are
reported once and in the order of the signature. All that are reported have their own defaults if
none is left out with a default. Otherwise the ordinary parameters are reported with the first of
all defaults, those of the parameters left out among them. So the reports are those of the signature
exactly if no parameter is given by position only. -/
theorem parameters_reported {s : Script.Signature} (body : List Script.Stmt)
    (h : s.parameters.Grammatical) :
    (functionOf s body).parameters.map (·.name) =
        (s.parameters.inOrder.drop s.parameters.positional.length).map Script.Parameter.id ∧
      ((∀ p ∈ s.parameters.positional, p.default = none) →
        (functionOf s body).parameters =
          s.parameters.ordinary.map (reportOwn .ordinary) ++ laterReports s.parameters) ∧
      (functionOf s body).parameters =
        s.parameters.ordinary.zipWith (reportWith .ordinary)
          (positionalDefaulted s.parameters ++ s.parameters.ordinary) ++
          laterReports s.parameters ∧
      ((functionOf s body).parameters.map (fun r => (r.name, r.default)) =
          s.parameters.inOrder.map (fun p => (p.id, textOf p.default)) ↔
        s.parameters.positional = []) := by
  show (parametersOf s.parameters).map _ = _ ∧ (_ → parametersOf s.parameters = _) ∧
    parametersOf s.parameters = _ ∧ ((parametersOf s.parameters).map _ = _ ↔ _)
  generalize s.parameters = ps at h ⊢
  refine ⟨map_name_parametersOf h, parametersOf_eq_own h, parametersOf_eq h, ?_, ?_⟩
  · -- the reports are fewer by the parameters that are left out
    intro hall
    have hreported := congrArg length (map_name_parametersOf h)
    have hsignature := congrArg length hall
    rw [length_map, length_map, length_drop] at hreported
    rw [length_map, length_map] at hsignature
    have hle : ps.positional.length ≤ ps.inOrder.length := by
      unfold Script.Parameters.inOrder
      simp only [append_assoc, length_append]
      omega
    apply length_eq_zero_iff.mp
    omega
  · intro hnone
    have hpositional : ∀ p ∈ ps.positional, p.default = none := by
      rw [hnone]
      simp
    rw [parametersOf_eq_own h hpositional]
    unfold Script.Parameters.inOrder laterReports
    simp only [hnone, nil_append, map_append, map_map, append_assoc]
    rfl

/-- A definition with parameters of every kind: `def f(p, /, a, b=1, *c, d=2, e, **k)`. -/
def everyKind : Script.Signature :=
  let parameter (id : String) (value : Option Nat) : Script.Parameter :=
    .mk 1 id none (value.map fun n => .constant 1 (.integer n))
  ⟨false, "f", .mk [parameter "p" none] [parameter "a" none, parameter "b" (some 1)]
    (some (parameter "c" none)) [parameter "d" (some 2), parameter "e" none]
    (some (parameter "k" none)), none, []⟩

/-- Its parameters are reported with their own defaults, the first one left out. -/
theorem parameters_reported_every_kind :
    everyKind.parameters.Grammatical ∧
      (functionOf everyKind []).parameters =
        [⟨"a", none, none, .ordinary⟩, ⟨"b", none, some "1", .ordinary⟩, ⟨"c", none, none, .rest⟩,
          ⟨"d", none, some "2", .named⟩, ⟨"e", none, none, .named⟩, ⟨"k", none, none, .namedRest⟩] := by
  have hgrammatical : everyKind.parameters.Grammatical := by
    refine ⟨?_, ?_, ?_⟩
    · unfold Aligned
      decide
    · simp [everyKind, Script.Parameters.rest, Script.Parameter.default]
    · simp [everyKind, Script.Parameters.namedRest, Script.Parameter.default]
  refine ⟨hgrammatical, ?_⟩
  rw [(parameters_reported [] hgrammatical).2.1 ?_]
  · decide +kernel
  · simp [everyKind, Script.Parameters.positional, Script.Parameter.default]

/-- A definition with defaults on both sides of the slash: `def f(a=1, /, b=2)`. -/
def defaultsBeforeSlash : Script.Signature :=
  ⟨false, "f", .mk [.mk 1 "a" none (some (.constant 1 (.integer 1)))]
    [.mk 1 "b" none (some (.constant 1 (.integer 2)))] none [] none, none, []⟩

/-- Its first parameter is not reported, and its second one with the default of the first. -/
theorem parameters_shifted :
    defaultsBeforeSlash.parameters.Grammatical ∧
      (functionOf defaultsBeforeSlash []).parameters = [⟨"b", none, some "1", .ordinary⟩] ∧
      (functionOf defaultsBeforeSlash []).parameters.map (fun r => (r.name, r.default)) ≠
        defaultsBeforeSlash.parameters.inOrder.map (fun p => (p.id, textOf p.default)) := by
  refine ⟨⟨?_, ?_, ?_⟩, ?_, ?_⟩
  · unfold Aligned
    decide
  · simp [defaultsBeforeSlash, Script.Parameters.rest]
  · simp [defaultsBeforeSlash, Script.Parameters.namedRest]
  · decide +kernel
  · decide +kernel

end Python

end CodeAtlas
