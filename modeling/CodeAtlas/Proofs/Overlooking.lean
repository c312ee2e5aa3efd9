import CodeAtlas.Outline.Basic
import CodeAtlas.Proofs.Displacement

/-!
# Characters that patterns overlook

A character put before a text is overlooked by a pattern that cannot begin with it and whose edges
do not tell it from the start of a text (`Overlooks`): the matches are those of the text alone, one
place further on (`Overlooks.findAll`). Most patterns have no edges or only one, at their beginning,
so a look at the parts of a pattern decides whether it overlooks a character (`overlooks`).
-/

namespace CodeAtlas.Pattern

open Outline

/-! ## The parts of a pattern -/

/-- Whether a pattern has no edges. -/
def edgeless : Pattern → Bool
  | nothing | one _ | span _ _ _ _ | same _ => true
  | both first second | either first second => first.edgeless && second.edgeless
  | again body _ _ _ | group _ body | ahead body | notAhead body => body.edgeless
  | edge _ => false

variable {near : Option Char → Option Char → Prop}

theorem blind_of_edgeless {p : Pattern} (h : p.edgeless) : Blind near p := by
  induction p with
  | both _ _ ihfirst ihsecond | either _ _ ihfirst ihsecond =>
    rw [edgeless, Bool.and_eq_true] at h
    exact ⟨ihfirst h.1, ihsecond h.2⟩
  | again _ _ _ _ ih | group _ _ ih | ahead _ ih | notAhead _ ih => exact ih h
  | edge _ => cases h
  | nothing | one _ | span _ _ _ _ | same _ => trivial

/-- A chain of patterns without its first link. -/
def trail : Pattern → Pattern
  | both (both first second) third => both (both first second).trail third
  | both _ second => second
  | _ => nothing

theorem advance_lead_trail (bound : Nat) (p : Pattern) (next : State → Option State) :
    advance bound p next = advance bound p.lead (advance bound p.trail next) := by
  induction p generalizing next with
  | both first second ih _ =>
    cases first with
    | both _ _ => exact ih (advance bound second next)
    | _ => rfl
  | _ => rfl

theorem blind_lead_trail {p : Pattern} (hlead : Blind near p.lead) (htrail : Blind near p.trail) :
    Blind near p := by
  induction p with
  | both first second ih _ =>
    cases first with
    | both _ _ => exact ⟨ih hlead htrail.1, htrail.2⟩
    | _ => exact ⟨hlead, htrail⟩
  | _ => exact hlead

/-! ## Edges -/

theorem blind_lineStart : Blind (Beside '\n') lineStart := by
  rintro o o' after (rfl | ⟨rfl, rfl⟩)
  · rfl
  · rfl

theorem blind_wordEdge {x : Char} (hx : Text.isWord x = false) : Blind (Beside x) wordEdge := by
  rintro o o' after (rfl | ⟨rfl, rfl⟩)
  · rfl
  · simp [hx]

theorem blind_textEnd (near : Option Char → Option Char → Prop) : Blind near textEnd :=
  fun _ _ _ _ => rfl

/-! ## Overlooked characters -/

/-- A pattern cannot begin with a character and does not tell it from the start of a text. -/
structure Overlooks (x : Char) (p : Pattern) : Prop where
  refuses : p.Refuses (some x)
  blind : Blind (Beside x) p

/-- Whether a pattern cannot begin with a character. -/
def shuns (x : Char) (p : Pattern) : Bool :=
  !p.skips && !p.takes (some x)

theorem refuses_of_shuns {x : Char} {p : Pattern} (h : p.shuns x) : p.Refuses (some x) := by
  simp only [shuns, Bool.and_eq_true, Bool.not_eq_true'] at h
  exact ⟨h.2, h.1⟩

/-- Whether a pattern without edges overlooks a character. -/
def overlooks (x : Char) (p : Pattern) : Bool :=
  p.edgeless && p.shuns x

theorem overlooks_of_eq_true {x : Char} {p : Pattern} (h : p.overlooks x) : Overlooks x p := by
  rw [overlooks, Bool.and_eq_true] at h
  exact ⟨refuses_of_shuns h.2, blind_of_edgeless h.1⟩

/-- A pattern whose only edge is `wordEdge` at its beginning. -/
theorem overlooks_of_wordEdge {x : Char} {p : Pattern} (hx : Text.isWord x = false)
    (hlead : p.lead = wordEdge) (htrail : p.trail.edgeless) (h : p.shuns x) : Overlooks x p := by
  refine ⟨refuses_of_shuns h, blind_lead_trail ?_ (blind_of_edgeless htrail)⟩
  rw [hlead]
  exact blind_wordEdge hx

section Overlooks

variable {x : Char} {p : Pattern} (h : Overlooks x p) (code : List Char)

include h

/-- **`findAll` behind an overlooked character** has the matches of the text alone. -/
theorem Overlooks.findAll : p.findAll (x :: code) = (p.findAll code).map (Match.move 1) :=
  findAll_append (h.refuses.passesOver code) h.blind

theorem Overlooks.find? : p.find? (x :: code) = (p.find? code).map (Match.move 1) := by
  rw [find?_eq_head?, find?_eq_head?, h.findAll, List.head?_map]

theorem Overlooks.collect (index : Nat) : p.collect index (x :: code) = p.collect index code := by
  rw [Pattern.collect, h.findAll, List.map_map]
  exact List.map_congr_left fun m _ => Match.group_move 1 m index

theorem Overlooks.collectAll : p.collectAll (x :: code) = p.collectAll code := by
  rw [Pattern.collectAll, h.findAll, List.map_map]
  exact List.map_congr_left fun m _ => Match.text_move 1 m

theorem Overlooks.collectTexts (index : Nat) :
    Outline.collectTexts p index (x :: code) = Outline.collectTexts p index code := by
  rw [Outline.collectTexts, h.collect]
  rfl

theorem Overlooks.collectWhole :
    Outline.collectWhole p (x :: code) = Outline.collectWhole p code := by
  rw [Outline.collectWhole, h.collectAll]
  rfl

/-- `replaceAll` leaves the overlooked character. -/
theorem Overlooks.replaceAll (replace : Match → List Char)
    (hreplace : ∀ k m, replace (m.move k) = replace m) :
    p.replaceAll replace (x :: code) = x :: p.replaceAll replace code := by
  rw [Pattern.replaceAll, h.findAll]
  exact replaceFrom_append hreplace [x] code _

end Overlooks

end CodeAtlas.Pattern
