import CodeAtlas.Proofs.Words
import Mathlib.Data.List.Chain

/-!
# Letters in any case

A text in any case is matched by the texts that fold to the same letters (`mem_ways_litAnyCase`).
The characters below the letters, which are punctuation and digits, have no other case: such a
character folds to itself, and nothing else folds to it (`eq_of_foldCase`).

A keyword is such a text with white space after it. It does not reach over a character that is no
letter, so where white space stands only behind such characters no keyword is found
(`IsKeyword.passes_of_apart`).
-/

open List

namespace CodeAtlas

open Text

namespace Text

theorem foldCase_of_lt {c : Char} (h : c.toNat < 65) : foldCase c = c := by
  have hcapital : ('A' ≤ c && c ≤ 'Z') = false := by
    rw [Bool.and_eq_false_iff, decide_eq_false_iff_not, Char.le_def]
    refine .inl fun hle => ?_
    have hfirst : 65 ≤ c.toNat := hle
    omega
  have hdot : (c.toNat = 0x130 || c.toNat = 0x131) = false := by
    simp only [Bool.or_eq_false_iff, decide_eq_false_iff_not]
    omega
  rw [foldCase]
  simp only [hdot, Bool.false_eq_true, if_false]
  rw [if_neg (by omega), lowerChar, if_pos (by omega), hcapital]
  rfl

/-- `foldCase` takes no letter to the characters that have no case. -/
theorem eq_of_foldCase {d e : Char} (hpos : 0 < e.toNat) (he : e.toNat < 65)
    (h : foldCase d = e) : d = e := by
  have hruns : ∀ run ∈ lowerRuns.toList, (64 : Int) < run.first + run.shift := by decide +kernel
  have hpoint : ∀ n : Nat, Char.ofNat n = e → n = e.toNat := by
    intro n hn
    by_cases hvalid : n.isValidChar
    · rw [Char.ofNat, dif_pos hvalid] at hn
      exact congrArg Char.toNat hn
    · rw [Char.ofNat, dif_neg hvalid] at hn
      rw [← hn] at hpos
      cases hpos
  have hmap : ∀ n : Nat, 0x80 ≤ n → 64 < mapByRuns lowerRuns n := by
    intro n hn
    rw [mapByRuns]
    split
    · omega
    · rename_i run hrun
      have hmem := hruns run (Array.mem_toList_iff.mpr (Array.mem_of_find?_eq_some hrun))
      have hheld := Array.find?_some hrun
      simp only [Bool.and_eq_true, decide_eq_true_eq] at hheld
      split
      · omega
      · omega
  -- the three special letters, then ASCII, then the runs: what changes becomes a letter
  unfold foldCase at h
  by_cases hdot : (d.toNat = 0x130 || d.toNat = 0x131)
  · rw [if_pos hdot] at h
    subst h
    exact absurd he (by decide)
  · rw [if_neg hdot] at h
    by_cases hlong : d.toNat = 0x17f
    · rw [if_pos hlong] at h
      subst h
      exact absurd he (by decide)
    · rw [if_neg hlong, lowerChar] at h
      by_cases hascii : d.toNat < 0x80
      · rw [if_pos hascii] at h
        by_cases hcapital : ('A' ≤ d && d ≤ 'Z')
        · rw [if_pos hcapital] at h
          have hlower := hpoint _ h
          simp only [Bool.and_eq_true, decide_eq_true_eq, Char.le_def] at hcapital
          have hfirst : 65 ≤ d.toNat := hcapital.1
          omega
        · rwa [if_neg hcapital] at h
      · rw [if_neg hascii] at h
        have hlow := hpoint _ h
        have hhigh := hmap d.toNat (by omega)
        omega

end Text

namespace Pattern

variable {bound : Nat} {s t : State}

theorem mem_ways_litAnyCase {text : String} : t ∈ ways bound (litAnyCase text) s ↔
      ∃ taken rest, s.cursor.rest = taken ++ rest ∧
        taken.map foldCase = text.toList.map foldCase ∧ t = s.pass taken rest := by
  unfold litAnyCase
  generalize text.toList = chars
  induction chars generalizing s with
  | nil =>
    simp only [ofCharsAnyCase, ways, mem_singleton, map_nil, map_eq_nil_iff]
    constructor
    · rintro rfl
      exact ⟨[], t.cursor.rest, rfl, rfl, rfl⟩
    · rintro ⟨_, rest, hrest, rfl, rfl⟩
      rw [nil_append] at hrest
      rw [← hrest]
      rfl
  | cons c chars ih =>
    have hsplit : t ∈ ways bound (ofCharsAnyCase (c :: chars)) s ↔
        t ∈ ways bound (one (sameBut c) ++ ofCharsAnyCase chars) s := by
      refine mem_ways_congr fun next => ?_
      cases chars <;> rfl
    rw [hsplit, mem_ways_append]
    simp only [mem_ways_one, ih]
    constructor
    · rintro ⟨_, ⟨d, rest, hrest, hd, rfl⟩, taken, rest', hrest', htaken, rfl⟩
      have hrest' : rest = taken ++ rest' := hrest'
      refine ⟨d :: taken, rest', by rw [hrest, hrest']; rfl, ?_, ?_⟩
      · rw [map_cons, map_cons, htaken, beq_iff_eq.mp hd]
      · rw [State.pass_pass, singleton_append]
    · rintro ⟨taken, rest, hrest, htaken, rfl⟩
      cases taken with
      | nil => cases htaken
      | cons d taken =>
        obtain ⟨hd, hmore⟩ := cons.inj htaken
        refine ⟨_, ⟨d, taken ++ rest, hrest, beq_iff_eq.mpr hd, rfl⟩, taken, rest, rfl, hmore, ?_⟩
        rw [State.pass_pass, singleton_append]

/-- `litAnyCase` takes its text where it stands in the given case. -/
theorem Leads.litAnyCase (text : String) (rest : List Char) :
    (Pattern.litAnyCase text).Leads bound text.toList rest [] := by
  refine of_pass fun s hrest next r hnext => ?_
  have hway : s.pass text.toList rest ∈ ways bound (Pattern.litAnyCase text) s :=
    mem_ways_litAnyCase.mpr ⟨_, rest, hrest, rfl, rfl⟩
  cases h : advance bound (Pattern.litAnyCase text) next s with
  | none => rw [← hnext, advance_eq_none_iff.mp h _ hway]
  | some r' =>
    -- there is no other way, as the letters are as many
    obtain ⟨t, ht, hr'⟩ := exists_mem_ways h
    obtain ⟨taken, rest', hrest', htaken, rfl⟩ := mem_ways_litAnyCase.mp ht
    have hlength : taken.length = text.toList.length := by
      simpa using congrArg length htaken
    obtain ⟨rfl, rfl⟩ := append_inj (hrest'.symm.trans hrest) hlength
    rw [← hr', hnext]

variable {text taken : List Char}

theorem Fits.litAnyCase {text : String} (h : taken.map foldCase = text.toList.map foldCase)
    (rest : List Char) : (Pattern.litAnyCase text).Fits taken rest :=
  fun _ s hrest =>
    ⟨s.pass taken rest, mem_ways_litAnyCase.mpr ⟨taken, rest, hrest, h, rfl⟩, rfl⟩

/-! ## Keywords -/

variable {q : Pattern} {word : String} {d : Char} {more rest : List Char}

/-- A word of letters, and at least one. -/
structure IsKeyword (word : String) : Prop where
  ne_nil : word.toList ≠ []
  letters : ∀ c ∈ word.toList, 65 ≤ (foldCase c).toNat

/-- A keyword stands in front of white space, and its letters are found in any case. -/
theorem FailsAt.keyword (h : ∀ taken b rest, text = taken ++ b :: rest → isBlank b →
      taken.map foldCase = word.toList.map foldCase → (blanks1 ++ q).FailsAt (b :: rest)) :
    (litAnyCase word ++ blanks1 ++ q).FailsAt text := by
  intro bound next s hrest
  show advance bound (litAnyCase word) (advance bound (blanks1 ++ q) next) s = none
  refine advance_eq_none_iff.mpr fun t ht => ?_
  obtain ⟨taken, rest, hsplit, htaken, rfl⟩ := mem_ways_litAnyCase.mp ht
  have hblanks : ∀ o : Option Char, o.any isBlank = false → (blanks1 ++ q).Refuses o :=
    fun o ho => Refuses.append_left ⟨ho, rfl⟩
  cases rest with
  | nil => exact FailsAt.of_refuses (hblanks none rfl) bound next _ rfl
  | cons b rest =>
    by_cases hb : isBlank b
    · exact h taken b rest (hrest ▸ hsplit) hb htaken bound next _ rfl
    · exact FailsAt.of_refuses (hblanks (some b) (Bool.eq_false_iff.mpr hb)) bound next _ rfl

/-- The letters of a keyword do not reach over a character that is none. -/
theorem IsKeyword.exists_append (hword : IsKeyword word) {x y : List Char}
    (htaken : taken.map foldCase = word.toList.map foldCase) (hd : d.toNat < 65)
    (h : taken ++ x = y ++ d :: more) : ∃ z, y = taken ++ z ∧ x = z ++ d :: more := by
  have hletters : ∀ c ∈ taken, decide (65 ≤ (foldCase c).toNat) := by
    intro c hc
    have hmem : foldCase c ∈ word.toList.map foldCase :=
      htaken ▸ mem_map_of_mem hc
    obtain ⟨e, he, heq⟩ := mem_map.mp hmem
    rw [← heq]
    exact decide_eq_true (hword.letters e he)
  refine exists_append_of_append_eq h hletters ?_
  rw [foldCase_of_lt hd, decide_eq_false_iff_not]
  omega

/-- A word with a character after it that is no letter holds a keyword only if it ends in one and
white space follows. -/
theorem IsKeyword.passes (hword : IsKeyword word) (htext : ∀ c ∈ text, isBlank c = false)
    (hd : d.toNat < 65) (h : isBlank d → ∀ left, left <:+ text →
      left.map foldCase = word.toList.map foldCase → (blanks1 ++ q).FailsAt (d :: more)) :
    Passes (litAnyCase word ++ blanks1 ++ q) text (d :: more) := by
  intro left hleft hne
  refine FailsAt.keyword fun taken b rest hsplit hb htaken => ?_
  obtain ⟨z, hz, hrest⟩ := hword.exists_append htaken hd hsplit.symm
  cases z with
  | nil =>
    obtain ⟨rfl, rfl⟩ := cons.inj hrest
    rw [append_nil] at hz
    exact h hb left hleft (hz ▸ htaken)
  | cons e z =>
    obtain ⟨rfl, -⟩ := cons.inj hrest
    rw [htext b (hleft.subset (by simp [hz]))] at hb
    cases hb

/-- White space stands only behind characters that are no letters. -/
def Apart (text : List Char) : Prop :=
  List.IsChain (fun c b => isBlank b = true → c.toNat < 65) text

/-- No keyword begins in an `Apart` text. -/
theorem IsKeyword.passes_of_apart (hword : IsKeyword word) {front : List Char} (hd : d.toNat < 65)
    (h : Apart (front ++ [d])) : Passes (litAnyCase word ++ blanks1 ++ q) (front ++ [d]) rest := by
  intro left hleft hne
  refine FailsAt.keyword fun taken b more hsplit hb htaken => ?_
  obtain ⟨left, e, rfl⟩ := (eq_nil_or_concat left).resolve_left hne
  obtain ⟨passed, hpassed⟩ := hleft
  have hpassed : (passed ++ left) ++ [e] = front ++ [d] := by simpa using hpassed
  obtain ⟨hfront, hlast⟩ := append_inj' hpassed rfl
  obtain rfl : e = d := by simpa using hlast
  have hsplit : taken ++ b :: more = left ++ e :: rest := by rw [← hsplit]; simp
  obtain ⟨z, hz, hrest⟩ := hword.exists_append htaken hd hsplit
  have htaken_ne : taken ≠ [] := by
    rintro rfl
    exact hword.ne_nil (by simpa using htaken.symm)
  obtain ⟨taken', c, rfl⟩ := (eq_nil_or_concat taken).resolve_left htaken_ne
  -- the last letter of the keyword stands in front of white space
  have hc : c.toNat < 65 := by
    obtain ⟨after, hafter⟩ : ∃ after, z ++ [e] = b :: after := by
      cases z with
      | nil => exact ⟨[], by rw [(cons.inj hrest).1]; rfl⟩
      | cons b' z => exact ⟨z ++ [e], by rw [(cons.inj hrest).1]; rfl⟩
    rw [← hfront, hz] at h
    have hwhole :
        passed ++ (taken'.concat c ++ z) ++ [e] = (passed ++ taken') ++ c :: b :: after := by
      rw [← hafter]
      simp
    rw [hwhole] at h
    exact (isChain_append_cons_cons.mp h).2.1 hb
  have hmem : foldCase c ∈ word.toList.map foldCase := by
    rw [← htaken]
    exact mem_map_of_mem (by simp)
  obtain ⟨w, hw, heq⟩ := mem_map.mp hmem
  have hletter := hword.letters w hw
  rw [heq, foldCase_of_lt hc] at hletter
  omega

end Pattern

end CodeAtlas
