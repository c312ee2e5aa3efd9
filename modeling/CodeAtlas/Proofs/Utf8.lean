import CodeAtlas.Text.Utf8
import Mathlib.Data.List.Basic

/-!
# What the strict reading accepts

The strict reading of bytes as UTF-8 succeeds exactly on the bytes of texts (`decode_eq_ok_iff`):
the first piece of the bytes of a character is that character (`head_encode`), and a piece that is a
character takes exactly its bytes (`encode_of_head`).
-/

open List

namespace CodeAtlas.Text.Utf8

variable {a : UInt8} {rest bytes : List UInt8}

def IsUtf8 (bytes : List UInt8) : Prop :=
  ∃ text : List Char, bytes = text.flatMap String.utf8EncodeChar

/-! ## One character -/

variable {n k : Nat} {b d e : UInt8} {c : Char} {text : List Char}

/-- The code point of a valid number is that number. -/
theorem val_toNat_ofNat (h : n.isValidChar) : (Char.ofNat n).val.toNat = n := by
  unfold Char.ofNat
  rw [dif_pos h]
  rfl

theorem continues_iff : continues b ↔ 0x80 ≤ b.toNat ∧ b.toNat ≤ 0xbf := by
  simp [continues, UInt8.le_iff_toNat_le]

/-- A byte is told by its number. -/
theorem eq_ofNat (h : b.toNat = n) : b = UInt8.ofNat n := by
  rw [← h, UInt8.ofNat_toNat]

theorem head_eq (a : UInt8) (rest : List UInt8) : head a rest =
    if a.toNat < 0x80 then (.char (.ofNat a.toNat), 0)
    else if a.toNat < 0xc2 ∨ 0xf4 < a.toNat then (.fault ⟨[a], .start⟩, 0)
    else if a.toNat < 0xe0 then headOfTwo a rest
    else if a.toNat < 0xf0 then headOfThree a rest
    else headOfFour a rest := by
  simp [head, UInt8.lt_iff_toNat_lt]

theorem encode_of_headOfTwo (hlow : 0xc2 ≤ a.toNat) (hhigh : a.toNat < 0xe0)
    (h : headOfTwo a rest = (.char c, k)) :
    a :: rest.take k = String.utf8EncodeChar c ∧ k ≤ rest.length := by
  fun_cases headOfTwo a rest
  case case2 b rest hb =>
    simp only [headOfTwo, hb, if_true, Prod.mk.injEq, Piece.char.injEq] at h
    obtain ⟨rfl, rfl⟩ := h
    obtain ⟨hblow, hbhigh⟩ := continues_iff.mp hb
    have hval := val_toNat_ofNat (n := a.toNat % 0x20 * 0x40 + payload b)
      (by unfold payload Nat.isValidChar; omega)
    refine ⟨?_, by simp⟩
    unfold String.utf8EncodeChar
    simp only [hval]
    unfold payload
    rw [if_neg (by omega), if_pos (by omega)]
    simp only [take_succ_cons, take_zero]
    rw [← eq_ofNat (b := a) (by omega), ← eq_ofNat (b := b) (by omega)]
  all_goals simp_all [headOfTwo]

/-- A second byte with one lead after which it must reach a limit, and one after which it must
not. -/
theorem second_iff {low high limit : UInt8} :
    (continues b && !(a == low && b < limit) && !(a == high && limit ≤ b)) = true ↔
      (0x80 ≤ b.toNat ∧ b.toNat ≤ 0xbf) ∧ (a.toNat = low.toNat → limit.toNat ≤ b.toNat) ∧
        (a.toNat = high.toNat → b.toNat < limit.toNat) := by
  simp only [Bool.and_eq_true, continues_iff, Bool.not_eq_true', Bool.and_eq_false_iff,
    beq_eq_false_iff_ne, ne_eq, decide_eq_false_iff_not, UInt8.lt_iff_toNat_lt,
    UInt8.le_iff_toNat_le, ← UInt8.toNat_inj]
  omega

theorem secondOfThree_iff : secondOfThree a b ↔ (0x80 ≤ b.toNat ∧ b.toNat ≤ 0xbf) ∧
    (a.toNat = 0xe0 → 0xa0 ≤ b.toNat) ∧ (a.toNat = 0xed → b.toNat < 0xa0) := second_iff

theorem secondOfFour_iff : secondOfFour a b ↔ (0x80 ≤ b.toNat ∧ b.toNat ≤ 0xbf) ∧
    (a.toNat = 0xf0 → 0x90 ≤ b.toNat) ∧ (a.toNat = 0xf4 → b.toNat < 0x90) := second_iff

theorem encode_of_headOfThree (hlow : 0xe0 ≤ a.toNat) (hhigh : a.toNat < 0xf0)
    (h : headOfThree a rest = (.char c, k)) :
    a :: rest.take k = String.utf8EncodeChar c ∧ k ≤ rest.length := by
  fun_cases headOfThree a rest
  case case3 b hb c' rest hc =>
    simp only [headOfThree, hb, hc, if_true, Prod.mk.injEq, Piece.char.injEq] at h
    obtain ⟨rfl, rfl⟩ := h
    obtain ⟨⟨hblow, hbhigh⟩, hoverlong, hsurrogate⟩ := secondOfThree_iff.mp hb
    obtain ⟨hclow, hchigh⟩ := continues_iff.mp hc
    have hval := val_toNat_ofNat (n := a.toNat % 0x10 * 0x1000 + payload b * 0x40 + payload c')
      (by unfold payload Nat.isValidChar; omega)
    refine ⟨?_, by simp⟩
    unfold String.utf8EncodeChar
    simp only [hval]
    unfold payload
    rw [if_neg (by omega), if_neg (by omega), if_pos (by omega)]
    simp only [take_succ_cons, take_zero]
    rw [← eq_ofNat (b := a) (by omega), ← eq_ofNat (b := b) (by omega),
      ← eq_ofNat (b := c') (by omega)]
  all_goals simp_all [headOfThree]

theorem encode_of_headOfFour (hlow : 0xf0 ≤ a.toNat) (hhigh : a.toNat ≤ 0xf4)
    (h : headOfFour a rest = (.char c, k)) :
    a :: rest.take k = String.utf8EncodeChar c ∧ k ≤ rest.length := by
  fun_cases headOfFour a rest
  case case4 b hb c' hc d rest hd =>
    simp only [headOfFour, hb, hc, hd, if_true, Prod.mk.injEq, Piece.char.injEq] at h
    obtain ⟨rfl, rfl⟩ := h
    obtain ⟨⟨hblow, hbhigh⟩, hoverlong, hlast⟩ := secondOfFour_iff.mp hb
    obtain ⟨hclow, hchigh⟩ := continues_iff.mp hc
    obtain ⟨hdlow, hdhigh⟩ := continues_iff.mp hd
    have hval := val_toNat_ofNat (n := a.toNat % 0x8 * 0x40000 + payload b * 0x1000 +
      payload c' * 0x40 + payload d) (by unfold payload Nat.isValidChar; omega)
    refine ⟨?_, by simp⟩
    unfold String.utf8EncodeChar
    simp only [hval]
    unfold payload
    rw [if_neg (by omega), if_neg (by omega), if_neg (by omega)]
    simp only [take_succ_cons, take_zero]
    rw [← eq_ofNat (b := a) (by omega), ← eq_ofNat (b := b) (by omega),
      ← eq_ofNat (b := c') (by omega), ← eq_ofNat (b := d) (by omega)]
  all_goals simp_all [headOfFour]

/-- If `head` is a character, it takes exactly the bytes of that character. -/
theorem encode_of_head (h : head a rest = (.char c, k)) :
    a :: rest.take k = String.utf8EncodeChar c ∧ k ≤ rest.length := by
  rw [head_eq] at h
  split at h
  case isTrue hone =>
    simp only [Prod.mk.injEq, Piece.char.injEq] at h
    obtain ⟨rfl, rfl⟩ := h
    have hval := val_toNat_ofNat (n := a.toNat) (by unfold Nat.isValidChar; omega)
    refine ⟨?_, by simp⟩
    unfold String.utf8EncodeChar
    simp only [hval]
    rw [if_pos (by omega), ← eq_ofNat (b := a) rfl]
    rfl
  case isFalse =>
    split at h
    case isTrue => simp at h
    case isFalse =>
      split at h
      case isTrue => exact encode_of_headOfTwo (by omega) (by omega) h
      case isFalse =>
        split at h
        case isTrue => exact encode_of_headOfThree (by omega) (by omega) h
        case isFalse => exact encode_of_headOfFour (by omega) (by omega) h

/-! The bytes that a number is written with are read as that number, one to four of them. -/

theorem head_one (ha : a.toNat = n) (h : n ≤ 0x7f) (rest : List UInt8) :
    head a rest = (.char (.ofNat n), 0) := by
  rw [head_eq, if_pos (by omega), ha]

theorem head_two (ha : a.toNat = n / 64 % 0x20 + 0xc0) (hb : b.toNat = n % 0x40 + 0x80)
    (hlow : 0x7f < n) (hhigh : n ≤ 0x7ff) (rest : List UInt8) :
    head a (b :: rest) = (.char (.ofNat n), 1) := by
  have hcont : continues b := continues_iff.mpr (by omega)
  have hvalue : a.toNat % 0x20 * 0x40 + payload b = n := by
    unfold payload
    omega
  rw [head_eq, if_neg (by omega), if_neg (by omega), if_pos (by omega), headOfTwo, if_pos hcont,
    hvalue]

theorem head_three (ha : a.toNat = n / 4096 % 0x10 + 0xe0) (hb : b.toNat = n / 64 % 0x40 + 0x80)
    (hd : d.toNat = n % 0x40 + 0x80) (hlow : 0x7ff < n) (hhigh : n ≤ 0xffff)
    (hvalid : n < 0xd800 ∨ 0xdfff < n) (rest : List UInt8) :
    head a (b :: d :: rest) = (.char (.ofNat n), 2) := by
  have hsecond : secondOfThree a b := secondOfThree_iff.mpr (by omega)
  have hcont : continues d := continues_iff.mpr (by omega)
  have hvalue : a.toNat % 0x10 * 0x1000 + payload b * 0x40 + payload d = n := by
    unfold payload
    omega
  rw [head_eq, if_neg (by omega), if_neg (by omega), if_neg (by omega), if_pos (by omega),
    headOfThree, if_pos hsecond, if_pos hcont, hvalue]

theorem head_four (ha : a.toNat = n / 262144 % 0x08 + 0xf0)
    (hb : b.toNat = n / 4096 % 0x40 + 0x80) (hd : d.toNat = n / 64 % 0x40 + 0x80)
    (he : e.toNat = n % 0x40 + 0x80) (hlow : 0xffff < n) (hhigh : n < 0x110000)
    (rest : List UInt8) : head a (b :: d :: e :: rest) = (.char (.ofNat n), 3) := by
  have hsecond : secondOfFour a b := secondOfFour_iff.mpr (by omega)
  have hthird : continues d := continues_iff.mpr (by omega)
  have hfourth : continues e := continues_iff.mpr (by omega)
  have hvalue : a.toNat % 0x8 * 0x40000 + payload b * 0x1000 + payload d * 0x40 +
      payload e = n := by
    unfold payload
    omega
  rw [head_eq, if_neg (by omega), if_neg (by omega), if_neg (by omega), if_neg (by omega),
    headOfFour, if_pos hsecond, if_pos hthird, if_pos hfourth, hvalue]

/-- `head` reads the bytes of a character as that character, whatever follows. -/
theorem head_encode (c : Char) (rest : List UInt8) : ∃ a more, String.utf8EncodeChar c = a :: more ∧
      head a (more ++ rest) = (.char c, more.length) := by
  have hvalid : c.val.toNat < 0xd800 ∨ 0xdfff < c.val.toNat ∧ c.val.toNat < 0x110000 := c.valid
  have hback : Char.ofNat c.val.toNat = c := Char.ofNat_toNat c
  unfold String.utf8EncodeChar
  simp only
  generalize c.val.toNat = n at hvalid hback ⊢
  subst hback
  have hbyte : ∀ {m}, m < 256 → (UInt8.ofNat m).toNat = m := UInt8.toNat_ofNat_of_lt'
  by_cases hone : n ≤ 0x7f
  · exact ⟨_, _, if_pos hone, head_one (hbyte (by omega)) hone rest⟩
  rw [if_neg hone]
  by_cases htwo : n ≤ 0x7ff
  · exact ⟨_, _, if_pos htwo, head_two (hbyte (by omega)) (hbyte (by omega)) (by omega) htwo rest⟩
  rw [if_neg htwo]
  by_cases hthree : n ≤ 0xffff
  · exact ⟨_, _, if_pos hthree, head_three (hbyte (by omega)) (hbyte (by omega))
      (hbyte (by omega)) (by omega) hthree (by omega) rest⟩
  · exact ⟨_, _, if_neg hthree, head_four (hbyte (by omega)) (hbyte (by omega))
      (hbyte (by omega)) (hbyte (by omega)) (by omega) (by omega) rest⟩

/-! ## Texts -/

theorem piecesAfter_eq (taken : Nat) (bytes : List UInt8) :
    piecesAfter taken bytes = pieces (bytes.drop taken) := by
  induction bytes generalizing taken with
  | nil => cases taken <;> rfl
  | cons a rest ih =>
    cases taken with
    | zero => rfl
    | succ taken => exact ih taken

theorem pieces_cons (a : UInt8) (rest : List UInt8) :
    pieces (a :: rest) = (head a rest).1 :: pieces (rest.drop (head a rest).2) := by
  rw [← piecesAfter_eq]
  rfl

theorem pieces_encode (text : List Char) :
    pieces (text.flatMap String.utf8EncodeChar) = text.map .char := by
  induction text with
  | nil => rfl
  | cons c text ih =>
    obtain ⟨a, more, hbytes, hhead⟩ := head_encode c (text.flatMap String.utf8EncodeChar)
    rw [flatMap_cons, hbytes, cons_append, pieces_cons, hhead, drop_left, ih, map_cons]

theorem encode_of_pieces (h : pieces bytes = text.map .char) :
    bytes = text.flatMap String.utf8EncodeChar := by
  induction text generalizing bytes with
  | nil =>
    cases bytes with
    | nil => rfl
    | cons a rest =>
      rw [pieces_cons] at h
      cases h
  | cons c text ih =>
    cases bytes with
    | nil => cases h
    | cons a rest =>
      rw [pieces_cons, map_cons, cons.injEq] at h
      obtain ⟨hfirst, hrest⟩ := h
      have hhead : head a rest = (.char c, (head a rest).2) := Prod.ext hfirst rfl
      obtain ⟨htaken, -⟩ := encode_of_head hhead
      rw [flatMap_cons, ← htaken, ← ih hrest, cons_append, take_append_drop]

/-- Without a fault, the pieces are characters. -/
theorem firstFault_eq_none {position : Nat} {ps : List Piece} :
    firstFault position ps = none ↔ ps = (charsOf ps).map .char := by
  induction ps generalizing position with
  | nil => simp [firstFault, charsOf]
  | cons p rest ih =>
    cases p with
    | char c =>
      have hchars : charsOf (.char c :: rest) = c :: charsOf rest := rfl
      rw [firstFault, ih, hchars, map_cons, cons.injEq]
      simp
    | fault f =>
      have hchars : charsOf (.fault f :: rest) = charsOf rest := rfl
      rw [firstFault, hchars]
      constructor
      · intro h
        cases h
      · intro h
        have hlen := congrArg length h
        have hle : (charsOf rest).length ≤ rest.length := length_filterMap_le _ _
        rw [length_cons, length_map] at hlen
        omega

theorem charsOf_chars (text : List Char) : charsOf (text.map .char) = text := by
  simp [charsOf, filterMap_map]

/-- **`decode` accepts exactly the bytes of texts**, and gives back the text. -/
theorem decode_eq_ok_iff :
    decode bytes = .ok text ↔ bytes = text.flatMap String.utf8EncodeChar := by
  constructor
  · intro h
    simp only [decode] at h
    split at h
    · cases h
    · rename_i hfault
      cases h
      exact encode_of_pieces (firstFault_eq_none.mp hfault)
  · rintro rfl
    have hfault : firstFault 0 (text.map .char) = none :=
      firstFault_eq_none.mpr (by rw [charsOf_chars])
    simp only [decode, pieces_encode, hfault, charsOf_chars]

theorem isUtf8_iff : IsUtf8 bytes ↔ ∃ text, decode bytes = .ok text := by
  simp only [IsUtf8, decode_eq_ok_iff]

end CodeAtlas.Text.Utf8
