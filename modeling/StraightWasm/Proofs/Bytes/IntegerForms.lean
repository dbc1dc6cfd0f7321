import Mathlib.Data.Nat.Digits.Defs
import Mathlib.Tactic.Ring
import StraightWasm.Bytes.Leb128

/-!
# The written forms of an integer

A row of bytes is a written form of an integer if all bytes but the last continue, there are no more
of them than the width asks for, and the number that their groups denote is the integer, which has
to be one of the width (`Leb128.Encodes`). What the groups denote is said at once, by the digits of
a number in base 128 (`Leb128.denoted`). An integer has several forms: groups of zeros, or of ones
in a negative integer, may pad it up to the greatest number of bytes.

Decoding follows the bytes and uses up the width group by group. It finds exactly these forms, for
every width that is no multiple of seven (`Leb128.decode_iff_encodes`). In a multiple of seven it
would take one more group, all of which has to be padding.
-/

set_option autoImplicit false
set_option relaxedAutoImplicit false

namespace StraightWasm

/-! ### Widths -/

/-- Whether an integer fits depends on what stands above its lowest group only. -/
theorem Signedness.fits_group_iff {sign : Signedness} {width : Nat} (hwidth : 7 < width)
    {low : Int} (hlow : 0 ≤ low ∧ low < 128) (high : Int) :
    sign.Fits width (low + 128 * high) ↔ sign.Fits (width - 7) high := by
  have hpow : ∀ exponent, 7 ≤ exponent →
      Int.ofNat (Nat.pow 2 exponent) = 128 * Int.ofNat (Nat.pow 2 (exponent - 7)) := by
    intro exponent hexponent
    obtain ⟨rest, rfl⟩ := Nat.exists_eq_add_of_le hexponent
    have hsplit : Nat.pow 2 (7 + rest) = 128 * Nat.pow 2 rest := Nat.pow_add 2 7 rest
    rw [Nat.add_sub_cancel_left, hsplit]
    exact Int.natCast_mul 128 (Nat.pow 2 rest)
  unfold Fits
  cases sign with
  | unsigned =>
    rw [least, least, bound, bound, hpow width (by omega)]
    omega
  | signed =>
    rw [least, least, bound, bound, hpow (width - 1) (by omega), Nat.sub_right_comm]
    omega

namespace Leb128

variable {sign : Signedness} {width : Nat} {value : Int} {byte : UInt8} {bytes : List UInt8}

/-! ### What groups denote -/

/-- The number whose digits in base 128 are the groups of some bytes, the least significant
first. -/
def payload (bytes : List UInt8) : Nat :=
  Nat.ofDigits 128 (bytes.map fun byte ↦ byte.toNat % 128)

/-- The last group of some bytes. -/
def topGroup (bytes : List UInt8) : Nat :=
  (bytes.getLast?.getD 0).toNat % 128

/-- The integer that the groups of some bytes denote. A signed integer is negative if the top bit of
its last group is set, and the groups are then what is missing to the next power. -/
def denoted (sign : Signedness) (bytes : List UInt8) : Int :=
  match sign with
  | .unsigned => payload bytes
  | .signed =>
    if topGroup bytes < 64 then payload bytes
    else payload bytes - (128 ^ bytes.length : Nat)

theorem denoted_singleton (hlast : byte.toNat < 128) :
    denoted sign [byte] = lastGroup sign byte := by
  have hmod : byte.toNat % 128 = byte.toNat := Nat.mod_eq_of_lt hlast
  cases sign with
  | unsigned => simp [denoted, lastGroup, payload, hmod]
  | signed => simp [denoted, lastGroup, payload, topGroup, hmod]

theorem denoted_cons (hmore : 128 ≤ byte.toNat) (hbytes : bytes ≠ []) :
    denoted sign (byte :: bytes) = (byte.toNat - 128) + 128 * denoted sign bytes := by
  have hmod : byte.toNat % 128 = byte.toNat - 128 := by
    have hlt := byte.toNat_lt
    omega
  have hpayload : (payload (byte :: bytes) : Int) = (byte.toNat - 128) + 128 * payload bytes := by
    rw [payload, List.map_cons, Nat.ofDigits_cons, hmod, ← payload]
    omega
  have htop : topGroup (byte :: bytes) = topGroup bytes := by
    rw [topGroup, List.getLast?_cons_of_ne_nil hbytes, ← topGroup]
  cases sign with
  | unsigned => exact hpayload
  | signed =>
    simp only [denoted, htop, hpayload, List.length_cons, pow_succ]
    split_ifs
    · rfl
    · push_cast
      ring

/-! ### Forms -/

/-- Whether some bytes are a written form of an integer of a width. -/
structure Encodes (sign : Signedness) (width : Nat) (value : Int) (bytes : List UInt8) : Prop where
  /-- Every byte but the last says that another one follows. -/
  continued : ∀ byte ∈ bytes.dropLast, 128 ≤ byte.toNat
  /-- There is a last byte, and it says that none follows. -/
  ended : ∃ last ∈ bytes.getLast?, last.toNat < 128
  length_le : bytes.length ≤ (width + 6) / 7
  fits : sign.Fits width value
  value_eq : value = denoted sign bytes

theorem Encodes.ne_nil (h : Encodes sign width value bytes) : bytes ≠ [] := by
  rintro rfl
  obtain ⟨last, hlast, -⟩ := h.ended
  cases hlast

/-- A byte that does not continue is a form of its own. -/
theorem encodes_cons_of_lt (hwidth : width ≠ 0) (hlast : byte.toNat < 128) :
    Encodes sign width value (byte :: bytes) ↔
      bytes = [] ∧ sign.Fits width value ∧ value = lastGroup sign byte := by
  constructor
  · intro h
    have hbytes : bytes = [] := by
      by_contra hne
      have hmore := h.continued byte (by simp [List.dropLast_cons_of_ne_nil hne])
      omega
    subst hbytes
    exact ⟨rfl, h.fits, h.value_eq.trans (denoted_singleton hlast)⟩
  · rintro ⟨rfl, hfits, rfl⟩
    refine ⟨by simp, ⟨byte, rfl, hlast⟩, ?_, hfits, (denoted_singleton hlast).symm⟩
    simp only [List.length_singleton]
    omega

/-- A byte that continues puts its group below an integer of what is left of the width. -/
theorem encodes_cons_of_le (hwidth : 7 < width) (hmore : 128 ≤ byte.toNat) :
    Encodes sign width value (byte :: bytes) ↔
      ∃ high, value = (byte.toNat - 128) + 128 * high ∧ Encodes sign (width - 7) high bytes := by
  have hlow : (0 : Int) ≤ byte.toNat - 128 ∧ (byte.toNat : Int) - 128 < 128 := by
    have hlt := byte.toNat_lt
    omega
  constructor
  · intro h
    have hbytes : bytes ≠ [] := by
      rintro rfl
      obtain ⟨last, hlast, hlt⟩ := h.ended
      rw [List.getLast?_singleton, Option.mem_some_iff] at hlast
      subst hlast
      omega
    have hvalue := h.value_eq.trans (denoted_cons hmore hbytes)
    refine ⟨denoted sign bytes, hvalue, ?_, ?_, ?_, ?_, rfl⟩
    · intro other hother
      exact h.continued other (by simp [List.dropLast_cons_of_ne_nil hbytes, hother])
    · obtain ⟨last, hlast, hlt⟩ := h.ended
      rw [List.getLast?_cons_of_ne_nil hbytes] at hlast
      exact ⟨last, hlast, hlt⟩
    · have hlength := h.length_le
      rw [List.length_cons] at hlength
      omega
    · rw [← Signedness.fits_group_iff hwidth hlow, ← hvalue]
      exact h.fits
  · rintro ⟨high, rfl, h⟩
    have hbytes := h.ne_nil
    refine ⟨?_, ?_, ?_, ?_, ?_⟩
    · rw [List.dropLast_cons_of_ne_nil hbytes]
      intro other hother
      rcases List.mem_cons.mp hother with rfl | hother
      · exact hmore
      · exact h.continued other hother
    · rw [List.getLast?_cons_of_ne_nil hbytes]
      exact h.ended
    · have hlength := h.length_le
      rw [List.length_cons]
      omega
    · exact (Signedness.fits_group_iff hwidth hlow high).mpr h.fits
    · rw [denoted_cons hmore hbytes, h.value_eq]

/-- In less than seven bits no byte can continue. -/
theorem not_encodes_cons (hwidth : width < 7) (hmore : 128 ≤ byte.toNat) :
    ¬ Encodes sign width value (byte :: bytes) := by
  intro h
  have hlength := h.length_le
  rw [List.length_cons] at hlength
  have hbytes : bytes = [] := List.length_eq_zero_iff.mp (by omega)
  obtain ⟨last, hlast, hlt⟩ := h.ended
  rw [hbytes, List.getLast?_singleton, Option.mem_some_iff] at hlast
  rw [← hlast] at hlt
  omega

/-! ### Decoding -/

section Decoding

variable {decoded : Decoded} {rest : List UInt8}

theorem decode_cons_of_lt (hlast : byte.toNat < 128) :
    decode sign width (byte :: rest) = .ok decoded ↔
      sign.Fits width (lastGroup sign byte) ∧ decoded = ⟨lastGroup sign byte, 1⟩ := by
  rw [decode, if_pos hlast]
  split_ifs with hfits
  · simp [hfits, eq_comm]
  · simp [hfits]

theorem decode_cons_of_le (hmore : 128 ≤ byte.toNat) :
    decode sign width (byte :: rest) = .ok decoded ↔
      7 ≤ width ∧ ∃ high, decode sign (width - 7) rest = .ok high ∧ decoded = high.shift byte := by
  rw [decode, if_neg (Nat.not_lt.mpr hmore)]
  split_ifs with hshort
  · simp [hshort]
  · cases hdecode : decode sign (width - 7) rest with
    | error fault => simp [Except.map]
    | ok high => simp [Except.map, Nat.le_of_not_lt hshort, eq_comm]

/-- A form at the front of the bytes takes at least the first of them. -/
theorem exists_encodes_cons_iff {size : Nat} :
    (∃ front back, byte :: rest = front ++ back ∧ size = front.length ∧
      Encodes sign width value front) ↔
      ∃ front back, rest = front ++ back ∧ size = front.length + 1 ∧
        Encodes sign width value (byte :: front) := by
  constructor
  · rintro ⟨front, back, hinput, hsize, h⟩
    obtain ⟨rfl, -⟩ | ⟨others, rfl, hrest⟩ := List.cons_eq_append_iff.mp hinput
    · exact absurd rfl h.ne_nil
    · exact ⟨others, back, hrest, hsize, h⟩
  · rintro ⟨front, back, rfl, hsize, h⟩
    exact ⟨byte :: front, back, rfl, hsize, h⟩

/-- Decoding finds exactly the written forms at the front of the bytes. Assumes: a width that is no
multiple of seven. -/
theorem decode_iff_encodes (hwidth : width % 7 ≠ 0) (input : List UInt8) :
    decode sign width input = .ok decoded ↔
      ∃ front back, input = front ++ back ∧ decoded.size = front.length ∧
        Encodes sign width decoded.value front := by
  -- Every byte that continues uses up seven bits, so what is left of the width is never a multiple
  -- of seven: the greatest number of bytes and the end of the width are reached at the same byte.
  induction input generalizing width decoded with
  | nil =>
    rw [decode]
    simp only [reduceCtorEq, false_iff, not_exists, not_and]
    intro front back hinput _ h
    exact h.ne_nil (List.append_eq_nil_iff.mp hinput.symm).1
  | cons byte rest ih =>
    obtain ⟨value, size⟩ := decoded
    rw [exists_encodes_cons_iff]
    by_cases hlast : byte.toNat < 128
    · have hnonzero : width ≠ 0 := by omega
      simp only [decode_cons_of_lt hlast, encodes_cons_of_lt hnonzero hlast, Decoded.mk.injEq]
      constructor
      · rintro ⟨hfits, rfl, rfl⟩
        exact ⟨[], rest, rfl, rfl, rfl, hfits, rfl⟩
      · rintro ⟨_, _, -, rfl, rfl, hfits, rfl⟩
        exact ⟨hfits, rfl, rfl⟩
    · have hmore : 128 ≤ byte.toNat := Nat.le_of_not_lt hlast
      rw [decode_cons_of_le hmore]
      by_cases hshort : width < 7
      · simp [hshort, not_encodes_cons hshort hmore]
      · have hlong : 7 < width := by omega
        have hrest : (width - 7) % 7 ≠ 0 := by omega
        simp only [ih hrest, encodes_cons_of_le hlong hmore, Decoded.shift, Decoded.mk.injEq]
        constructor
        · rintro ⟨-, high, ⟨front, back, hinput, hsize, hhigh⟩, rfl, rfl⟩
          exact ⟨front, back, hinput, by rw [hsize], high.value, rfl, hhigh⟩
        · rintro ⟨front, back, hinput, rfl, high, rfl, hhigh⟩
          exact ⟨Nat.le_of_lt hlong, ⟨high, front.length⟩, ⟨front, back, hinput, rfl, hhigh⟩, rfl,
            rfl⟩

end Decoding

end Leb128

end StraightWasm
