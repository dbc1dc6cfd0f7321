import Mathlib.Data.Int.ModEq
import Mathlib.Data.Nat.Bitwise
import Mathlib.Tactic.IntervalCases
import Mathlib.Tactic.Ring
import StraightWasm.Proofs.Bytes.IntegerForms

/-!
# Gathering an integer in a machine word

A processor decodes a variable-length integer with masks and shifts. It gathers the groups in a word
of 64 bits, keeps count of the bits that it has passed, tests the last group of a full-length
integer against a mask, and fills the bits above a negative integer at the end (`Leb128.gather`). At
the greatest length of a 64-bit integer the last shift drops six bits of the group.

The loop subtracts what it has passed from the width, and it shifts by what it has passed. A loop
that did something else wherever nothing of the width is left, or the shift reaches the size of the
word, would never do it, and it decodes exactly what `Leb128.decode` does
(`Leb128.gather_eq_decode`). The mask accepts a group if and only if its number fits what is left of
the width (`Leb128.topAgrees_iff`). The word is right up to multiples of 2^64 at every step
(`Leb128.toNat_or_shiftLeft`), which is enough because the integer itself is one of the width.
-/

set_option autoImplicit false
set_option relaxedAutoImplicit false

namespace StraightWasm.Leb128

/-! ### Masks -/

/-- The bits of a group from a position on. -/
def highBits (position : Nat) : UInt8 :=
  0x7f &&& ~~~(((1 : UInt8) <<< UInt8.ofNat position) - 1)

/-- Whether the bits of a last group that have no place in what is left of the width say nothing
new: they are all zero, or in a signed integer all equal to the sign. -/
def topAgrees (sign : Signedness) (left : Nat) (group : UInt8) : Bool :=
  match sign with
  | .unsigned => group &&& highBits left == 0
  | .signed =>
    group &&& highBits (left - 1) == 0 || group &&& highBits (left - 1) == highBits (left - 1)

/-- The mask accepts exactly the groups whose number fits. -/
theorem topAgrees_iff (sign : Signedness) {left : Nat} (hpos : 0 < left) (hlt : left < 7)
    {byte : UInt8} (hlast : byte.toNat < 128) :
    topAgrees sign left (byte &&& 0x7f) = true ↔ sign.Fits left (lastGroup sign byte) := by
  have hall : ∀ bits : BitVec 8, (UInt8.ofBitVec bits).toNat < 128 →
      (topAgrees sign left (UInt8.ofBitVec bits &&& 0x7f) = true ↔
        sign.Fits left (lastGroup sign (UInt8.ofBitVec bits))) := by
    interval_cases left <;> cases sign <;> decide +kernel
  exact hall byte.toBitVec hlast

/-- A group that has room in what is left of the width fits. -/
theorem fits_lastGroup (sign : Signedness) {left : Nat} (hroom : 7 ≤ left) {byte : UInt8}
    (hlast : byte.toNat < 128) : sign.Fits left (lastGroup sign byte) := by
  cases sign with
  | unsigned =>
    have hpow : 2 ^ 7 ≤ 2 ^ left := Nat.pow_le_pow_right (by decide) hroom
    have hbound : (byte.toNat : Int) < (2 ^ left : Nat) := by omega
    exact ⟨Int.natCast_nonneg _, hbound⟩
  | signed =>
    have hpow : 2 ^ 6 ≤ 2 ^ (left - 1) := Nat.pow_le_pow_right (by decide) (by omega)
    have hbetween : -((2 ^ (left - 1) : Nat) : Int) ≤ lastGroup .signed byte ∧
        lastGroup .signed byte < (2 ^ (left - 1) : Nat) := by
      rw [lastGroup]
      split_ifs
      · omega
      · omega
    exact hbetween

/-- The last group is tested only where the width ends within it. -/
theorem rejected_iff (sign : Signedness) {left : Nat} (hpos : 0 < left) {byte : UInt8}
    (hlast : byte.toNat < 128) :
    (left < 7 ∧ ¬topAgrees sign left (byte &&& 0x7f) = true) ↔
      ¬sign.Fits left (lastGroup sign byte) := by
  by_cases hlt : left < 7
  · rw [topAgrees_iff sign hpos hlt hlast]
    exact and_iff_right hlt
  · simp [hlt, fits_lastGroup sign (Nat.le_of_not_lt hlt) hlast]

theorem isLast_iff {byte : UInt8} : byte &&& 0x80 = 0 ↔ byte.toNat < 128 := by
  have hall : ∀ bits : BitVec 8, UInt8.ofBitVec bits &&& 0x80 = 0 ↔
      (UInt8.ofBitVec bits).toNat < 128 := by decide +kernel
  exact hall byte.toBitVec

theorem isNegative_iff {byte : UInt8} (hlast : byte.toNat < 128) :
    byte &&& 0x40 = 0 ↔ byte.toNat < 64 := by
  have hall : ∀ bits : BitVec 8, (UInt8.ofBitVec bits).toNat < 128 →
      (UInt8.ofBitVec bits &&& 0x40 = 0 ↔ (UInt8.ofBitVec bits).toNat < 64) := by decide +kernel
  exact hall byte.toBitVec hlast

theorem toNat_and_group (byte : UInt8) : (byte &&& 0x7f).toNat = byte.toNat % 128 := by
  rw [UInt8.toNat_and]
  exact Nat.and_two_pow_sub_one_eq_mod byte.toNat 7

/-! ### The loop -/

/-- Fills the bits of a word from a position on if an integer is negative, as its last byte says. -/
def extend (sign : Signedness) (shift : Nat) (word : BitVec 64) (last : UInt8) : BitVec 64 :=
  if sign = .signed ∧ shift < 64 ∧ last &&& 0x40 ≠ 0 then word ||| (~~~0#64) <<< shift else word

/-- The integer that the low bits of a word stand for. -/
def narrow (sign : Signedness) (bits : Nat) (word : BitVec 64) : Int :=
  match sign with
  | .unsigned => (word.toNat % 2 ^ bits : Nat)
  | .signed => Int.bmod word.toNat (2 ^ bits)

/-- Gathers the groups of an integer in a word that holds the groups passed so far. What is left of
the width is the difference of the width and the shift. If there is no such number, or the word
cannot be shifted so far, something else happens. -/
def gather (violation : Except Fault Decoded) (sign : Signedness) (bits shift : Nat)
    (word : BitVec 64) : List UInt8 → Except Fault Decoded
  | [] => .error .truncated
  | byte :: rest =>
    let isLast := byte &&& 0x80 = 0
    let gathered := word ||| BitVec.ofNat 64 (byte &&& 0x7f).toNat <<< shift
    if bits ≤ shift ∨ 64 ≤ shift then violation
    else if bits - shift < 7 ∧ ¬isLast then .error .tooLong
    else if bits - shift < 7 ∧ ¬topAgrees sign (bits - shift) (byte &&& 0x7f) then .error .tooLarge
    else if isLast then
      .ok { value := narrow sign bits (extend sign (shift + 7) gathered byte),
            size := (shift + 7) / 7 }
    else gather violation sign bits (shift + 7) gathered rest

/-! ### What the word holds -/

/-- Putting a number above another one in a word adds it, up to the size of the word. -/
theorem toNat_or_shiftLeft {low : BitVec 64} {shift : Nat} (h : low.toNat < 2 ^ shift)
    (high : BitVec 64) :
    (low ||| high <<< shift).toNat = (low.toNat + high.toNat * 2 ^ shift) % 2 ^ 64 := by
  have hadd := Nat.shiftLeft_add_eq_or_of_lt h high.toNat
  rw [BitVec.toNat_or, BitVec.toNat_shiftLeft]
  nth_rewrite 1 [← Nat.mod_eq_of_lt low.isLt]
  rw [← Nat.or_mod_two_pow, Nat.or_comm, ← hadd, Nat.shiftLeft_eq, Nat.add_comm]

section Word

variable {sign : Signedness} {bits shift : Nat} {word : BitVec 64} {byte : UInt8}

theorem toNat_gathered (hword : word.toNat < 2 ^ shift) (byte : UInt8) :
    (word ||| BitVec.ofNat 64 (byte &&& 0x7f).toNat <<< shift).toNat =
      (word.toNat + byte.toNat % 128 * 2 ^ shift) % 2 ^ 64 := by
  have hsmall : byte.toNat % 128 < 2 ^ 64 := by omega
  rw [toNat_or_shiftLeft hword, BitVec.toNat_ofNat, toNat_and_group, Nat.mod_eq_of_lt hsmall]

/-- A word that holds an integer of a width up to multiples of its own size gives the integer. -/
theorem narrow_eq (hpos : 0 < bits) (hbits : bits ≤ 64) {value : Int}
    (hfits : sign.Fits bits value) (hword : word.toNat ≡ value [ZMOD 2 ^ 64]) :
    narrow sign bits word = value := by
  have hmod : word.toNat ≡ value [ZMOD (2 ^ bits : Nat)] := by
    refine hword.of_dvd ?_
    exact_mod_cast pow_dvd_pow 2 hbits
  cases sign with
  | unsigned =>
    obtain ⟨hlow, hhigh⟩ : 0 ≤ value ∧ value < (2 ^ bits : Nat) := hfits
    rw [narrow, Int.natCast_mod, hmod.eq, Int.emod_eq_of_lt hlow hhigh]
  | signed =>
    obtain ⟨hlow, hhigh⟩ : -((2 ^ (bits - 1) : Nat) : Int) ≤ value ∧
      value < (2 ^ (bits - 1) : Nat) := hfits
    have hhalf : 2 ^ bits = 2 * 2 ^ (bits - 1) := by
      rw [← pow_succ', Nat.sub_add_cancel hpos]
    rw [narrow, Int.bmod_eq_iff (Nat.two_pow_pos bits)]
    refine ⟨?_, ?_, Int.modEq_iff_dvd.mp hmod⟩
    · rw [hhalf]
      omega
    · rw [hhalf]
      omega

/-- With the bits above a negative integer filled, the word holds the groups passed so far and the
number of the last group above them. -/
theorem extend_modEq (sign : Signedness) (hword : word.toNat < 2 ^ shift)
    (hlast : byte.toNat < 128) :
    (extend sign (shift + 7) (word ||| BitVec.ofNat 64 (byte &&& 0x7f).toNat <<< shift)
      byte).toNat ≡ word.toNat + 2 ^ shift * lastGroup sign byte [ZMOD 2 ^ 64] := by
  have hgathered := toNat_gathered hword byte
  rw [Nat.mod_eq_of_lt hlast] at hgathered
  generalize word ||| BitVec.ofNat 64 (byte &&& 0x7f).toNat <<< shift = gathered at hgathered ⊢
  have hplain : gathered.toNat ≡ word.toNat + 2 ^ shift * byte.toNat [ZMOD 2 ^ 64] := by
    rw [hgathered, mul_comm byte.toNat]
    push_cast
    exact Int.mod_modEq _ _
  have hsplit : (word.toNat : Int) + 2 ^ shift * (byte.toNat - 128) =
      word.toNat + 2 ^ shift * byte.toNat - 2 ^ (shift + 7) := by ring
  unfold extend
  split_ifs with hfill
  · -- Filling adds all bits from the next group on, which is to subtract the value of the lowest.
    obtain ⟨rfl, hroom, hnegative⟩ := hfill
    rw [Ne, isNegative_iff hlast] at hnegative
    have hbelow : gathered.toNat < 2 ^ (shift + 7) := by
      have hgroup := Nat.mul_le_mul_right (2 ^ shift) (Nat.le_of_lt_succ hlast)
      rw [hgathered, pow_add]
      exact (Nat.mod_le _ _).trans_lt (by omega)
    have hones : (~~~0#64).toNat = 2 ^ 64 - 1 := rfl
    rw [toNat_or_shiftLeft hbelow, hones, lastGroup, if_neg hnegative, hsplit]
    calc (((gathered.toNat + (2 ^ 64 - 1) * 2 ^ (shift + 7)) % 2 ^ 64 : Nat) : Int)
        ≡ gathered.toNat + (2 ^ 64 - 1) * 2 ^ (shift + 7) [ZMOD 2 ^ 64] := by
          push_cast
          exact Int.mod_modEq _ _
      _ ≡ gathered.toNat - 2 ^ (shift + 7) [ZMOD 2 ^ 64] :=
          Int.modEq_iff_dvd.mpr ⟨-2 ^ (shift + 7), by ring⟩
      _ ≡ word.toNat + 2 ^ shift * byte.toNat - 2 ^ (shift + 7) [ZMOD 2 ^ 64] :=
          hplain.sub_right _
  · cases sign with
    | unsigned => exact hplain
    | signed =>
      rw [lastGroup]
      split_ifs with hpositive
      · exact hplain
      · -- At the greatest length what would have to be subtracted has no place in the word.
        have hfull : 64 ≤ shift + 7 := by
          by_contra hroom
          exact hfill ⟨rfl, by omega, fun hzero ↦ hpositive ((isNegative_iff hlast).mp hzero)⟩
        rw [hsplit]
        refine hplain.trans (Int.modEq_iff_dvd.mpr ?_)
        rw [sub_sub_cancel_left, Int.dvd_neg]
        exact pow_dvd_pow 2 hfull

end Word

/-! ### The loop decodes -/

section Loop

variable {sign : Signedness} {bits : Nat} (violation : Except Fault Decoded)

/-- An integer of what is left of a width fits the width above what was passed. -/
theorem fits_above {shift low : Nat} (hshift : shift < bits) (hlow : low < 2 ^ shift) {high : Int}
    (hfits : sign.Fits (bits - shift) high) : sign.Fits bits (low + 2 ^ shift * high) := by
  -- Both bounds of the width are those of what is left of it, times the value of the shift.
  have hbetween : ∀ bound : Nat, -(bound : Int) ≤ high → high < bound →
      -((2 ^ shift * bound : Nat) : Int) ≤ low + 2 ^ shift * high ∧
        low + 2 ^ shift * high < (2 ^ shift * bound : Nat) := by
    intro bound hleast hbound
    have hpow : (0 : Int) ≤ 2 ^ shift := by positivity
    have hbelow := mul_le_mul_of_nonneg_left hleast hpow
    have habove := mul_le_mul_of_nonneg_left (Int.le_sub_one_of_lt hbound) hpow
    have hlow' : (low : Int) < 2 ^ shift := by exact_mod_cast hlow
    push_cast
    constructor
    · linarith
    · linarith
  cases sign with
  | unsigned =>
    obtain ⟨hleast, hbound⟩ : 0 ≤ high ∧ high < (2 ^ (bits - shift) : Nat) := hfits
    have hpow : 2 ^ shift * 2 ^ (bits - shift) = 2 ^ bits := by
      rw [← pow_add, Nat.add_sub_cancel' hshift.le]
    have hhigh := (hbetween _ (by omega) hbound).2
    rw [hpow] at hhigh
    exact ⟨by positivity, hhigh⟩
  | signed =>
    have hpow : 2 ^ shift * 2 ^ (bits - shift - 1) = 2 ^ (bits - 1) := by
      rw [← pow_add]
      congr 1
      omega
    have hboth := hbetween (2 ^ (bits - shift - 1)) hfits.1 hfits.2
    rw [hpow] at hboth
    exact hboth

section Step

variable {shift : Nat} {byte : UInt8} (hshift : shift < bits) (hbits : bits ≤ 64)
include hshift hbits

/-- A byte that does not continue ends the loop. -/
theorem gather_cons_of_lt (hlast : byte.toNat < 128) (word : BitVec 64) (rest : List UInt8) :
    gather violation sign bits shift word (byte :: rest) =
      if sign.Fits (bits - shift) (lastGroup sign byte) then
        .ok { value := narrow sign bits (extend sign (shift + 7)
                (word ||| BitVec.ofNat 64 (byte &&& 0x7f).toNat <<< shift) byte),
              size := (shift + 7) / 7 }
      else .error .tooLarge := by
  have hguard : ¬(bits ≤ shift ∨ 64 ≤ shift) := by omega
  have hmask := rejected_iff sign (Nat.sub_pos_of_lt hshift) hlast
  rw [gather]
  by_cases hfits : sign.Fits (bits - shift) (lastGroup sign byte)
  · rw [if_neg hguard, if_neg (fun h ↦ h.2 (isLast_iff.mpr hlast)),
      if_neg (fun h ↦ hmask.mp h hfits), if_pos (isLast_iff.mpr hlast), if_pos hfits]
  · rw [if_neg hguard, if_neg (fun h ↦ h.2 (isLast_iff.mpr hlast)), if_pos (hmask.mpr hfits),
      if_neg hfits]

/-- A byte that continues has to leave something of the width. -/
theorem gather_cons_of_le (hmore : 128 ≤ byte.toNat) (word : BitVec 64) (rest : List UInt8) :
    gather violation sign bits shift word (byte :: rest) =
      if bits - shift < 7 then .error .tooLong
      else gather violation sign bits (shift + 7)
        (word ||| BitVec.ofNat 64 (byte &&& 0x7f).toNat <<< shift) rest := by
  have hguard : ¬(bits ≤ shift ∨ 64 ≤ shift) := by omega
  have hlast : ¬byte &&& 0x80 = 0 := by
    rw [isLast_iff]
    exact Nat.not_lt.mpr hmore
  rw [gather, if_neg hguard]
  by_cases hshort : bits - shift < 7
  · rw [if_pos ⟨hshort, hlast⟩, if_pos hshort]
  · rw [if_neg (fun h ↦ hshort h.1), if_neg (fun h ↦ hshort h.1), if_neg hlast, if_neg hshort]

end Step

/-- Assumes: a width up to 64 that is no multiple of seven, some groups passed but not all that the
width asks for, and the number of these groups in the word. -/
theorem gather_eq (hbits : bits ≤ 64) (hwidth : bits % 7 ≠ 0) (input : List UInt8) :
    ∀ {passed : Nat} {word : BitVec 64}, 7 * passed < bits → word.toNat < 2 ^ (7 * passed) →
      gather violation sign bits (7 * passed) word input =
        (decode sign (bits - 7 * passed) input).map fun decoded ↦
          { value := word.toNat + 2 ^ (7 * passed) * decoded.value
            size := passed + decoded.size } := by
  induction input with
  | nil => exact fun _ _ ↦ rfl
  | cons byte rest ih =>
    intro passed word hpassed hword
    by_cases hlast : byte.toNat < 128
    · rw [gather_cons_of_lt violation hpassed hbits hlast, decode, if_pos hlast]
      split_ifs with hfits
      · rw [narrow_eq (by omega) hbits (fits_above hpassed hword hfits)
          (extend_modEq sign hword hlast), Except.map]
        have hsize : (7 * passed + 7) / 7 = passed + 1 := by omega
        rw [hsize]
      · rfl
    · rw [gather_cons_of_le violation hpassed hbits (Nat.le_of_not_lt hlast), decode, if_neg hlast]
      split_ifs with hshort
      · rfl
      · -- One more group is in the word, and seven bits less are left of the width.
        have hgroup : byte.toNat % 128 = byte.toNat - 128 ∧ byte.toNat - 128 ≤ 127 := by
          have hlt := byte.toNat_lt
          omega
        have hgathered := toNat_gathered hword byte
        rw [hgroup.1] at hgathered
        generalize word ||| BitVec.ofNat 64 (byte &&& 0x7f).toNat <<< (7 * passed) = gathered
          at hgathered ⊢
        have hbelow : word.toNat + (byte.toNat - 128) * 2 ^ (7 * passed) <
            2 ^ (7 * (passed + 1)) := by
          have hle := Nat.mul_le_mul_right (2 ^ (7 * passed)) hgroup.2
          rw [Nat.mul_add, pow_add]
          omega
        rw [Nat.mod_eq_of_lt (hbelow.trans_le (Nat.pow_le_pow_right (by decide) (by omega)))]
          at hgathered
        have hrest := @ih (passed + 1) gathered (by omega) (hgathered ▸ hbelow)
        rw [Nat.mul_add, Nat.mul_one, ← Nat.sub_sub] at hrest
        rw [hrest, hgathered]
        cases decode sign (bits - 7 * passed - 7) rest with
        | error fault => rfl
        | ok decoded =>
          simp only [Except.map, Decoded.shift, Except.ok.injEq, Decoded.mk.injEq]
          refine ⟨?_, by omega⟩
          have hcast : ((byte.toNat - 128 : Nat) : Int) = byte.toNat - 128 := by omega
          push_cast [hcast]
          ring

/-- Gathering the groups in a word decodes an integer, and neither the subtraction nor the shift
ever leaves its range. Assumes: a width up to 64 that is no multiple of seven. -/
theorem gather_eq_decode (hbits : bits ≤ 64) (hwidth : bits % 7 ≠ 0) (input : List UInt8) :
    gather violation sign bits 0 0 input = decode sign bits input := by
  have hgather := @gather_eq sign bits violation hbits hwidth input 0 0 (by omega) (by decide)
  rw [Nat.mul_zero, Nat.sub_zero] at hgather
  rw [hgather]
  cases decode sign bits input with
  | error fault => rfl
  | ok decoded => simp [Except.map]

end Loop

end StraightWasm.Leb128
