import StraightWasm.Proofs.Bytes.Forms
import StraightWasm.Proofs.Bytes.Gathering

/-!
# Integers are read exactly

What becomes of the bytes at hand is decided by the first one that does not continue
(`Leb128.extent?`). If it comes too late, the integer is too long; if it comes in time, the groups
up to it denote an integer, which has to be one of the width; and if there is none, either the bytes
are too few or the integer is too long (`Leb128.verdict`). Decoding group by group comes to that
verdict (`Leb128.decode_eq_verdict`).

Every integer has a shortest form (`Leb128.encodeUnsigned`, `Leb128.encodeSigned`), and it is one of
its written forms (`Leb128.encodes_canonical`). So the shortest form of an integer is read back,
whatever stands behind it. `Reader.integer_exact` says all this of the readers for integers of 32
and 64 bits, together with the fact that a loop on machine words does the same and stays in range.
-/

set_option autoImplicit false
set_option relaxedAutoImplicit false

namespace StraightWasm

namespace Leb128

variable {sign : Signedness} {width : Nat} {byte : UInt8} {rest : List UInt8}

/-! ### The byte that ends an integer -/

/-- How many bytes there are up to and including the first one that does not continue. -/
def extent? (bytes : List UInt8) : Option Nat :=
  (bytes.findIdx? fun byte ↦ byte.toNat < 128).map (· + 1)

theorem extent?_cons_of_lt (hlast : byte.toNat < 128) : extent? (byte :: rest) = some 1 := by
  simp [extent?, List.findIdx?_cons, hlast]

theorem extent?_cons_of_le (hmore : 128 ≤ byte.toNat) :
    extent? (byte :: rest) = (extent? rest).map (· + 1) := by
  simp [extent?, List.findIdx?_cons, Nat.not_lt.mpr hmore]

theorem extent?_eq_none_iff {bytes : List UInt8} :
    extent? bytes = none ↔ ∀ byte ∈ bytes, 128 ≤ byte.toNat := by
  simp [extent?]

/-- The byte that ends an integer is one of the bytes. -/
theorem extent?_between {bytes : List UInt8} {size : Nat} (h : extent? bytes = some size) :
    0 < size ∧ size ≤ bytes.length := by
  obtain ⟨index, hindex, rfl⟩ := Option.map_eq_some_iff.mp h
  obtain ⟨hlt, -⟩ := List.findIdx?_eq_some_iff_getElem.mp hindex
  exact ⟨Nat.succ_pos index, hlt⟩

/-! ### The verdict -/

/-- What becomes of some bytes, judged by the first of them that does not continue. -/
def verdict (sign : Signedness) (width : Nat) (bytes : List UInt8) : Except Fault Decoded :=
  match extent? bytes with
  | some size =>
    if (width + 6) / 7 < size then .error .tooLong
    else if sign.Fits width (denoted sign (bytes.take size)) then
      .ok { value := denoted sign (bytes.take size), size := size }
    else .error .tooLarge
  | none => if bytes.length < (width + 6) / 7 then .error .truncated else .error .tooLong

theorem verdict_cons_of_lt (hwidth : width ≠ 0) (hlast : byte.toNat < 128) :
    verdict sign width (byte :: rest) =
      if sign.Fits width (lastGroup sign byte) then
        .ok { value := lastGroup sign byte, size := 1 }
      else .error .tooLarge := by
  have hroom : ¬(width + 6) / 7 < 1 := by omega
  rw [verdict, extent?_cons_of_lt hlast]
  dsimp only
  rw [if_neg hroom, List.take_succ_cons, List.take_zero, denoted_singleton hlast]

theorem verdict_cons_of_short (hpos : width ≠ 0) (hshort : width < 7) (hmore : 128 ≤ byte.toNat) :
    verdict sign width (byte :: rest) = .error .tooLong := by
  have hone : (width + 6) / 7 = 1 := by omega
  rw [verdict, extent?_cons_of_le hmore, hone]
  cases hrest : extent? rest with
  | none => simp
  | some size =>
    have hsize := (extent?_between hrest).1
    exact if_pos (Nat.succ_lt_succ hsize)

theorem verdict_cons_of_long (hlong : 7 < width) (hmore : 128 ≤ byte.toNat) :
    verdict sign width (byte :: rest) =
      (verdict sign (width - 7) rest).map (Decoded.shift byte) := by
  have hgroups : (width + 6) / 7 = (width - 7 + 6) / 7 + 1 := by omega
  have hlow : (0 : Int) ≤ byte.toNat - 128 ∧ (byte.toNat : Int) - 128 < 128 := by
    have hlt := byte.toNat_lt
    omega
  rw [verdict, verdict, extent?_cons_of_le hmore, hgroups]
  cases hrest : extent? rest with
  | none =>
    simp only [Option.map_none, List.length_cons, Nat.add_lt_add_iff_right]
    split_ifs
    · rfl
    · rfl
  | some size =>
    have hnonempty : rest.take size ≠ [] := by
      obtain ⟨hpos, hle⟩ := extent?_between hrest
      rw [← List.length_pos_iff, List.length_take_of_le hle]
      exact hpos
    simp only [Option.map_some, Nat.add_lt_add_iff_right, List.take_succ_cons,
      denoted_cons hmore hnonempty, Signedness.fits_group_iff hlong hlow]
    split_ifs
    · rfl
    · rfl
    · rfl

/-- Decoding group by group comes to the verdict. Assumes: a width that is no multiple of seven. -/
theorem decode_eq_verdict (hwidth : width % 7 ≠ 0) (bytes : List UInt8) :
    decode sign width bytes = verdict sign width bytes := by
  induction bytes generalizing width with
  | nil =>
    have hgroups : 0 < (width + 6) / 7 := by omega
    exact (if_pos hgroups).symm
  | cons byte rest ih =>
    rw [decode]
    split_ifs with hlast hfits hshort
    · rw [verdict_cons_of_lt (by omega) hlast, if_pos hfits]
    · rw [verdict_cons_of_lt (by omega) hlast, if_neg hfits]
    · exact (verdict_cons_of_short (by omega) hshort (Nat.le_of_not_lt hlast)).symm
    · rw [verdict_cons_of_long (by omega) (Nat.le_of_not_lt hlast), ih (by omega)]

/-! ### Shortest forms -/

/-- The shortest form of a natural number: groups of seven bits until nothing is left. -/
def encodeUnsigned (value : Nat) : List UInt8 :=
  if value < 128 then [UInt8.ofNat value]
  else UInt8.ofNat (value % 128 + 128) :: encodeUnsigned (value / 128)

/-- The shortest form of an integer in two's complement: groups of seven bits until the last group
has the sign of the integer and nothing else is left. -/
def encodeSigned (value : Int) : List UInt8 :=
  if -64 ≤ value ∧ value < 64 then [UInt8.ofNat (value % 128).toNat]
  else UInt8.ofNat ((value % 128).toNat + 128) :: encodeSigned (value / 128)
termination_by value.natAbs
decreasing_by omega

/-- The shortest form of an integer. -/
def canonical : Signedness → Int → List UInt8
  | .unsigned, value => encodeUnsigned value.toNat
  | .signed, value => encodeSigned value

/-- A byte that continues above a shortest form is one, if the width has room for the integer. -/
theorem encodes_continued (hlong : 7 < width) {value : Int} (hfits : sign.Fits width value)
    (h : sign.Fits (width - 7) (value / 128) → Encodes sign (width - 7) (value / 128) rest) :
    Encodes sign width value (UInt8.ofNat ((value % 128).toNat + 128) :: rest) := by
  have hlow : 0 ≤ value % 128 ∧ value % 128 < 128 := by omega
  have hbyte : (UInt8.ofNat ((value % 128).toNat + 128)).toNat = (value % 128).toNat + 128 :=
    UInt8.toNat_ofNat_of_lt' (by change _ < 256; omega)
  have hsplit : value = value % 128 + 128 * (value / 128) := (Int.emod_add_mul_ediv value 128).symm
  have hhigh : sign.Fits (width - 7) (value / 128) := by
    rw [← Signedness.fits_group_iff hlong hlow, ← hsplit]
    exact hfits
  rw [encodes_cons_of_le hlong (by omega)]
  refine ⟨value / 128, ?_, h hhigh⟩
  rw [hbyte]
  omega

theorem encodes_encodeUnsigned {value : Nat} (hpos : width ≠ 0)
    (hfits : Signedness.unsigned.Fits width value) :
    Encodes .unsigned width value (encodeUnsigned value) := by
  fun_induction encodeUnsigned value generalizing width with
  | case1 value hlt =>
    have hbyte : (UInt8.ofNat value).toNat = value :=
      UInt8.toNat_ofNat_of_lt' (by change _ < 256; omega)
    rw [encodes_cons_of_lt hpos (by omega), lastGroup, hbyte]
    exact ⟨rfl, hfits, rfl⟩
  | case2 value hle ih =>
    have hbound : (value : Int) < (2 ^ width : Nat) := hfits.2
    have hlong : 7 < width := by
      by_contra hshort
      have hpow : 2 ^ width ≤ 2 ^ 7 := Nat.pow_le_pow_right (by decide) (Nat.le_of_not_lt hshort)
      omega
    exact encodes_continued hlong hfits (ih (by omega))

theorem encodes_encodeSigned {value : Int} (hpos : width ≠ 0)
    (hfits : Signedness.signed.Fits width value) :
    Encodes .signed width value (encodeSigned value) := by
  fun_induction encodeSigned value generalizing width with
  | case1 value hsmall =>
    have hbyte : (UInt8.ofNat (value % 128).toNat).toNat = (value % 128).toNat :=
      UInt8.toNat_ofNat_of_lt' (by change _ < 256; omega)
    rw [encodes_cons_of_lt hpos (by omega), lastGroup, hbyte]
    refine ⟨rfl, hfits, ?_⟩
    split_ifs
    · omega
    · omega
  | case2 value hlarge ih =>
    have hbetween : -((2 ^ (width - 1) : Nat) : Int) ≤ value ∧
      value < (2 ^ (width - 1) : Nat) := hfits
    have hlong : 7 < width := by
      by_contra hshort
      have hpow : 2 ^ (width - 1) ≤ 2 ^ 6 := Nat.pow_le_pow_right (by decide) (by omega)
      omega
    exact encodes_continued hlong hfits (ih (by omega))

/-- The shortest form of an integer is one of its written forms in every width that has the
integer. -/
theorem encodes_canonical {value : Int} (hpos : width ≠ 0) (hfits : sign.Fits width value) :
    Encodes sign width value (canonical sign value) := by
  cases sign with
  | unsigned =>
    obtain ⟨number, rfl⟩ := Int.eq_ofNat_of_zero_le hfits.1
    exact encodes_encodeUnsigned hpos hfits
  | signed => exact encodes_encodeSigned hpos hfits

end Leb128

namespace Reader

open Leb128

section Exactness

variable {sign : Signedness} {bits : Nat} {span after : Span}

/-- A reader for integers succeeds as the byte that ends an integer says. -/
theorem integer_ok_iff (hbits : bits % 7 ≠ 0) {value : Int} :
    integer sign bits span = .ok value after ↔
      ∃ size, extent? span.bytes = some size ∧ size ≤ (bits + 6) / 7 ∧
        value = denoted sign (span.bytes.take size) ∧ sign.Fits bits value ∧
        after = span.advance size := by
  rw [integer, decode_eq_verdict hbits, verdict]
  cases hextent : extent? span.bytes with
  | none =>
    split_ifs
    · simp
    · simp
  | some size =>
    dsimp only
    split_ifs with hlong hfits
    · simp [Nat.not_le.mpr hlong]
    · simp only [EStateM.Result.ok.injEq, Option.some.injEq, exists_eq_left']
      constructor
      · rintro ⟨rfl, rfl⟩
        exact ⟨Nat.le_of_not_lt hlong, rfl, hfits, rfl⟩
      · rintro ⟨-, rfl, -, rfl⟩
        exact ⟨rfl, rfl⟩
    · simp only [Option.some.injEq, exists_eq_left', false_iff]
      rintro ⟨-, rfl, hfits', -⟩
      exact hfits hfits'

/-- Whether a span ends within an integer: all of its bytes continue, and an integer of the width
could have more of them. -/
def Starved (bits : Nat) (span : Span) : Prop :=
  span.length < (bits + 6) / 7 ∧ ∀ byte ∈ span.bytes, 128 ≤ byte.toNat

/-- A reader for integers that fails has taken nothing. It has run out of bytes or met a malformed
integer. -/
theorem integer_error (hbits : bits % 7 ≠ 0) {failure : Diagnostic}
    (h : integer sign bits span = .error failure after) :
    after = span ∧
      (Starved bits span ∧ failure = .endOfInput span.endOffset 1 ∨
        ¬Starved bits span ∧
          (failure = .malformed span.offset (.integerTooLong bits) ∨
            failure = .malformed span.offset (.integerTooLarge bits))) := by
  rw [integer, decode_eq_verdict hbits, verdict] at h
  rw [Starved, ← extent?_eq_none_iff]
  cases hextent : extent? span.bytes with
  | none =>
    rw [hextent] at h
    dsimp only at h
    split_ifs at h with hfew
    · cases h
      exact ⟨rfl, .inl ⟨⟨hfew, rfl⟩, rfl⟩⟩
    · cases h
      exact ⟨rfl, .inr ⟨fun hstarved ↦ hfew hstarved.1, .inl rfl⟩⟩
  | some size =>
    have hends : ¬(span.length < (bits + 6) / 7 ∧ some size = none) := by simp
    rw [hextent] at h
    dsimp only at h
    split_ifs at h
    · cases h
      exact ⟨rfl, .inr ⟨hends, .inl rfl⟩⟩
    · cases h
      exact ⟨rfl, .inr ⟨hends, .inr rfl⟩⟩

/-- A reader for integers reads a written form back, whatever stands behind it. -/
theorem integer_of_encodes (hbits : bits % 7 ≠ 0) {value : Int} {bytes : List UInt8}
    (h : Encodes sign bits value bytes) (offset : Nat) (suffix : List UInt8) :
    integer sign bits { offset := offset, bytes := bytes ++ suffix } =
      .ok value { offset := offset + bytes.length, bytes := suffix } :=
  (reads_integer sign hbits _ _ _).mpr ⟨bytes, h, rfl, rfl⟩

/-- A natural number is read as the integer that it is. -/
theorem unsigned_ok_iff (hbits : bits % 7 ≠ 0) {number : Nat} :
    unsigned bits span = .ok number after ↔
      integer .unsigned bits span = .ok (number : Int) after :=
  (reads_unsigned hbits _ _ _).trans (reads_integer .unsigned hbits _ _ _).symm

theorem unsigned_error_iff {failure : Diagnostic} :
    unsigned bits span = .error failure after ↔
      integer .unsigned bits span = .error failure after := by
  rw [unsigned, ← bind_pure_comp, Success.bind_error_iff]
  refine or_iff_left ?_
  rintro ⟨value, middle, -, hpure⟩
  cases hpure

end Exactness

/-- Reading an integer is exact. It succeeds if and only if the first byte that does not continue
comes in time and the groups up to it denote an integer of the width; it gives this integer and
takes these bytes. Otherwise it takes nothing and fails at the end of the bytes if all of them
continue and more would be allowed, and else at its start. It reads the shortest form of every
integer of the width back, whatever stands behind it. A loop on machine words does the same, and
neither its subtraction nor its shift ever leaves its range. Assumes: a width of 32 or 64 bits. -/
theorem integer_exact (sign : Signedness) {bits : Nat} (hbits : bits = 32 ∨ bits = 64)
    (span : Span) :
    (∀ value after, integer sign bits span = .ok value after ↔
      ∃ size, extent? span.bytes = some size ∧ size ≤ (bits + 6) / 7 ∧
        value = denoted sign (span.bytes.take size) ∧ sign.Fits bits value ∧
        after = span.advance size) ∧
    (∀ failure after, integer sign bits span = .error failure after →
      after = span ∧
        (Starved bits span ∧ failure = .endOfInput span.endOffset 1 ∨
          ¬Starved bits span ∧
            (failure = .malformed span.offset (.integerTooLong bits) ∨
              failure = .malformed span.offset (.integerTooLarge bits)))) ∧
    (∀ value, sign.Fits bits value → ∀ offset suffix,
      integer sign bits { offset := offset, bytes := canonical sign value ++ suffix } =
        .ok value { offset := offset + (canonical sign value).length, bytes := suffix }) ∧
    (∀ violation, gather violation sign bits 0 0 span.bytes = decode sign bits span.bytes) ∧
    (∀ number after, unsigned bits span = .ok number after ↔
      integer .unsigned bits span = .ok (number : Int) after) ∧
    ∀ failure after, unsigned bits span = .error failure after ↔
      integer .unsigned bits span = .error failure after := by
  have hwidth : bits % 7 ≠ 0 := by omega
  refine ⟨fun _ _ ↦ integer_ok_iff hwidth, fun _ _ ↦ integer_error hwidth, ?_, ?_, ?_, ?_⟩
  · intro value hfits offset suffix
    exact integer_of_encodes hwidth (encodes_canonical (by omega) hfits) offset suffix
  · intro violation
    exact gather_eq_decode violation (by omega) hwidth span.bytes
  · exact fun _ _ ↦ unsigned_ok_iff hwidth
  · exact fun _ _ ↦ unsigned_error_iff

/-- The least integer of 64 bits takes ten bytes, and all but one of the seven bits in the last of
them are padding. -/
theorem integer_exact_least :
    (64 = 32 ∨ 64 = 64) ∧
      integer .signed 64
        { offset := 3
          bytes := [0x80, 0x80, 0x80, 0x80, 0x80, 0x80, 0x80, 0x80, 0x80, 0x7f, 0x0b] } =
        .ok (-9223372036854775808) { offset := 13, bytes := [0x0b] } := by
  refine ⟨.inr rfl, ?_⟩
  rw [(integer_exact .signed (.inr rfl) _).1]
  exact ⟨10, by decide, by decide, by decide, by decide, rfl⟩

end Reader

end StraightWasm
