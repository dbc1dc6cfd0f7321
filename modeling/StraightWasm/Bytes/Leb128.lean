/-!
# Variable-length integers

The binary format writes integers in groups of seven bits, the least significant group first. Every
byte but the last has its top bit set. In a signed integer the last group is read as a seven-bit
two's complement number.

`Leb128.decode` reads such an integer of a given width. It follows the groups: a byte that
continues uses up seven bits of the width, and the last group has to fit what is left of it.
-/

set_option autoImplicit false
set_option relaxedAutoImplicit false

namespace StraightWasm

/-- Whether an integer may be negative. -/
inductive Signedness where
  | unsigned
  | signed
  deriving DecidableEq, Repr

namespace Signedness

/-- The least integer of a width. -/
def least : Signedness → Nat → Int
  | unsigned, _ => 0
  | signed, width => -Int.ofNat (Nat.pow 2 (width - 1))

/-- The integer just above the greatest one of a width. -/
def bound : Signedness → Nat → Int
  | unsigned, width => Int.ofNat (Nat.pow 2 width)
  | signed, width => Int.ofNat (Nat.pow 2 (width - 1))

/-- Whether an integer is one of the given width. -/
def Fits (sign : Signedness) (width : Nat) (value : Int) : Prop :=
  sign.least width ≤ value ∧ value < sign.bound width

instance (sign : Signedness) (width : Nat) (value : Int) : Decidable (sign.Fits width value) :=
  inferInstanceAs (Decidable (_ ∧ _))

end Signedness

namespace Leb128

/-- Why the bytes at hand are not an integer of the wanted width. -/
inductive Fault where
  /-- The bytes end before the last group. -/
  | truncated
  /-- The integer goes on although its width is used up. -/
  | tooLong
  /-- The last group does not fit what is left of the width. -/
  | tooLarge
  deriving DecidableEq, Repr

/-- An integer together with the number of bytes that it took. -/
structure Decoded where
  value : Int
  size : Nat
  deriving DecidableEq, Repr

/-- The number that a last group stands for. -/
def lastGroup (sign : Signedness) (byte : UInt8) : Int :=
  match sign with
  | .unsigned => byte.toNat
  | .signed => if byte.toNat < 64 then byte.toNat else byte.toNat - 128

/-- Puts a continuing byte in front of an integer that has been decoded. -/
def Decoded.shift (byte : UInt8) (decoded : Decoded) : Decoded where
  value := (byte.toNat - 128) + 128 * decoded.value
  size := decoded.size + 1

/-- Reads an integer of at most `width` bits from the front of the bytes. -/
def decode (sign : Signedness) (width : Nat) : List UInt8 → Except Fault Decoded
  | [] => .error .truncated
  | byte :: rest =>
    if byte.toNat < 128 then
      if sign.Fits width (lastGroup sign byte) then .ok { value := lastGroup sign byte, size := 1 }
      else .error .tooLarge
    else if width < 7 then .error .tooLong
    else (decode sign (width - 7) rest).map (Decoded.shift byte)

/-- An integer that was decoded took at least one byte and no more bytes than there were. -/
theorem size_of_decode {sign : Signedness} {width : Nat} {bytes : List UInt8} {decoded : Decoded}
    (h : decode sign width bytes = .ok decoded) :
    0 < decoded.size ∧ decoded.size ≤ bytes.length := by
  induction bytes generalizing width decoded with
  | nil => simp [decode] at h
  | cons byte rest ih =>
    rw [decode] at h
    split at h
    · split at h
      · cases h
        simp
      · cases h
    · split at h
      · cases h
      · cases hrest : decode sign (width - 7) rest with
        | error fault => simp [hrest, Except.map] at h
        | ok tail =>
          simp only [hrest, Except.map, Except.ok.injEq] at h
          have hsize := (ih hrest).2
          subst h
          simp only [Decoded.shift, List.length_cons]
          omega

end Leb128

end StraightWasm
