/-!
# Hexadecimal text

Offsets, opcodes and header words appear in messages in base sixteen, with lowercase digits. An
offset is written with as many digits as it needs; a byte or a word is filled up with zeros on the
left to a fixed number of digits.
-/

set_option autoImplicit false
set_option relaxedAutoImplicit false

namespace StraightWasm.Text

/-- The lowercase base-sixteen digits of a number, at least one of them. -/
def hexDigits (number : Nat) : List Char :=
  Nat.toDigits 16 number

/-- The number in base sixteen after the marker `0x`, without leading zeros. -/
def hex (number : Nat) : String :=
  "0x" ++ String.ofList (hexDigits number)

/-- The number in base sixteen after the marker `0x`, filled up to `width` digits. -/
def hexPadded (width number : Nat) : String :=
  "0x" ++ String.ofList ((hexDigits number).leftpad width '0')

/-- A byte in base sixteen after the marker `0x`, always two digits. -/
def hexByte (byte : UInt8) : String :=
  hexPadded 2 byte.toNat

end StraightWasm.Text
