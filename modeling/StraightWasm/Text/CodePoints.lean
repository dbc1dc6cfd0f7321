/-!
# Sets of characters

Character properties are given as lists of runs. A run is an arithmetic progression of code points:
all those between two ends, or every second one of them, as where upper and lower case alternate.
The properties are those of Unicode 17.
-/

set_option autoImplicit false
set_option relaxedAutoImplicit false

namespace StraightWasm.Text

/-- The code points `first`, `first + stride`, and so on up to `last`. -/
structure Run where
  first : Nat
  last : Nat
  stride : Nat
  deriving DecidableEq, Repr

namespace Run

/-- Whether a code point belongs to a run. -/
def contains (run : Run) (code : Nat) : Bool :=
  run.first ≤ code && code ≤ run.last && (code - run.first) % run.stride == 0

end Run

/-- Whether a character belongs to one of the runs. -/
def inRuns (runs : List Run) (character : Char) : Bool :=
  runs.any fun run ↦ run.contains character.toNat

end StraightWasm.Text
