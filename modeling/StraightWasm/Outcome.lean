/-!
# Outcomes

How the run of a function ends. Stack code, linear code and machine code share this notion, so that
their runs can be compared.
-/

set_option autoImplicit false
set_option relaxedAutoImplicit false

namespace StraightWasm

/-- The end of a run. -/
inductive Outcome where
  /-- The function returned; no value when its operand stack was empty. -/
  | returned (value : Option Int32)
  /-- The function trapped. -/
  | trapped
  deriving DecidableEq, Repr

end StraightWasm
