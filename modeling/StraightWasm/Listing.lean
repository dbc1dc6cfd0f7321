import StraightWasm.Machine.Program
import StraightWasm.Module.Basic
import StraightWasm.Text.SnakeCase

/-!
# Listings

A program as text: for each function a line with its label and the number of registers that it
touches, then one indented line for each instruction, and an empty line between functions.

Labels are made from the names of exports by a conversion, which is a parameter. Where none is given
it is that to snake case.
-/

set_option autoImplicit false
set_option relaxedAutoImplicit false

namespace StraightWasm.Listing

open Machine

/-- The label of a function that has no name of its own. -/
def anonymousLabel (index : Nat) : String :=
  "func_" ++ toString index

/-- The label of the function at `index` among those defined in a module: the name under which it is
exported, converted, unless there is none or nothing is left of it. -/
def label (module : Module) (index : Nat) (convert : String → String := Text.snakeCase) : String :=
  match module.exportName? (module.exportIndex index).toNat with
  | some name =>
    let converted := convert name
    if converted.isEmpty then anonymousLabel index else converted
  | none => anonymousLabel index

/-- The line that opens a function. -/
def heading (convert : String → String) (module : Module) (record : FunctionRecord) : String :=
  label module record.index convert ++ ":  ; " ++ toString record.registerCount ++ " register(s)"

/-- The lines of a function. -/
def block (convert : String → String) (module : Module) (program : Program)
    (record : FunctionRecord) : List String :=
  heading convert module record ::
    (program.codeOf record).map fun instruction ↦ "    " ++ instruction.text

/-- The lines of a program. -/
def lines (convert : String → String) (module : Module) (program : Program) : List String :=
  [""].intercalate (program.functions.toList.map (block convert module program))

/-- The text of a program; every line is ended. -/
def render (module : Module) (program : Program) (convert : String → String := Text.snakeCase) :
    String :=
  String.join ((lines convert module program).map (· ++ "\n"))

end StraightWasm.Listing
