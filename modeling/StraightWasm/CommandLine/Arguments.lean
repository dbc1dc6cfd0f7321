import StraightWasm.Compile

/-!
# Command-line arguments

The arguments are read from left to right. An option takes its value from the rest of its own
argument or from the next one, which then must not look like an option itself; the argument `--`
ends the options. The requests for the version and for help take effect as soon as they are met, so
faults behind them do not matter and faults before them do.
-/

set_option autoImplicit false
set_option relaxedAutoImplicit false

namespace StraightWasm.CommandLine

/-- What a compilation from the command line needs: the file to read, the file to write unless the
listing goes to standard output, and the options of the compiler. -/
structure Invocation where
  input : String
  output : Option String
  options : Options
  deriving DecidableEq, Repr

/-- What the arguments ask for. -/
inductive Request where
  | compile (invocation : Invocation)
  | version
  | help
  deriving DecidableEq, Repr

/-- The options that take a value. -/
inductive Setting where
  | output
  | stackCapacity
  | registers
  | allocator
  deriving DecidableEq, Repr

/-- Why the arguments cannot be understood. -/
inductive UsageFault where
  | unknownOption (argument : String)
  | repeated (setting : Setting)
  | missingValue (setting : Setting)
  | invalidValue (value : String)
  | unexpectedValue (argument : String)
  | extraArgument (argument : String)
  | missingInput
  deriving DecidableEq, Repr

namespace Setting

/-- The name of a setting behind the two hyphens. -/
def name : Setting → String
  | output => "output"
  | stackCapacity => "stack-capacity"
  | registers => "registers"
  | allocator => "allocator"

end Setting

namespace UsageFault

/-- The fault in words. -/
def message : UsageFault → String
  | unknownOption argument => s!"unexpected argument '{argument}' found"
  | repeated setting =>
    let name := setting.name
    s!"the argument '--{name}' cannot be used multiple times"
  | missingValue setting =>
    let name := setting.name
    s!"a value is required for '--{name}' but none was supplied"
  | invalidValue value => s!"invalid value '{value}'"
  | unexpectedValue argument => s!"unexpected value in '{argument}'"
  | extraArgument argument => s!"unexpected argument '{argument}' found"
  | missingInput => "the input file was not provided"

end UsageFault

/-! ### Values -/

/-- The number that a non-empty row of decimal digits stands for. -/
def decimal? (digits : List Char) : Option Nat :=
  if digits.isEmpty || !digits.all Char.isDigit then none
  else some (digits.foldl (fun number digit ↦ 10 * number + (digit.toNat - '0'.toNat)) 0)

/-- A decimal number with an optional plus sign. -/
def natural? : List Char → Option Nat
  | '+' :: digits => decimal? digits
  | digits => decimal? digits

/-- A decimal number with an optional sign. -/
def integer? : List Char → Option Int
  | '-' :: digits => (decimal? digits).map fun magnitude ↦ -(magnitude : Int)
  | digits => (natural? digits).map fun magnitude ↦ (magnitude : Int)

/-- A capacity is a natural number of at most 64 bits. -/
def capacity? (value : String) : Option Nat :=
  (natural? value.toList).filter (· < UInt64.size)

/-- A register count is an integer from zero to 65535. -/
def registerCount? (value : String) : Option Nat :=
  ((integer? value.toList).filter fun count ↦ 0 ≤ count ∧ count ≤ 65535).map Int.toNat

/-- A path is any text but the empty one. -/
def path? (value : String) : Option String :=
  if value.isEmpty then none else some value

/-- The two strategies by name. -/
def strategy? : String → Option Machine.Strategy
  | "monotonic" => some .monotonic
  | "free-list" => some .freeList
  | _ => none

/-! ### Reading arguments -/

/-- What the arguments read so far have set. -/
structure Draft where
  input : Option String := none
  output : Option String := none
  stackCapacity : Option Nat := none
  registers : Option Nat := none
  strategy : Option Machine.Strategy := none

/-- A value for something that must not have been set before. -/
def once {α : Type} (setting : Setting) (previous : Option α) (value : String)
    (meaning : String → Option α) : Except UsageFault (Option α) :=
  match previous, meaning value with
  | some _, _ => .error (.repeated setting)
  | none, some found => .ok (some found)
  | none, none => .error (.invalidValue value)

namespace Draft

/-- Gives a setting its value. -/
def set (setting : Setting) (value : String) (draft : Draft) : Except UsageFault Draft :=
  match setting with
  | .output => do
    pure { draft with output := ← once setting draft.output value path? }
  | .stackCapacity => do
    pure { draft with stackCapacity := ← once setting draft.stackCapacity value capacity? }
  | .registers => do
    pure { draft with registers := ← once setting draft.registers value registerCount? }
  | .allocator => do
    pure { draft with strategy := ← once setting draft.strategy value strategy? }

/-- Takes an argument that is no option as the input. -/
def setInput (argument : String) (draft : Draft) : Except UsageFault Draft :=
  match draft.input, path? argument with
  | some _, _ => .error (.extraArgument argument)
  | none, some path => .ok { draft with input := some path }
  | none, none => .error (.invalidValue argument)

/-- The request of arguments that have been read to the end. What was not set has its default. -/
def request (draft : Draft) : Except UsageFault Request :=
  match draft.input with
  | none => .error .missingInput
  | some input =>
    let standard : Options := {}
    .ok <| .compile
      { input := input
        output := draft.output
        options :=
          { stackCapacity := draft.stackCapacity.getD standard.stackCapacity
            registers := draft.registers.getD standard.registers
            strategy := draft.strategy.getD standard.strategy } }

end Draft

/-- What an argument asks for by itself. -/
inductive Argument where
  /-- Something that is no option. -/
  | plain
  /-- The end of the options. -/
  | endOfOptions
  /-- A setting, with its value if that is part of the argument. -/
  | setting (setting : Setting) (value : Option String)
  /-- A request that needs nothing else. -/
  | immediate (request : Request)
  /-- An option that cannot be understood. -/
  | faulty (fault : UsageFault)

/-- The name of a long option and the value attached by an equals sign, if any. -/
def splitAttached (body : List Char) : String × Option String :=
  (String.ofList (body.takeWhile (· ≠ '=')),
    match body.dropWhile (· ≠ '=') with
    | _ :: value => some (String.ofList value)
    | [] => none)

namespace Argument

/-- A request that is written as a long option and takes no value. -/
def flag (argument : String) (request : Request) : Option String → Argument
  | none => .immediate request
  | some _ => .faulty (.unexpectedValue argument)

/-- A long option, by its name and its attached value. -/
def ofLong (argument : String) : String × Option String → Argument
  | ("output", value) => .setting .output value
  | ("stack-capacity", value) => .setting .stackCapacity value
  | ("registers", value) => .setting .registers value
  | ("allocator", value) => .setting .allocator value
  | ("version", value) => flag argument .version value
  | ("help", value) => flag argument .help value
  | _ => .faulty (.unknownOption argument)

/-- A short option, by its letter and the rest of its argument. -/
def ofShort (argument : String) : Char → List Char → Argument
  | 'o', [] => .setting .output none
  | 'o', '=' :: value => .setting .output (some (String.ofList value))
  | 'o', value => .setting .output (some (String.ofList value))
  | 'V', _ => .immediate .version
  | 'h', _ => .immediate .help
  | _, _ => .faulty (.unknownOption argument)

/-- What an argument asks for. A lone hyphen is no option. -/
def ofString (argument : String) : Argument :=
  match argument.toList with
  | ['-', '-'] => .endOfOptions
  | '-' :: '-' :: body => ofLong argument (splitAttached body)
  | '-' :: letter :: rest => ofShort argument letter rest
  | _ => .plain

end Argument

/-- Reads the arguments behind the end of the options. -/
def readPlain (draft : Draft) : List String → Except UsageFault Request
  | [] => draft.request
  | argument :: rest => do readPlain (← draft.setInput argument) rest

/-- Reads the remaining arguments, the first of which has to be the value of `waiting` if a setting
waits for one. -/
def readArguments (draft : Draft) (waiting : Option Setting) :
    List String → Except UsageFault Request
  | [] =>
    match waiting with
    | some setting => .error (.missingValue setting)
    | none => draft.request
  | argument :: rest =>
    match waiting, Argument.ofString argument with
    | some setting, .plain => do readArguments (← draft.set setting argument) none rest
    | some setting, _ => .error (.missingValue setting)
    | none, .plain => do readArguments (← draft.setInput argument) none rest
    | none, .endOfOptions => readPlain draft rest
    | none, .setting setting (some value) => do
      readArguments (← draft.set setting value) none rest
    | none, .setting setting none => readArguments draft (some setting) rest
    | none, .immediate request => .ok request
    | none, .faulty fault => .error fault

/-- What a list of arguments asks for. -/
def parse (arguments : List String) : Except UsageFault Request :=
  readArguments {} none arguments

end StraightWasm.CommandLine
