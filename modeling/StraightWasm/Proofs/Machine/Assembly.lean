import StraightWasm.Proofs.Compilation
import StraightWasm.Proofs.Histories

/-!
# Programs are put together from functions emitted on their own

One pool serves the functions of a program one after the other, and a function that fails or leaves
registers in use leaves it in disorder. The next function resets it, and all that is left of its
history then is the strategy and the number of registers. No action of emission changes these,
whether it succeeds or fails (`Emission.preserves_step`, `Emission.preserves_body`). So a function
gives the same code, touching as many registers, as with a pool of its own (`alone`,
`repeats_emitPiece`).

A program is therefore the assembly of its functions' pieces (`repeats_emitProgram`). Their code
lies in the program in a row without gaps (`Program.assembled_assemble`), and a program that cannot
be put together fails as the first function that fails on its own (`emitProgram_alone`).
-/

set_option autoImplicit false
set_option relaxedAutoImplicit false

namespace StraightWasm.Machine

open Linear (Frame Operand Terminator)
open Success (Preserves Repeats)

/-! ### The settings of the pool -/

/-- Whether an emission draws its registers from a pool with the settings of a given one. -/
def Emitter.Draws (pool : Pool) (emitter : Emitter) : Prop :=
  pool.SameSettings emitter.pool

namespace Emission

variable {frame : Frame} {pool : Pool} {slot register temp : Nat}

theorem preserves_acquire : Preserves (Emitter.Draws pool) (acquire frame) := by
  intro emitter hemitter
  unfold acquire
  cases hacquire : emitter.pool.acquire? with
  | some found => exact Pool.SameSettings.trans hemitter (Pool.sameSettings_acquire? hacquire)
  | none => exact hemitter

theorem preserves_release : Preserves (Emitter.Draws pool) (release register) :=
  Success.preserves_modify fun emitter hemitter ↦
    Pool.SameSettings.trans hemitter (Pool.sameSettings_release register emitter.pool)

theorem preserves_emit (instruction : Instr) :
    Preserves (Emitter.Draws pool) (emit instruction) :=
  Success.preserves_modify fun _ h ↦ h

theorem preserves_bind : Preserves (Emitter.Draws pool) (bind slot register) :=
  fun _ h ↦ h

theorem preserves_checkSlot : Preserves (Emitter.Draws pool) (checkSlot frame slot) :=
  (Success.preserves_pure ()).ite (Success.preserves_throw _)

theorem preserves_define : Preserves (Emitter.Draws pool) (define frame temp register) := by
  intro emitter hemitter
  unfold define
  cases emitter.temps[temp]? with
  | some defined => exact hemitter
  | none => exact hemitter

theorem preserves_consume : Preserves (Emitter.Draws pool) (consume frame temp) := by
  intro emitter hemitter
  unfold consume
  cases emitter.temps[temp]? with
  | some defined => exact hemitter
  | none => exact hemitter

theorem preserves_copySlot : Preserves (Emitter.Draws pool) (copySlot frame slot) := by
  refine preserves_checkSlot.bind fun _ ↦ preserves_acquire.bind fun dest ↦
    Success.preserves_get.bind fun emitter ↦ ?_
  split
  · exact (preserves_emit _).bind fun _ ↦ Success.preserves_pure dest
  · exact (preserves_emit _).bind fun _ ↦ Success.preserves_pure dest

theorem preserves_intoRegister (operand : Operand) :
    Preserves (Emitter.Draws pool) (intoRegister frame operand) := by
  cases operand with
  | const value =>
    exact preserves_acquire.bind fun dest ↦ (preserves_emit _).bind fun _ ↦
      Success.preserves_pure dest
  | slot slot => exact preserves_copySlot
  | temp temp => exact preserves_consume

/-- An instruction keeps the settings, also where it fails. -/
theorem preserves_step (instruction : Linear.Instr) :
    Preserves (Emitter.Draws pool) (step frame instruction) := by
  cases instruction with
  | snapshot dest slot => exact preserves_copySlot.bind fun _ ↦ preserves_define
  | assign slot value =>
    refine preserves_checkSlot.bind fun _ ↦ (preserves_intoRegister value).bind fun register ↦
      preserves_bind.bind fun previous ↦ ?_
    cases previous with
    | some old => exact preserves_release
    | none => exact Success.preserves_pure ()
  | add dest lhs rhs =>
    exact (preserves_intoRegister lhs).bind fun left ↦ (preserves_intoRegister rhs).bind
      fun right ↦ (preserves_emit _).bind fun _ ↦ preserves_release.bind fun _ ↦ preserves_define

theorem preserves_returned (operand : Operand) :
    Preserves (Emitter.Draws pool) (returned frame operand) := by
  cases operand with
  | const value => exact preserves_intoRegister (.const value)
  | temp temp => exact preserves_intoRegister (.temp temp)
  | slot slot =>
    refine Success.preserves_get.bind fun emitter ↦ ?_
    split
    · exact Success.preserves_pure _
    · exact preserves_copySlot

theorem preserves_finish (terminator : Terminator) :
    Preserves (Emitter.Draws pool) (finish frame terminator) := by
  match terminator with
  | .ret (some operand) => exact (preserves_returned operand).bind fun _ ↦ preserves_emit _
  | .ret none => exact Success.preserves_throw _
  | .trap => exact preserves_emit .trap

theorem preserves_placeParams (count : Nat) :
    ∀ slot, Preserves (Emitter.Draws pool) (placeParams frame slot count) := by
  induction count with
  | zero => exact fun slot ↦ Success.preserves_pure ()
  | succ count ih =>
    exact fun slot ↦ preserves_acquire.bind fun _ ↦ preserves_bind.bind fun _ ↦ ih (slot + 1)

theorem preserves_body (function : Linear.Function) :
    Preserves (Emitter.Draws pool) (body function) :=
  (preserves_placeParams _ 0).bind fun _ ↦
    (Preserves.forM preserves_step _).bind fun _ ↦ preserves_finish _

end Emission

/-- Emitting a function keeps the settings of a pool, also where it fails. -/
theorem preserves_emitFunction (settings : Pool) (function : Linear.Function) :
    Preserves settings.SameSettings (emitFunction function) := by
  intro pool hpool
  have hbody := Emission.preserves_body function (.start function.slotCount pool)
    (show settings.SameSettings pool.reset from hpool)
  unfold emitFunction
  cases hrun : Emission.body function (.start function.slotCount pool) with
  | ok value emitter =>
    rw [hrun] at hbody
    exact hbody
  | error failure emitter =>
    rw [hrun] at hbody
    exact hbody

/-! ### Functions on their own -/

/-- The code of a function, its index, and how many registers the code touches. -/
structure Piece where
  index : Nat
  registerCount : Nat
  code : List Instr
  deriving DecidableEq, Repr

/-- Emits the code of a function and notes how many registers were handed out for it. -/
def emitPiece (function : Linear.Function) : Session Piece := do
  let code ← emitFunction function
  let pool ← get
  pure { index := function.index, registerCount := pool.used, code := code }

/-- What emitting a function with a pool of its own answers. -/
def alone (strategy : Strategy) (registers : Nat) (function : Linear.Function) :
    Except Diagnostic Piece :=
  Success.answer (emitPiece function (.ofLimit strategy registers))

variable {strategy : Strategy} {registers : Nat}

/-- From every pool a function is emitted as from one of its own. -/
theorem repeats_emitPiece (strategy : Strategy) (registers : Nat) (function : Linear.Function) :
    Repeats (Pool.ofLimit strategy registers).SameSettings (emitPiece function)
      (alone strategy registers function) := by
  refine ⟨(preserves_emitFunction _ function).bind fun code ↦
    Success.preserves_get.bind fun pool ↦ Success.preserves_pure _, ?_⟩
  -- Behind the reset both runs are the same.
  rintro pool ⟨rfl, rfl⟩
  rfl

theorem index_of_alone {function : Linear.Function} {piece : Piece}
    (h : alone strategy registers function = .ok piece) : piece.index = function.index := by
  obtain ⟨_, hrun⟩ := Success.answer_ok_iff.mp h
  obtain ⟨code, _, -, hrun⟩ := Success.bind_iff.mp hrun
  cases hrun
  rfl

/-! ### Programs from pieces -/

/-- Whether records lie one behind the other from a place to another one. -/
def Consecutive : Nat → List FunctionRecord → Nat → Prop
  | start, [], stop => start = stop
  | start, record :: rest, stop =>
    record.start = start ∧ record.start ≤ record.stop ∧ Consecutive record.stop rest stop

namespace Program

/-- Whether a record says of a piece which function it is, how long its code is and how many
registers it touches. -/
structure Describes (piece : Piece) (record : FunctionRecord) : Prop where
  index_eq : record.index = piece.index
  registerCount_eq : record.registerCount = piece.registerCount
  stop_eq : record.stop = record.start + piece.code.length

/-- Whether a program consists of pieces, in order and without gaps, and has the code of the first
piece of an index under that index. -/
structure Assembled (pieces : List Piece) (program : Program) : Prop where
  instructions_eq : program.instructions.toList = pieces.flatMap Piece.code
  describes : List.Forall₂ Describes pieces program.functions.toList
  consecutive : Consecutive 0 program.functions.toList program.instructions.size
  function?_eq : ∀ index, program.function? index =
    (pieces.find? fun piece ↦ piece.index = index).map Piece.code

/-- Appends a piece to a program. -/
def add (program : Program) (piece : Piece) : Program :=
  program.push piece.index piece.registerCount piece.code

/-- The program that consists of pieces. -/
def assemble (pieces : List Piece) : Program :=
  pieces.foldl add {}

theorem consecutive_concat {records : List FunctionRecord} {record : FunctionRecord} :
    ∀ {start stop : Nat}, Consecutive start records stop → record.start = stop →
      record.start ≤ record.stop → Consecutive start (records ++ [record]) record.stop := by
  induction records with
  | nil =>
    rintro start stop rfl hstart hle
    exact ⟨hstart, hle, rfl⟩
  | cons first rest ih =>
    rintro start stop ⟨hfirst, hle, hrest⟩ hstart hlast
    exact ⟨hfirst, hle, ih hrest hstart hlast⟩

/-- A program that consists of pieces consists of one more after the next was appended. -/
theorem Assembled.add {pieces : List Piece} {program : Program} (h : Assembled pieces program)
    (hwithin : program.Within) (piece : Piece) :
    Assembled (pieces ++ [piece]) (program.add piece) := by
  have hfunctions : (program.add piece).functions.toList = program.functions.toList ++
      [{ index := piece.index
         start := program.instructions.size
         stop := program.instructions.size + piece.code.length
         registerCount := piece.registerCount }] := Array.toList_push
  have hinstructions : (program.add piece).instructions.toList =
      program.instructions.toList ++ piece.code := by
    rw [Program.add, instructions_push]
    simp
  refine ⟨?_, ?_, ?_, fun index ↦ ?_⟩
  · rw [hinstructions, h.instructions_eq]
    simp
  · rw [hfunctions]
    exact List.rel_append h.describes (.cons ⟨rfl, rfl, rfl⟩ .nil)
  · have hsize : (program.add piece).instructions.size =
        program.instructions.size + piece.code.length := by
      rw [← Array.length_toList, hinstructions, List.length_append, Array.length_toList]
    rw [hfunctions, hsize]
    exact consecutive_concat h.consecutive rfl (Nat.le_add_right _ _)
  · rw [Program.add, function?_push hwithin, h.function?_eq, List.find?_append]
    by_cases hindex : piece.index = index
    · cases hfound : pieces.find? fun piece ↦ piece.index = index with
      | none => simp [hindex]
      | some found => simp
    · simp [hindex]

theorem assembled_foldl (pieces : List Piece) :
    ∀ (front : List Piece) {program : Program}, program.Within → Assembled front program →
      Assembled (front ++ pieces) (pieces.foldl Program.add program) := by
  induction pieces with
  | nil =>
    intro front program _ h
    rw [List.append_nil]
    exact h
  | cons piece rest ih =>
    intro front program hwithin h
    have hrest := ih (front ++ [piece]) (hwithin.push _ _ _) (h.add hwithin piece)
    rw [List.append_assoc] at hrest
    exact hrest

theorem assembled_assemble (pieces : List Piece) : Assembled pieces (assemble pieces) :=
  assembled_foldl pieces [] within_empty ⟨rfl, .nil, rfl, fun _ ↦ rfl⟩

end Program

/-! ### Programs of functions -/

/-- From every pool a program is put together from what its functions give on their own. -/
theorem repeats_emitProgram (strategy : Strategy) (registers : Nat)
    (functions : List Linear.Function) :
    Repeats (Pool.ofLimit strategy registers).SameSettings (emitProgram functions)
      ((functions.mapM (alone strategy registers)).map Program.assemble) := by
  have happend : ∀ (program : Program) (function : Linear.Function),
      appendFunction program function =
        (do
          let piece ← emitPiece function
          pure (program.add piece)) := by
    intro program function
    simp only [emitPiece, bind_assoc, pure_bind]
    rfl
  have hround : ∀ (program : Program) (function : Linear.Function),
      Repeats (Pool.ofLimit strategy registers).SameSettings (appendFunction program function)
        (do
          let piece ← alone strategy registers function
          pure (program.add piece)) := by
    intro program function
    rw [happend]
    exact (repeats_emitPiece strategy registers function).bind fun piece ↦ .pure _
  have hloop := Repeats.foldlM functions hround {}
  rw [Success.except_foldlM_eq_map] at hloop
  exact hloop

/-- A request for the code of a function or of a program. -/
inductive Job where
  | function (target : Linear.Function)
  | program (targets : List Linear.Function)

/-- The pool that a request leaves behind, whether it succeeds or fails. -/
def Job.serve (pool : Pool) : Job → Pool
  | .function target => Success.residue (emitFunction target pool)
  | .program targets => Success.residue (emitProgram targets pool)

/-- The pool after some requests. -/
def Pool.afterJobs (strategy : Strategy) (registers : Nat) (jobs : List Job) : Pool :=
  jobs.foldl Job.serve (.ofLimit strategy registers)

/-- After all requests a pool has the settings that it had in the beginning. -/
theorem Pool.sameSettings_afterJobs (strategy : Strategy) (registers : Nat) (jobs : List Job) :
    (Pool.ofLimit strategy registers).SameSettings (.afterJobs strategy registers jobs) := by
  refine List.foldlRecOn jobs Job.serve ⟨rfl, rfl⟩ fun pool hpool job _ ↦ ?_
  cases job with
  | function target => exact preserves_emitFunction _ target pool hpool
  | program targets => exact (repeats_emitProgram strategy registers targets).preserves pool hpool

/-! ### What a program holds -/

/-- Whether pieces are what functions give on their own, in the same order. -/
def GiveAlone (strategy : Strategy) (registers : Nat) : List Linear.Function → List Piece → Prop :=
  List.Forall₂ fun function piece ↦ alone strategy registers function = .ok piece

/-- Whether a failure is that of the first function that fails on its own. -/
def FailsFirst (strategy : Strategy) (registers : Nat) (functions : List Linear.Function)
    (failure : Diagnostic) : Prop :=
  ∃ (position : Nat) (function : Linear.Function), functions[position]? = some function ∧
    alone strategy registers function = .error failure ∧
      ∀ earlier < position, ∀ other, functions[earlier]? = some other →
        ∃ piece, alone strategy registers other = .ok piece

section Emitted

variable {functions : List Linear.Function} {pool : Pool} {program : Program}

theorem emitProgram_ok_iff (hpool : (Pool.ofLimit strategy registers).SameSettings pool) :
    Success.answer (emitProgram functions pool) = .ok program ↔
      ∃ pieces, GiveAlone strategy registers functions pieces ∧
        Program.assemble pieces = program := by
  rw [(repeats_emitProgram strategy registers functions).answer_eq pool hpool]
  unfold GiveAlone
  simp only [← Success.except_mapM_ok_iff]
  cases functions.mapM (alone strategy registers) with
  | ok pieces => simp [Except.map]
  | error failure => simp [Except.map]

theorem emitProgram_error_iff (hpool : (Pool.ofLimit strategy registers).SameSettings pool)
    {failure : Diagnostic} :
    Success.answer (emitProgram functions pool) = .error failure ↔
      FailsFirst strategy registers functions failure := by
  rw [(repeats_emitProgram strategy registers functions).answer_eq pool hpool]
  unfold FailsFirst
  rw [← Success.except_mapM_error_iff]
  cases functions.mapM (alone strategy registers) with
  | ok pieces => simp [Except.map]
  | error failure => simp [Except.map]

/-- The first function of an index gives the first piece of that index. -/
theorem GiveAlone.find? {pieces : List Piece} (h : GiveAlone strategy registers functions pieces)
    (index : Nat) :
    Option.Rel (fun function piece ↦ alone strategy registers function = .ok piece)
      (functions.find? fun function ↦ function.index = index)
      (pieces.find? fun piece ↦ piece.index = index) := by
  induction h with
  | nil => exact .none
  | @cons function piece functions pieces hpiece _ ih =>
    rw [List.find?_cons, List.find?_cons, index_of_alone hpiece]
    split
    · exact .some hpiece
    · exact ih

theorem Program.Assembled.function?_of_find? {pieces : List Piece}
    (h : Assembled pieces program) (hpieces : GiveAlone strategy registers functions pieces)
    {index : Nat} {function : Linear.Function}
    (hfind : functions.find? (fun function ↦ function.index = index) = some function) :
    ∃ piece, alone strategy registers function = .ok piece ∧
      program.function? index = some piece.code := by
  have hrel := hpieces.find? index
  rw [hfind] at hrel
  rw [h.function?_eq]
  generalize pieces.find? _ = found at hrel
  cases hrel with
  | some hpiece => exact ⟨_, hpiece, rfl⟩

theorem Program.Assembled.function?_eq_none_iff {pieces : List Piece}
    (h : Assembled pieces program) (hpieces : GiveAlone strategy registers functions pieces)
    (index : Nat) :
    program.function? index = none ↔ ∀ function ∈ functions, function.index ≠ index := by
  have hrel := hpieces.find? index
  have hnone : functions.find? (fun function ↦ function.index = index) = none ↔
      ∀ function ∈ functions, function.index ≠ index := by simp
  rw [← hnone, h.function?_eq]
  generalize functions.find? _ = function, pieces.find? _ = piece at hrel
  cases hrel with
  | none => simp
  | some => simp

/-- A compiled function has the code that it gives on its own. -/
theorem function?_of_compile {options : Options} {bytes : List UInt8} {compiled : Compiled}
    (h : compile options bytes = .ok compiled) {position : Nat} {function : Linear.Function}
    (hfunction : compiled.linear[position]? = some function) :
    ∃ piece, alone options.strategy options.registers function = .ok piece ∧
      compiled.program.function? position = some piece.code := by
  obtain ⟨-, hlinear, hprogram⟩ := compile_cases h
  have hanswer := Success.answer_ok_iff.mpr (Program.ofLinear_iff.mp hprogram)
  obtain ⟨pieces, hpieces, hassemble⟩ := (emitProgram_ok_iff ⟨rfl, rfl⟩).mp hanswer
  have hassembled := Program.assembled_assemble pieces
  rw [hassemble] at hassembled
  refine hassembled.function?_of_find? hpieces ?_
  -- The functions are numbered by their positions, so none before this one has its index.
  obtain ⟨hposition, hget⟩ := List.getElem?_eq_some_iff.mp hfunction
  refine List.find?_eq_some_iff_getElem.mpr ⟨?_, position, hposition, hget, ?_⟩
  · exact decide_eq_true (Linear.index_of_ofModule hlinear position function hfunction)
  · intro earlier hearlier
    have hindex := Linear.index_of_ofModule hlinear earlier _
      (List.getElem?_eq_getElem (hearlier.trans hposition))
    simp [hindex, hearlier.ne]

end Emitted

/-- Whatever was emitted before, and whether it failed, a program fails if and only if one of its
functions fails on its own, and then as the first that does. Otherwise it consists of what its
functions give on their own, in order and without gaps, and has under each index the code of the
first function with that index. In particular, each function of a compiled module has the code that
it gives on its own. -/
theorem emitProgram_alone (strategy : Strategy) (registers : Nat) (jobs : List Job)
    (functions : List Linear.Function) :
    (∀ failure, Success.answer (emitProgram functions (.afterJobs strategy registers jobs)) =
        .error failure ↔ FailsFirst strategy registers functions failure) ∧
      ((∃ failure, Success.answer (emitProgram functions (.afterJobs strategy registers jobs)) =
          .error failure) ↔
        ∃ function ∈ functions, ∃ failure, alone strategy registers function = .error failure) ∧
      (∀ program, Success.answer (emitProgram functions (.afterJobs strategy registers jobs)) =
          .ok program →
        ∃ pieces, GiveAlone strategy registers functions pieces ∧ program.Assembled pieces ∧
          (∀ index function, functions.find? (fun function ↦ function.index = index) =
              some function →
            ∃ piece, alone strategy registers function = .ok piece ∧
              program.function? index = some piece.code) ∧
          ∀ index, program.function? index = none ↔
            ∀ function ∈ functions, function.index ≠ index) ∧
      ∀ (options : Options) (bytes : List UInt8) (compiled : Compiled),
        compile options bytes = .ok compiled →
          ∀ position function, compiled.linear[position]? = some function →
            ∃ piece, alone options.strategy options.registers function = .ok piece ∧
              compiled.program.function? position = some piece.code := by
  have hpool := Pool.sameSettings_afterJobs strategy registers jobs
  refine ⟨fun failure ↦ emitProgram_error_iff hpool, ⟨?_, ?_⟩, ?_, ?_⟩
  · rintro ⟨failure, hfail⟩
    obtain ⟨position, function, hfunction, halone, -⟩ := (emitProgram_error_iff hpool).mp hfail
    exact ⟨function, List.mem_of_getElem? hfunction, failure, halone⟩
  · rintro ⟨function, hfunction, failure, halone⟩
    -- Had the program been put together, this function would have given a piece on its own.
    cases hanswer : Success.answer (emitProgram functions (.afterJobs strategy registers jobs)) with
    | error first => exact ⟨first, rfl⟩
    | ok program =>
      obtain ⟨pieces, hpieces, -⟩ := (emitProgram_ok_iff hpool).mp hanswer
      obtain ⟨position, hposition⟩ := List.mem_iff_getElem?.mp hfunction
      obtain ⟨piece, -, hpiece⟩ := Success.getElem?_of_forall₂ hpieces hposition
      rw [halone] at hpiece
      cases hpiece
  · intro program hanswer
    obtain ⟨pieces, hpieces, rfl⟩ := (emitProgram_ok_iff hpool).mp hanswer
    have hassembled := Program.assembled_assemble pieces
    exact ⟨pieces, hpieces, hassembled, fun index function ↦ hassembled.function?_of_find? hpieces,
      hassembled.function?_eq_none_iff hpieces⟩
  · intro options bytes compiled h position function hfunction
    exact function?_of_compile h hfunction

end StraightWasm.Machine
