import StraightWasm.Proofs.Bytes.Faults
import StraightWasm.Proofs.Linear.Actions
import StraightWasm.Proofs.Module.Positions
import StraightWasm.Proofs.StackCode.Spelling

/-!
# Where lowering fails

A failure of lowering is blamed on the body that is being lowered, and on a place in its code
(`Body.Blames`). The opcode of every instruction stands in the code at the offset of the instruction
(`StackCode.bears_scan`), so a failure of an instruction can be traced back to its opcode: only an
instruction that pops can find the stack empty, and only one that pushes without popping first can
find it full, because a pop makes room for the push behind it (`Lowering.ends_pop`).

That is proved of one instruction (`Lowering.ends_step`) and then of a body
(`Definition.ends_lower`). Of a module it follows for the first body that cannot be lowered
(`fails_lowerModule`).
-/

set_option autoImplicit false
set_option relaxedAutoImplicit false

namespace StraightWasm

open Success (Ends)

/-! ### Opcodes -/

/-- The bytes that instructions start with, and the one of `end`. -/
def StackCode.supportedOpcodes : List UInt8 :=
  [0x00, 0x01, 0x0b, 0x20, 0x21, 0x22, 0x41, 0x6a]

namespace Body

/-- Whether a byte stands at an offset in the code of a body. -/
def Bears (body : Body) (offset : Nat) (opcode : UInt8) : Prop :=
  ∃ inner, offset = body.codeOffset + inner ∧ StandsAt body.code inner [opcode]

theorem Bears.between {body : Body} {offset : Nat} {opcode : UInt8} (h : body.Bears offset opcode) :
    body.codeOffset ≤ offset ∧ offset ≤ body.codeOffset + body.code.length := by
  obtain ⟨inner, rfl, hstands⟩ := h
  have hle := hstands.length_le
  rw [List.length_singleton] at hle
  omega

theorem bears_of_leads {body : Body} {span : Span} {opcode : UInt8} {rest : List UInt8}
    (hleads : body.span.Leads span) (hbytes : span.bytes = opcode :: rest) :
    body.Bears span.offset opcode := by
  obtain ⟨between, hcode, hoffset⟩ := hleads
  refine ⟨between.length, hoffset, between, rest, ?_, rfl⟩
  rw [hbytes] at hcode
  rw [List.append_assoc]
  exact hcode

/-- The failures that the lowering of a body may have, as function number `function` and with a
stack of the given capacity. -/
inductive Blames (body : Body) (function capacity : Nat) : Diagnostic → Prop
  /-- The code breaks off. -/
  | endOfInput {offset needed : Nat} (low_le : body.codeOffset ≤ offset)
      (le_high : offset ≤ body.codeOffset + body.code.length) (needed_pos : 1 ≤ needed) :
      Blames body function capacity (.endOfInput offset needed)
  /-- The body breaks a rule. If a function is named, it is this one. -/
  | malformed {offset : Nat} {cause : Malformation} (low_le : body.codeOffset ≤ offset)
      (le_high : offset ≤ body.codeOffset + body.code.length)
      (function_eq : ∀ other ∈ cause.function?, other = function) :
      Blames body function capacity (.malformed offset cause)
  /-- The byte at the offset is not a supported opcode. -/
  | unsupportedOpcode {offset : Nat} {opcode : UInt8} (bears : body.Bears offset opcode)
      (unsupported : opcode ∉ StackCode.supportedOpcodes) :
      Blames body function capacity (.unsupportedOpcode function offset opcode)
  /-- The instruction at the offset sets a local or adds. -/
  | stackUnderflow {offset : Nat} {opcode : UInt8} (bears : body.Bears offset opcode)
      (pops : opcode ∈ ([0x21, 0x22, 0x6a] : List UInt8)) :
      Blames body function capacity (.stackUnderflow function offset)
  /-- The instruction at the offset reads a local or pushes a constant. -/
  | stackOverflow {offset : Nat} {opcode : UInt8} (bears : body.Bears offset opcode)
      (pushes : opcode ∈ ([0x20, 0x41] : List UInt8)) :
      Blames body function capacity (.stackOverflow function offset capacity)

theorem blames_of_isReadFault {body : Body} {function capacity : Nat} {failure : Diagnostic}
    (h : failure.IsReadFault body.codeOffset (body.codeOffset + body.code.length)) :
    body.Blames function capacity failure := by
  cases failure with
  | endOfInput offset needed => exact .endOfInput h.1 h.2.1 h.2.2
  | malformed offset cause =>
    refine .malformed h.1 h.2.1 fun other hother ↦ ?_
    rw [h.2.2] at hother
    cases hother
  | stackUnderflow | stackOverflow | unsupportedOpcode | emission => exact h.elim

namespace Blames

variable {body : Body} {function capacity : Nat} {failure : Diagnostic}

/-- The place that is blamed lies in the code of the body or just behind it. -/
theorem offset?_between (h : body.Blames function capacity failure) :
    ∃ offset, failure.offset? = some offset ∧ body.codeOffset ≤ offset ∧
      offset ≤ body.codeOffset + body.code.length := by
  cases h with
  | endOfInput hlow hhigh _ => exact ⟨_, rfl, hlow, hhigh⟩
  | malformed hlow hhigh _ => exact ⟨_, rfl, hlow, hhigh⟩
  | unsupportedOpcode hbears _ => exact ⟨_, rfl, hbears.between⟩
  | stackUnderflow hbears _ => exact ⟨_, rfl, hbears.between⟩
  | stackOverflow hbears _ => exact ⟨_, rfl, hbears.between⟩

/-- If a function is named, it is the one at hand. -/
theorem function?_eq (h : body.Blames function capacity failure) :
    ∀ other ∈ failure.function?, other = function := by
  cases h with
  | endOfInput => exact fun other hother ↦ nomatch hother
  | malformed _ _ hfunction => exact hfunction
  | unsupportedOpcode | stackUnderflow | stackOverflow => exact fun other hother ↦
      (Option.mem_some_iff.mp hother).symm

end Blames

end Body

/-! ### Scans -/

namespace StackCode

variable {function capacity place : Nat} {opcode : UInt8} {span after : Span}

theorem fault_of_behindOpcode {low high : Nat} {failure : Diagnostic} {stop : Span}
    (hspan : span.Between low high)
    (h : behindOpcode function place opcode span = .error failure stop) :
    failure.IsReadFault low high ∨
      opcode ∉ supportedOpcodes ∧ failure = .unsupportedOpcode function place opcode := by
  have hread : ∀ {reader : Reader (Option Instruction)}, Reader.Confined low high reader →
      reader span = .error failure stop → failure.IsReadFault low high := by
    intro reader hconfined hrun
    have hends := hconfined span hspan
    rw [hrun] at hends
    exact hends
  revert h
  fun_cases behindOpcode function place opcode with
  | case1 | case2 | case3 | case8 =>
    intro h
    cases h
  | case4 | case5 | case6 => exact fun h ↦ .inl (hread ((Reader.confined_unsigned 32).map _) h)
  | case7 => exact fun h ↦ .inl (hread ((Reader.confined_signed 32).map _) h)
  | case9 _ h00 h01 h0b h20 h21 h22 h41 h6a =>
    intro h
    cases h
    refine .inr ⟨?_, rfl⟩
    simp only [supportedOpcodes, List.mem_cons, List.not_mem_nil, or_false, not_or]
    exact ⟨h00, h01, h0b, h20, h21, h22, h41, h6a⟩

theorem forward_next (function : Nat) : Reader.Forward (next function) :=
  Reader.forward_bind Reader.forward_offset fun _ ↦
    Reader.forward_bind Reader.forward_byte fun opcode ↦ forward_behindOpcode function _ opcode

/-- An instruction that cannot be read is blamed on its body. -/
theorem blames_of_next {body : Body} {failure : Diagnostic} {stop : Span}
    (hleads : body.span.Leads span) (h : next function span = .error failure stop) :
    body.Blames function capacity failure := by
  have hspan : span.Between body.codeOffset (body.codeOffset + body.code.length) :=
    Span.Between.leads ⟨le_rfl, rfl⟩ hleads
  have hends : Ends (fun _ _ ↦ True) (body.Blames function capacity) (next function span) := by
    show Ends _ _ ((do
      let opcode ← Reader.byte
      behindOpcode function span.offset opcode) span)
    refine Ends.bind ((Reader.ends_byte hspan).mono (fun _ _ h ↦ h)
      fun _ ↦ Body.blames_of_isReadFault) fun opcode middle ⟨hmiddle, rest, hbytes⟩ ↦ ?_
    cases hrun : behindOpcode function span.offset opcode middle with
    | ok found after => trivial
    | error failure stop =>
      obtain hread | ⟨hunsupported, rfl⟩ := fault_of_behindOpcode hmiddle hrun
      · exact Body.blames_of_isReadFault hread
      · exact .unsupportedOpcode (Body.bears_of_leads hleads hbytes) hunsupported
  rw [h] at hends
  exact hends

theorem bears_scanFrom {body : Body} (function capacity : Nat) (found : List Located) (span : Span)
    (hleads : body.span.Leads span)
    (hfound : ∀ located ∈ found, body.Bears located.offset located.instruction.opcode) :
    (∀ located ∈ (scanFrom function found span).instructions,
        body.Bears located.offset located.instruction.opcode) ∧
      (∀ behind, (scanFrom function found span).ending = .ok behind →
        body.span.Leads behind) ∧
      ∀ failure, (scanFrom function found span).ending = .error failure →
        body.Blames function capacity failure := by
  fun_induction scanFrom function found span with
  | case1 found span instruction after h _ ih =>
    have hafter := forward_next function span
    rw [h] at hafter
    apply ih (hleads.trans hafter)
    intro located hlocated
    rcases List.mem_cons.mp hlocated with rfl | hlocated
    · obtain ⟨_, ⟨immediate, rfl, -⟩, hpasses⟩ := (reads_next function _ _ _).mp h
      exact Body.bears_of_leads hleads hpasses.bytes_eq
    · exact hfound located hlocated
  | case2 found span after h =>
    have hafter := forward_next function span
    rw [h] at hafter
    refine ⟨fun located hlocated ↦ hfound located (List.mem_reverse.mp hlocated), ?_, ?_⟩
    · intro behind hbehind
      cases hbehind
      exact hleads.trans hafter
    · intro failure hfailure
      cases hfailure
  | case3 found span failure stop h =>
    refine ⟨fun located hlocated ↦ hfound located (List.mem_reverse.mp hlocated), ?_, ?_⟩
    · intro behind hbehind
      cases hbehind
    · intro other hother
      cases hother
      exact blames_of_next hleads h

/-- Every instruction of a body stands at its offset, and a scan that breaks off is blamed on the
body. -/
theorem bears_scan (function capacity : Nat) (body : Body) :
    (∀ located ∈ (scan function body).instructions,
        body.Bears located.offset located.instruction.opcode) ∧
      (∀ behind, (scan function body).ending = .ok behind → body.span.Leads behind) ∧
      ∀ failure, (scan function body).ending = .error failure →
        body.Blames function capacity failure :=
  bears_scanFrom function capacity [] body.span (.refl _) fun _ hlocated ↦ nomatch hlocated

end StackCode

/-! ### Instructions -/

namespace Linear

open StackCode (Located)
open StackCode.Instruction (opcode)

/-- Whether a lowering is at a function, with a stack of the given capacity. -/
structure Builder.At (function capacity : Nat) (builder : Builder) : Prop where
  function_eq : builder.function = function
  capacity_eq : builder.stack.capacity = capacity

namespace Lowering

variable {function capacity place slot : Nat} {builder : Builder} {body : Body}

/-- Whether a run keeps the function at hand and the capacity of the stack, unless it fails for
certain reasons. -/
def Keeps {α : Type} (function capacity : Nat) (Fault : Diagnostic → Prop) :
    EStateM.Result Diagnostic Builder α → Prop :=
  Ends (fun _ after ↦ after.At function capacity) Fault

/-- A pop makes room for a push. -/
theorem ends_pop (h : builder.At function capacity) :
    Ends (fun _ after ↦ after.At function capacity ∧ after.stack.depth < capacity)
      (· = .stackUnderflow function place) (pop place builder) := by
  unfold pop
  cases hpop : builder.stack.pop? with
  | none => exact congrArg (Diagnostic.stackUnderflow · place) h.function_eq
  | some found =>
    have hbelow := (OperandStack.capacity_pop? hpop).trans h.capacity_eq
    refine ⟨⟨h.function_eq, hbelow⟩, ?_⟩
    have hdepth := OperandStack.depth_pop? hpop
    have hle := builder.stack.depth_le
    rw [h.capacity_eq] at hle
    dsimp only
    omega

theorem ends_push (operand : Operand) (h : builder.At function capacity) :
    Keeps function capacity (fun failure ↦ failure = .stackOverflow function place capacity ∧
      ¬builder.stack.depth < capacity) (push place operand builder) := by
  obtain ⟨hfunction, hcapacity⟩ := h
  unfold push OperandStack.push
  by_cases hroom : builder.stack.depth < builder.stack.capacity
  · rw [dif_pos hroom]
    exact ⟨hfunction, hcapacity⟩
  · rw [dif_neg hroom]
    rw [hcapacity] at hroom
    exact ⟨by rw [hfunction, hcapacity], hroom⟩

/-- An assignment makes room for a push, too. -/
theorem ends_assign (h : builder.At function capacity) :
    Ends (fun _ after ↦ after.At function capacity ∧ after.stack.depth < capacity)
      (· = .stackUnderflow function place) (assign place slot builder) :=
  Ends.bind (ends_pop h) fun _ _ ⟨hpopped, hroom⟩ ↦
    ⟨⟨hpopped.function_eq, hpopped.capacity_eq⟩, hroom⟩

theorem ends_checkSlot (h : builder.At function capacity) {opcode : UInt8}
    (hbears : body.Bears place opcode) :
    Keeps function capacity (body.Blames function capacity) (checkSlot place slot builder) := by
  unfold checkSlot
  split_ifs
  · exact h
  · refine .malformed hbears.between.1 hbears.between.2 fun other hother ↦ ?_
    cases hother
    exact h.function_eq

theorem ends_whenLive {action : Lowering Unit} {Fault : Diagnostic → Prop}
    (h : builder.At function capacity) (haction : Keeps function capacity Fault (action builder)) :
    Keeps function capacity Fault (whenLive action builder) := by
  unfold whenLive
  split_ifs
  · exact h
  · exact haction

/-- An instruction of a body keeps the function and the capacity of the stack, or its failure is
blamed on the body. -/
theorem ends_step {located : Located} (h : builder.At function capacity)
    (hbears : body.Bears located.offset located.instruction.opcode) :
    Keeps function capacity (body.Blames function capacity) (step located builder) := by
  obtain ⟨offset, instruction⟩ := located
  have hunderflow : instruction.opcode ∈ ([0x21, 0x22, 0x6a] : List UInt8) →
      ∀ failure, failure = .stackUnderflow function offset →
        body.Blames function capacity failure := by
    rintro hpops failure rfl
    exact .stackUnderflow hbears hpops
  have hoverflow : instruction.opcode ∈ ([0x20, 0x41] : List UInt8) →
      ∀ operand {pushing : Builder}, pushing.At function capacity →
        Keeps function capacity (body.Blames function capacity)
          (whenLive (push offset operand) pushing) := by
    intro hpushes operand pushing hpushing
    refine ends_whenLive hpushing ((ends_push operand hpushing).mono (fun _ _ hkept ↦ hkept) ?_)
    rintro failure ⟨rfl, -⟩
    exact .stackOverflow hbears hpushes
  -- Behind a pop there is room, so that a push cannot fail.
  have hroom : ∀ operand {popped : Builder}, popped.At function capacity →
      popped.stack.depth < capacity →
        Keeps function capacity (body.Blames function capacity) (push offset operand popped) := by
    intro operand popped hpopped hdepth
    exact (ends_push operand hpopped).mono (fun _ _ hkept ↦ hkept)
      fun failure hfull ↦ absurd hdepth hfull.2
  cases instruction with
  | nop => exact h
  | unreachable => exact ⟨h.function_eq, h.capacity_eq⟩
  | const value => exact hoverflow (by simp [opcode]) _ h
  | localGet slot =>
    refine Ends.bind (ends_checkSlot h hbears) fun _ checked hchecked ↦ ?_
    exact hoverflow (by simp [opcode]) _ hchecked
  | localSet slot =>
    refine Ends.bind (ends_checkSlot h hbears) fun _ checked hchecked ↦ ?_
    exact ends_whenLive hchecked ((ends_assign hchecked).mono (fun _ _ hassigned ↦ hassigned.1)
      (hunderflow (by simp [opcode])))
  | localTee slot =>
    refine Ends.bind (ends_checkSlot h hbears) fun _ checked hchecked ↦ ends_whenLive hchecked ?_
    refine Ends.bind ((ends_assign hchecked).mono (fun _ _ hassigned ↦ hassigned)
      (hunderflow (by simp [opcode]))) fun _ assigned hassigned ↦ ?_
    exact hroom _ hassigned.1 hassigned.2
  | add =>
    refine ends_whenLive h (Ends.bind ((ends_pop h).mono (fun _ _ hpopped ↦ hpopped)
      (hunderflow (by simp [opcode]))) fun rhs below hbelow ↦ ?_)
    refine Ends.bind ((ends_pop hbelow.1).mono (fun _ _ hpopped ↦ hpopped)
      (hunderflow (by simp [opcode]))) fun lhs bottom hbottom ↦ ?_
    have hlate : Builder.At function capacity
        { bottom with
          emitted := bottom.emitted.push (.add bottom.nextTemp lhs rhs)
          nextTemp := bottom.nextTemp + 1 } :=
      ⟨hbottom.1.function_eq, hbottom.1.capacity_eq⟩
    exact hroom (.temp bottom.nextTemp) hlate hbottom.2

theorem ends_terminator (h : builder.At function capacity) (hlow : body.codeOffset ≤ place)
    (hhigh : place ≤ body.codeOffset + body.code.length) :
    Keeps function capacity (body.Blames function capacity) (terminator place builder) := by
  unfold terminator
  split_ifs
  · exact h
  · cases hpop : builder.stack.pop? with
    | none => exact h
    | some found =>
      dsimp only
      split_ifs
      · exact ⟨h.function_eq, (OperandStack.capacity_pop? hpop).trans h.capacity_eq⟩
      · refine .malformed hlow hhigh fun other hother ↦ ?_
        cases hother
        exact h.function_eq

theorem ends_close {ending : Except Diagnostic Span} (h : builder.At function capacity)
    (hleads : ∀ behind, ending = .ok behind → body.span.Leads behind)
    (hfault : ∀ failure, ending = .error failure → body.Blames function capacity failure) :
    Keeps function capacity (body.Blames function capacity) (close ending builder) := by
  cases ending with
  | error failure => exact hfault failure rfl
  | ok behind =>
    have hbehind : behind.Between body.codeOffset (body.codeOffset + body.code.length) :=
      Span.Between.leads ⟨le_rfl, rfl⟩ (hleads behind rfl)
    rw [close]
    split_ifs
    · exact ends_terminator h hbehind.low_le hbehind.offset_le
    · refine .malformed hbehind.low_le hbehind.offset_le fun other hother ↦ ?_
      cases hother
      exact h.function_eq

end Lowering

/-! ### Functions and modules -/

/-- The lowering of a function keeps the capacity of the stack, or its failure is blamed on the
body of the function. -/
theorem Definition.ends_lower (definition : Definition) {capacity : Nat} {builder : Builder}
    (h : builder.stack.capacity = capacity) :
    Lowering.Keeps definition.index capacity (definition.body.Blames definition.index capacity)
      (definition.lower builder) := by
  obtain ⟨hbears, hleads, hfault⟩ :=
    StackCode.bears_scan definition.index capacity definition.body
  have henter : Lowering.Keeps definition.index capacity
      (definition.body.Blames definition.index capacity)
      (Lowering.enter definition.index builder) := ⟨rfl, h⟩
  refine Ends.bind henter fun _ entered hentered ↦ ?_
  have hcount : Lowering.Keeps definition.index capacity
      (definition.body.Blames definition.index capacity)
      (Lowering.countSlots definition.body.codeOffset definition.slotCount entered) := by
    unfold Lowering.countSlots
    split_ifs
    · exact ⟨hentered.function_eq, hentered.capacity_eq⟩
    · exact .malformed le_rfl (Nat.le_add_right _ _) fun other hother ↦ nomatch hother
  refine Ends.bind hcount fun _ counted hcounted ↦ ?_
  refine Ends.bind (Ends.forM _ (fun located hlocated before hbefore ↦
    Lowering.ends_step hbefore (hbears located hlocated)) counted hcounted)
    fun _ late hlate ↦ ?_
  exact Ends.bind (Lowering.ends_close hlate hleads hfault) fun _ closed hclosed ↦
    ⟨hclosed.function_eq, hclosed.capacity_eq⟩

theorem ends_lowerEntry (types : List Signature) (index typeIndex : Nat) (body : Body)
    {capacity : Nat} {builder : Builder} (h : builder.stack.capacity = capacity) :
    Ends (fun _ after ↦ after.stack.capacity = capacity) (body.Blames index capacity)
      (lowerEntry types index typeIndex body builder) := by
  unfold lowerEntry
  cases types[typeIndex]? with
  | some signature =>
    exact (Definition.ends_lower _ h).mono (fun _ _ hafter ↦ hafter.capacity_eq)
      fun _ hblames ↦ hblames
  | none =>
    refine .malformed le_rfl (Nat.le_add_right _ _) fun other hother ↦ ?_
    cases hother
    rfl

/-- Whether the lowering of a module gets to the function at a position, whose body is given, and
fails there: the functions in front of it can be lowered, and this one cannot. -/
def FailsAt (capacity : Nat) (module : Module) (position : Nat) (body : Body)
    (failure : Diagnostic) : Prop :=
  ∃ typeIndex lowered before stop,
    module.functions[position]? = some typeIndex ∧ module.bodies[position]? = some body ∧
    lowerModule
      { module with
        functions := module.functions.take position
        bodies := module.bodies.take position } (.ofCapacity capacity) = .ok lowered before ∧
    lowerEntry module.types position typeIndex body before = .error failure stop

theorem take_entries (module : Module) (count : Nat) :
    ((module.functions.take count).zip (module.bodies.take count)).zipIdx =
      (module.functions.zip module.bodies).zipIdx.take count := by
  have hzip : (module.functions.take count).zip (module.bodies.take count) =
      (module.functions.zip module.bodies).take count := List.take_zipWith.symm
  rw [hzip]
  ext1 position
  rw [List.getElem?_zipIdx, List.getElem?_take, List.getElem?_take, List.getElem?_zipIdx]
  split_ifs <;> rfl

/-- A module that cannot be lowered fails at one of its functions, and the failure is blamed on its
body. -/
theorem fails_lowerModule {capacity : Nat} {module : Module} {failure : Diagnostic} {stop : Builder}
    (h : lowerModule module (.ofCapacity capacity) = .error failure stop) :
    ∃ position body, FailsAt capacity module position body failure ∧
      body.Blames position capacity failure := by
  have hkept : ∀ (item : (Nat × Body) × Nat) earlier function later,
      earlier.stack.capacity = capacity →
      lowerEntry module.types item.2 item.1.1 item.1.2 earlier = .ok function later →
        later.stack.capacity = capacity := by
    intro item earlier function later hearlier hentry
    have hends := ends_lowerEntry module.types item.2 item.1.1 item.1.2 hearlier
    rw [hentry] at hends
    exact hends
  obtain ⟨front, ⟨⟨typeIndex, body⟩, index⟩, back, lowered, before, hsplit, hfront, hbefore,
    hfails⟩ := Success.exists_of_mapM_error (·.stack.capacity = capacity) hkept _ rfl h
  have hentry : (module.functions.zip module.bodies).zipIdx[front.length]? =
      some ((typeIndex, body), index) := by
    rw [hsplit, List.getElem?_append_right le_rfl, Nat.sub_self]
    rfl
  rw [List.getElem?_zipIdx, Nat.zero_add, Option.map_eq_some_iff] at hentry
  obtain ⟨_, hzip, hpair⟩ := hentry
  cases hpair
  obtain ⟨htype, hbody⟩ := List.getElem?_zip_eq_some.mp hzip
  have hfailed : lowerEntry module.types front.length typeIndex body before =
      .error failure stop := hfails
  have hends := ends_lowerEntry module.types front.length typeIndex body hbefore
  rw [hfailed] at hends
  refine ⟨front.length, body, ⟨typeIndex, lowered, before, stop, htype, hbody, ?_, hfailed⟩, hends⟩
  have htake := take_entries module front.length
  rw [hsplit, List.take_left] at htake
  rw [lowerModule, htake]
  exact hfront

end Linear

end StraightWasm
