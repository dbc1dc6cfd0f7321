import Mathlib.Data.Nat.Bitwise
import StraightWasm.Proofs.Module.Format

/-!
# Readers of payloads

Every reader of a payload reads the form of what it is the reader of. A reader is a sequence of
elementary readers, so the form that it reads is known as soon as those of its parts are known, and
what is left to prove is that this form is the one of the format. Behind a byte that stands for
something the table of the reader and the table of the format are the same
(`ValueType.ofByte?_eq_some_iff` and its like).

Two readers need an argument of their own. The runs of locals are read in a loop that watches the
limit; together they stay within it exactly if no round refuses its run (`foldlM_add?`). A body is
read in a window of its own and uses the window up (`exhausts_body`).
-/

set_option autoImplicit false
set_option relaxedAutoImplicit false

namespace StraightWasm

open Reader

/-! ### Bytes that stand for something -/

theorem ValueType.ofByte?_eq_some_iff {found : UInt8} {type : ValueType} :
    ofByte? found = some type ↔ found = type.toByte := by
  constructor
  · intro h
    unfold ofByte? at h
    split at h <;> cases h <;> rfl
  · rintro rfl
    exact ofByte?_toByte type

theorem ExternKind.ofByte?_eq_some_iff {found : UInt8} {kind : ExternKind} :
    ofByte? found = some kind ↔ found = kind.toByte := by
  constructor
  · intro h
    unfold ofByte? at h
    split at h <;> cases h <;> rfl
  · rintro rfl
    cases kind <;> rfl

theorem SectionKind.ofByte?_eq_some_iff {found : UInt8} {kind : SectionKind} :
    ofByte? found = some kind ↔ found = kind.toByte := by
  constructor
  · intro h
    unfold ofByte? at h
    split at h <;> cases h <;> rfl
  · rintro rfl
    cases kind <;> rfl

theorem Payload.mutability?_eq_some_iff {found : UInt8} {isMutable : Bool} :
    mutability? found = some isMutable ↔ found = if isMutable then 1 else 0 := by
  constructor
  · intro h
    unfold mutability? at h
    split at h <;> cases h <;> rfl
  · rintro rfl
    cases isMutable <;> rfl

theorem ValueType.isSome_ofByte?_iff {found : UInt8} :
    (ofByte? found).isSome ↔ found ∈ [0x7f, 0x7e, 0x7d, 0x7c] := by
  simp only [Option.isSome_iff_exists, ofByte?_eq_some_iff]
  constructor
  · rintro ⟨type, rfl⟩
    cases type <;> decide
  · simp only [List.mem_cons, List.not_mem_nil, or_false]
    rintro (rfl | rfl | rfl | rfl)
    exacts [⟨i32, rfl⟩, ⟨i64, rfl⟩, ⟨f32, rfl⟩, ⟨f64, rfl⟩]

theorem Payload.isReferenceType_iff {found : UInt8} :
    isReferenceType found = true ↔ found ∈ [0x70, 0x6f] := by
  simp [isReferenceType]

theorem Payload.isGlobalType_iff {found : UInt8} :
    isGlobalType found = true ↔ found ∈ [0x7f, 0x7e, 0x7d, 0x7c, 0x7b, 0x70, 0x6f] := by
  rw [isGlobalType, Bool.or_eq_true, Bool.or_eq_true, ValueType.isSome_ofByte?_iff,
    isReferenceType_iff, beq_iff_eq]
  simp [or_assoc]

theorem fromUTF8?_eq_some_iff {bytes : List UInt8} {text : String} :
    String.fromUTF8? bytes.toByteArray = some text ↔
      bytes = text.toList.flatMap String.utf8EncodeChar := by
  rw [← List.toByteArray_inj, ← List.utf8Encode, String.utf8Encode_toList]
  unfold String.fromUTF8?
  constructor
  · intro h
    split_ifs at h
    cases h
    rfl
  · intro h
    rw [h]
    exact dif_pos text.isValidUTF8

namespace Payload

/-! ### Types and names -/

theorem reads_valueType : Reads valueType ValueType.Written :=
  reads_mark (fun _ _ ↦ ValueType.ofByte?_eq_some_iff) _

theorem reads_signature : Reads signature Signature.Written := by
  refine Reads.congr ((reads_check _ _ _).bind fun _ ↦
    (reads_vector reads_valueType).bind fun params ↦ reads_behind_offset fun place ↦
      (reads_unsigned (by decide)).bind fun results ↦ (reads_valueType.bind_pure _).guard _)
    fun offset found bytes ↦ ?_
  constructor
  -- The parts of what was read, from left to right: marker, parameters, count, result.
  · rintro ⟨_, _, _, rfl, ⟨_, rfl, rfl, -⟩, _, params, _, rfl, hparams, _, count, _, rfl, hcount,
      rfl, result, rfl, rfl⟩
    exact ⟨params, count, by simp [functionMarker], hparams, hcount⟩
  · rintro ⟨params, count, rfl, hparams, hcount⟩
    exact ⟨(), [0x60], _, rfl, ⟨_, rfl, rfl, rfl⟩, _, params, count ++ [found.result.toByte],
      List.append_assoc _ _ _, hparams, 1, count, _, rfl, hcount, rfl, found.result, rfl, rfl⟩

theorem reads_name (role : NameRole) : Reads (name role) Name.Written := by
  refine (reads_behind_offset fun place ↦ reads_sizedBytes.bind (?_ : ∀ found : List UInt8,
    Reads _ fun _ text bytes ↦ String.fromUTF8? found.toByteArray = some text ∧ bytes = [])).congr
    fun offset text bytes ↦ ?_
  · intro found
    -- Reader and form look at the same text, but each in a case distinction of its own.
    cases String.fromUTF8? found.toByteArray with
    | some text => exact reads_accept (some text) (.malformed place (.nameEncoding role))
    | none => exact reads_accept none _
  · constructor
    · rintro ⟨_, _, _, rfl, ⟨size, inner, rfl, hsize, rfl⟩, htext, rfl⟩
      exact ⟨size, inner, List.append_nil _, hsize, fromUTF8?_eq_some_iff.mp htext⟩
    · rintro ⟨size, inner, rfl, hsize, htext⟩
      exact ⟨inner, size ++ inner, [], (List.append_nil _).symm, ⟨size, inner, rfl, hsize, rfl⟩,
        fromUTF8?_eq_some_iff.mpr htext, rfl⟩

/-! ### Exports and imports -/

theorem reads_exportEntry : Reads exportEntry Export.Written := by
  refine ((reads_name _).bind fun name ↦
    (reads_mark (fun _ _ ↦ ExternKind.ofByte?_eq_some_iff) _).bind fun kind ↦
      (reads_unsigned (by decide)).bind_pure _).congr fun offset entry bytes ↦ ?_
  constructor
  · rintro ⟨_, name, _, rfl, hname, kind, _, index, rfl, rfl, _, hindex, rfl⟩
    exact ⟨name, index, rfl, hname, hindex⟩
  · rintro ⟨name, index, rfl, hname, hindex⟩
    exact ⟨_, name, _, rfl, hname, _, [_], index, rfl, rfl, _, hindex, rfl⟩

/-- A bit of some flags is set unless the mask of that bit leaves nothing of them. -/
theorem testBit_toNat {flags mask : UInt8} {place : Nat} (hmask : mask.toNat = 2 ^ place) :
    flags.toNat.testBit place = !decide (flags &&& mask = 0) := by
  have hand : flags &&& mask = 0 ↔ flags.toNat &&& 2 ^ place = 0 := by
    rw [← UInt8.toNat_inj, UInt8.toNat_and, hmask]
    rfl
  simp only [hand, Nat.and_two_pow]
  cases flags.toNat.testBit place <;> simp

/-- Assumes: a width that is no multiple of seven. -/
theorem reads_bounds {width : Nat} (hwidth : width % 7 ≠ 0) (condition : Prop)
    [Decidable condition] :
    Reads (do
      let _ ← unsigned width
      if condition then pure ()
      else
        let _ ← unsigned width
        pure ()) (Bounds.Written width (!decide condition)) := by
  by_cases hcondition : condition
  · simp only [hcondition, if_true]
    refine ((reads_unsigned hwidth).bind_pure _).congr fun offset _ bytes ↦ ?_
    constructor
    · rintro ⟨minimum, hminimum, -⟩
      exact ⟨minimum, hminimum⟩
    · rintro ⟨minimum, hminimum⟩
      exact ⟨minimum, hminimum, rfl⟩
  · simp only [hcondition, if_false]
    refine ((reads_unsigned hwidth).bind fun _ ↦
      (reads_unsigned hwidth).bind_pure _).congr fun offset _ bytes ↦ ?_
    constructor
    · rintro ⟨minimum, low, high, rfl, hlow, maximum, hhigh, -⟩
      exact ⟨minimum, maximum, low, high, rfl, hlow, hhigh⟩
    · rintro ⟨minimum, maximum, low, high, rfl, hlow, hhigh⟩
      exact ⟨minimum, low, high, rfl, hlow, maximum, hhigh, rfl⟩

theorem reads_limits : Reads limits Limits.Written := by
  refine ((reads_check _ _ _).bind (?_ : ∀ flags : UInt8,
    Reads _ (Bounds.Written (if flags.toNat.testBit 2 then 64 else 32)
      (flags.toNat.testBit 0)))).congr fun offset found bytes ↦ ?_
  · intro flags
    have hwidth : (if flags.toNat.testBit 2 then 64 else 32) =
        if flags &&& 4 = 0 then 32 else 64 := by
      rw [testBit_toNat (by decide : UInt8.toNat 4 = 2 ^ 2)]
      by_cases hmask : flags &&& 4 = 0 <;> simp [hmask]
    rw [hwidth, testBit_toNat (by decide : UInt8.toNat 1 = 2 ^ 0)]
    refine reads_bounds ?_ (flags &&& 1 = 0)
    split_ifs <;> decide
  · constructor
    · rintro ⟨_, _, bounds, rfl, ⟨flags, rfl, hflags, rfl⟩, hbounds⟩
      exact ⟨_, bounds, rfl, hflags, hbounds⟩
    · rintro ⟨flags, bounds, rfl, hflags, hbounds⟩
      exact ⟨flags, [flags], bounds, rfl, ⟨flags, rfl, hflags, rfl⟩, hbounds⟩

theorem reads_description (kind : ExternKind) :
    Reads (match kind with
      | .func => ImportDescriptor.func <$> unsigned 32
      | .table => do
        expect (fun found ↦ if isReferenceType found then some () else none) .elementType
        limits
        pure .table
      | .memory => do
        limits
        pure .memory
      | .global => do
        expect (fun found ↦ if isGlobalType found then some () else none) .globalType
        ImportDescriptor.global <$> expect mutability? .mutability)
      (ImportDescriptor.Described kind) := by
  cases kind with
  | func =>
    refine ((reads_unsigned (by decide)).map _).congr fun offset descriptor bytes ↦ ?_
    constructor
    · rintro ⟨typeIndex, hindex, rfl⟩
      exact .func hindex
    · rintro ⟨hindex⟩
      exact ⟨_, hindex, rfl⟩
  | table =>
    refine ((reads_check _ _ _).bind fun _ ↦ reads_limits.bind_pure _).congr
      fun offset descriptor bytes ↦ ?_
    constructor
    · rintro ⟨_, _, limits, rfl, ⟨element, rfl, helement, -⟩, _, hlimits, rfl⟩
      exact .table (isReferenceType_iff.mp helement) hlimits
    · intro h
      cases h with | table helement hlimits =>
      exact ⟨(), [_], _, rfl, ⟨_, rfl, isReferenceType_iff.mpr helement, rfl⟩, (), hlimits, rfl⟩
  | memory =>
    refine (reads_limits.bind_pure _).congr fun offset descriptor bytes ↦ ?_
    constructor
    · rintro ⟨_, hlimits, rfl⟩
      exact .memory hlimits
    · intro h
      cases h with | memory hlimits =>
      exact ⟨(), hlimits, rfl⟩
  | global =>
    refine ((reads_check _ _ _).bind fun _ ↦
      (reads_mark (fun _ _ ↦ mutability?_eq_some_iff) _).map _).congr
      fun offset descriptor bytes ↦ ?_
    constructor
    · rintro ⟨_, _, _, rfl, ⟨type, rfl, htype, -⟩, isMutable, rfl, rfl⟩
      exact .global (isGlobalType_iff.mp htype)
    · intro h
      cases h with | global htype =>
      exact ⟨(), [_], _, rfl, ⟨_, rfl, isGlobalType_iff.mpr htype, rfl⟩, _, rfl, rfl⟩

theorem reads_importDescriptor : Reads importDescriptor ImportDescriptor.Written := by
  refine ((reads_mark (fun _ _ ↦ ExternKind.ofByte?_eq_some_iff) _).bind
    reads_description).congr fun offset descriptor bytes ↦ ?_
  constructor
  · rintro ⟨kind, _, description, rfl, rfl, hdescription⟩
    exact ⟨kind, description, rfl, hdescription⟩
  · rintro ⟨kind, description, rfl, hdescription⟩
    exact ⟨kind, [kind.toByte], description, rfl, rfl, hdescription⟩

theorem reads_importEntry : Reads importEntry Import.Written := by
  refine ((reads_name _).bind fun moduleName ↦ (reads_name _).bind fun fieldName ↦
    reads_importDescriptor.bind_pure _).congr fun offset entry bytes ↦ ?_
  constructor
  · rintro ⟨_, moduleName, _, rfl, hmodule, _, fieldName, descriptor, rfl, hfield, _, hdescriptor,
      rfl⟩
    exact ⟨moduleName, fieldName, descriptor, (List.append_assoc _ _ _).symm, hmodule, hfield,
      hdescriptor⟩
  · rintro ⟨moduleName, fieldName, descriptor, rfl, hmodule, hfield, hdescriptor⟩
    exact ⟨_, moduleName, _, List.append_assoc _ _ _, hmodule, _, fieldName, descriptor, rfl,
      hfield, _, hdescriptor, rfl⟩

/-! ### Code -/

/-- Adds a run to those read so far, unless the locals become too many. -/
def RunsSoFar.add? (soFar : RunsSoFar) (run : LocalRun) : Option RunsSoFar :=
  if soFar.total + run.length ≤ localLimit then
    some { total := soFar.total + run.length, runs := run :: soFar.runs }
  else none

theorem reads_localRun (soFar : RunsSoFar) :
    (localRun soFar).Reads fun offset next bytes ↦
      ∃ run, LocalRun.Written offset run bytes ∧ soFar.add? run = some next := by
  refine Reads.congr (reads_behind_offset fun place ↦ (reads_unsigned (by decide)).bind fun length ↦
    reads_valueType.bind fun type ↦ (reads_pure _).guard _) fun offset next bytes ↦ ?_
  simp only [RunsSoFar.add?, Option.ite_none_right_eq_some, Option.some.injEq]
  constructor
  · rintro ⟨_, length, _, rfl, hlength, type, _, _, rfl, rfl, hlimit, rfl, rfl⟩
    exact ⟨⟨_, type⟩, ⟨length, rfl, hlength⟩, hlimit, rfl⟩
  · rintro ⟨run, ⟨length, rfl, hlength⟩, hlimit, rfl⟩
    exact ⟨run.length, length, _, rfl, hlength, run.type, _, [], rfl, rfl, hlimit, rfl, rfl⟩

/-- Runs can be added one by one exactly if all of their locals together stay within the limit. -/
theorem foldlM_add? (runs : List LocalRun) :
    ∀ soFar last : RunsSoFar, soFar.total ≤ localLimit →
      (runs.foldlM RunsSoFar.add? soFar = some last ↔
        soFar.total + (runs.map (·.length)).sum ≤ localLimit ∧
          last = { total := soFar.total + (runs.map (·.length)).sum,
                   runs := runs.reverse ++ soFar.runs }) := by
  induction runs with
  | nil =>
    intro soFar last hlimit
    simp [hlimit, @eq_comm _ last]
  | cons run rest ih =>
    intro soFar last _
    -- A run that is refused is refused for good: the runs behind it only add to the total.
    rw [List.foldlM_cons, RunsSoFar.add?]
    split_ifs with hrun
    · rw [Option.bind_eq_bind, Option.bind_some, ih _ _ hrun]
      simp [Nat.add_assoc]
    · simp
      omega

theorem reads_locals :
    Reads locals fun offset declared bytes ↦ ∃ runs,
      Form.Vector LocalRun.Written offset runs bytes ∧
        (runs.map (·.length)).sum ≤ localLimit ∧ declared = expand runs := by
  refine ((reads_unsigned (by decide)).bind fun count ↦
    (reads_iterate reads_localRun count _).bind_pure _).congr fun offset declared bytes ↦ ?_
  simp only [foldlM_add? _ ⟨0, []⟩ _ (Nat.zero_le _), Nat.zero_add, List.append_nil]
  constructor
  · rintro ⟨_, count, items, rfl, hcount, _, ⟨runs, rfl, hruns, hlimit, rfl⟩, rfl⟩
    exact ⟨runs, ⟨count, items, rfl, hcount, hruns⟩, hlimit, by simp⟩
  · rintro ⟨runs, ⟨count, items, rfl, hcount, hruns⟩, hlimit, rfl⟩
    exact ⟨runs.length, count, items, rfl, hcount, _, ⟨runs, rfl, hruns, hlimit, rfl⟩, by simp⟩

theorem exhausts_body : Exhausts body Body.Written := by
  intro span found left
  rw [body, reads_locals.bind_exhausts fun declared ↦ exhausts_rest _]
  refine and_congr_left fun _ ↦ ?_
  constructor
  · rintro ⟨_, declared, code, hbytes, ⟨runs, hruns, hlimit, rfl⟩, rfl⟩
    exact ⟨runs, declared, hbytes, hruns, hlimit, rfl, rfl⟩
  · rintro ⟨runs, declared, hbytes, hruns, hlimit, hlocals, hplace⟩
    refine ⟨found.locals, declared, found.code, hbytes, ⟨runs, hruns, hlimit, hlocals⟩, ?_⟩
    rw [← hplace]

theorem reads_sizedBody : Reads sizedBody (Form.Sized Body.Written) := by
  refine ((reads_unsigned (by decide)).bind fun size ↦ (reads_window size).bind fun frame ↦
    (reads_inside body frame).bind fun found ↦ reads_pure _).congr fun offset found bytes ↦ ?_
  constructor
  · rintro ⟨_, size, _, rfl, hsize, _, inner, _, rfl, ⟨rfl, rfl⟩, _, _, _, rfl, ⟨hbody, rfl⟩, rfl,
      rfl⟩
    exact ⟨size, inner, by simp, hsize, ((exhausts_body _ _ _).mp hbody).1⟩
  · rintro ⟨size, inner, rfl, hsize, hbody⟩
    exact ⟨inner.length, size, inner, rfl, hsize, _, inner, [], (List.append_nil inner).symm,
      ⟨rfl, rfl⟩, (found, _), [], [], rfl, ⟨(exhausts_body _ _ _).mpr ⟨hbody, rfl⟩, rfl⟩, rfl, rfl⟩

end Payload

end StraightWasm
