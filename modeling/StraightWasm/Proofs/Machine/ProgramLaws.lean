import StraightWasm.Proofs.Machine.Actions

/-!
# The functions of a program

A program keeps the code of its functions in one sequence. Appending a function leaves the code that
the earlier records point to where it is, and the new record points to the new code
(`Program.function?_push`). So a program that was put together from a list of functions gives, for
an index, what emitting the first function of that index gave (`emitProgram_function?`).
-/

set_option autoImplicit false
set_option relaxedAutoImplicit false

namespace StraightWasm.Machine

/-! ### Appending a function -/

namespace Program

/-- Whether the records of a program point into its instructions. -/
def Within (program : Program) : Prop :=
  ∀ record ∈ program.functions, record.stop ≤ program.instructions.size

variable {program : Program}

theorem instructions_push (index registerCount : Nat) (code : List Instr) :
    (program.push index registerCount code).instructions =
      program.instructions ++ code.toArray := by
  apply Array.toList_inj.mp
  simp [push]

theorem within_empty : Within {} := by
  intro record hrecord
  simp at hrecord

theorem Within.push (h : program.Within) (index registerCount : Nat) (code : List Instr) :
    (program.push index registerCount code).Within := by
  intro record hrecord
  rw [instructions_push, Array.size_append, List.size_toArray]
  rcases Array.mem_push.mp hrecord with hold | rfl
  · exact Nat.le_add_right_of_le (h record hold)
  · exact Nat.le_refl _

/-- The code of the earlier functions stays where it is. -/
theorem codeOf_push_of_mem (h : program.Within) {record : FunctionRecord}
    (hrecord : record ∈ program.functions) (index registerCount : Nat) (code : List Instr) :
    (program.push index registerCount code).codeOf record = program.codeOf record := by
  have hstop : record.stop - program.instructions.size = 0 :=
    Nat.sub_eq_zero_of_le (h record hrecord)
  rw [codeOf, codeOf, instructions_push, Array.extract_append, hstop]
  simp

/-- Appending a function makes its code known under its index, unless the index is taken. -/
theorem function?_push (h : program.Within) (index registerCount : Nat) (code : List Instr)
    (other : Nat) :
    (program.push index registerCount code).function? other =
      (program.function? other).or (if index = other then some code else none) := by
  have hnew : (program.push index registerCount code).codeOf
      { index := index
        start := program.instructions.size
        stop := program.instructions.size + code.length
        registerCount := registerCount } = code := by
    rw [codeOf, instructions_push]
    simp
  unfold function?
  change ((program.functions.push _).find? _).map _ = _
  rw [Array.find?_push]
  cases hfind : program.functions.find? fun record ↦ record.index = other with
  | some record =>
    simp [codeOf_push_of_mem h (Array.mem_of_find?_eq_some hfind)]
  | none =>
    by_cases hindex : index = other
    · subst hindex
      simp [hnew]
    · simp [hindex]

end Program

/-! ### Functions in a row -/

theorem appendFunction_cases {function : Linear.Function} {program last : Program}
    {pool next : Pool} (h : appendFunction program function pool = .ok last next) :
    ∃ code, emitFunction function pool = .ok code next ∧
      last = program.push function.index next.used code := by
  obtain ⟨code, _, hemit, h⟩ := Success.bind_iff.mp h
  cases h
  exact ⟨code, hemit, rfl⟩

/-- Appending functions makes the code of each known under its index, the first of an index
counting. -/
theorem function?_foldlM (functions : List Linear.Function) :
    ∀ {program last : Program} {pool next : Pool}, program.Within →
      functions.foldlM appendFunction program pool = .ok last next →
        ∃ codes, List.Forall₂
            (fun function code ↦ ∃ earlier later, emitFunction function earlier = .ok code later)
            functions codes ∧
          ∀ index, last.function? index = (program.function? index).or
            (((functions.zip codes).find? fun pair ↦ pair.1.index = index).map Prod.snd) := by
  induction functions with
  | nil =>
    intro program last pool next _ hrun
    obtain ⟨rfl, -⟩ := Success.pure_iff.mp hrun
    exact ⟨[], .nil, fun index ↦ by simp⟩
  | cons function rest ih =>
    intro program last pool next hwithin hrun
    rw [List.foldlM_cons] at hrun
    obtain ⟨_, middle, happend, hrest⟩ := Success.bind_iff.mp hrun
    obtain ⟨code, hemit, rfl⟩ := appendFunction_cases happend
    obtain ⟨codes, hcodes, hfunction?⟩ := ih (hwithin.push _ _ _) hrest
    refine ⟨code :: codes, .cons ⟨pool, middle, hemit⟩ hcodes, fun index ↦ ?_⟩
    rw [hfunction?, Program.function?_push hwithin, Option.or_assoc, List.zip_cons_cons,
      List.find?_cons]
    by_cases hindex : function.index = index
    · simp [hindex]
    · simp [hindex]

/-- In a program of functions that are numbered in order, each function is found under its
position. -/
theorem function?_emitProgram {functions : List Linear.Function} {program : Program}
    {pool next : Pool} (h : emitProgram functions pool = .ok program next)
    (hnumbered : ∀ (position : Nat) (function : Linear.Function),
      functions[position]? = some function → function.index = position)
    {position : Nat} {function : Linear.Function}
    (hfunction : functions[position]? = some function) :
    ∃ code earlier later, emitFunction function earlier = .ok code later ∧
      program.function? position = some code := by
  obtain ⟨codes, hcodes, hfunction?⟩ := function?_foldlM functions Program.within_empty h
  obtain ⟨code, hcode, earlier, later, hemit⟩ := Success.getElem?_of_forall₂ hcodes hfunction
  refine ⟨code, earlier, later, hemit, ?_⟩
  have hzip : (functions.zip codes)[position]? = some (function, code) :=
    List.getElem?_zip_eq_some.mpr ⟨hfunction, hcode⟩
  obtain ⟨hposition, hpair⟩ := List.getElem?_eq_some_iff.mp hzip
  have hfind : (functions.zip codes).find? (fun pair ↦ pair.1.index = position) =
      some (function, code) := by
    refine List.find?_eq_some_iff_getElem.mpr ⟨?_, position, hposition, hpair, ?_⟩
    · simp [hnumbered position function hfunction]
    · intro before hbefore
      have hindex := hnumbered before (functions.zip codes)[before].1 (by simp)
      have hne : (functions.zip codes)[before].1.index ≠ position := by
        rw [hindex]
        exact Nat.ne_of_lt hbefore
      simpa using hne
  rw [hfunction?, hfind]
  rfl

end StraightWasm.Machine
