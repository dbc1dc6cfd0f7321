import StraightWasm.Proofs.Module.Payloads

/-!
# Runs of locals

The locals of a body are declared in runs, and a body may declare 50000 of them. Their reader keeps
the runs and a count of their locals, and writes the locals out when all runs are there. It does the
same as a loop that holds the list of the locals and puts every run behind it at once
(`Payload.growLocals`, `Payload.locals_eq_grow`). That list is never longer than the limit, whatever
the bytes are (`Payload.length_le_of_grow`).

On runs that are written in a row, one round either passes a run or refuses it at the place where it
starts (`Payload.localRun_of_written`). As a run never takes locals away, the first run that brings
the count above the limit is the one that is refused, and there is one exactly if the locals of all
runs are too many (`Payload.iterate_localRun_refused`). `Payload.locals_exact` puts both together.
-/

set_option autoImplicit false
set_option relaxedAutoImplicit false

namespace StraightWasm.Payload

open Reader

/-! ### The list that grows -/

/-- Reads one more run and puts its locals behind those that are there. A run that brings the number
of locals above the limit is a malformation at the offset of the run. -/
def growLocals (declared : List ValueType) : Reader (List ValueType) := do
  let place ← offset
  let length ← unsigned 32
  let type ← valueType
  if declared.length + length ≤ localLimit then pure (declared ++ List.replicate length type)
  else malformed place (.localLimit localLimit)

/-- A list of at most as many locals as the limit allows stays one in all rounds of the loop. -/
theorem length_le_of_grow (rounds : Nat) :
    ∀ {declared reached : List ValueType} {span after : Span}, declared.length ≤ localLimit →
      iterate growLocals rounds declared span = .ok reached after →
      reached.length ≤ localLimit := by
  induction rounds with
  | zero =>
    intro declared reached span after hlimit hrun
    obtain ⟨rfl, -⟩ := Success.pure_iff.mp hrun
    exact hlimit
  | succ rounds ih =>
    intro declared reached span after _ hrun
    obtain ⟨next, middle, hround, hrest⟩ := Success.bind_iff.mp hrun
    refine ih ?_ hrest
    obtain ⟨place, _, -, hround⟩ := Success.bind_iff.mp hround
    obtain ⟨length, _, -, hround⟩ := Success.bind_iff.mp hround
    obtain ⟨type, _, -, hround⟩ := Success.bind_iff.mp hround
    split_ifs at hround with hroom
    · obtain ⟨rfl, -⟩ := Success.pure_iff.mp hround
      rw [List.length_append, List.length_replicate]
      exact hroom
    · cases hround

namespace RunsSoFar

/-- The locals of the runs read so far. -/
def declared (soFar : RunsSoFar) : List ValueType :=
  expand soFar.runs.reverse

/-- Whether the count of locals is right. -/
def Counted (soFar : RunsSoFar) : Prop :=
  soFar.total = soFar.declared.length

theorem declared_cons (total : Nat) (run : LocalRun) (runs : List LocalRun) :
    declared { total := total, runs := run :: runs } =
      declared { total := total, runs := runs } ++ List.replicate run.length run.type := by
  simp [declared, expand]

end RunsSoFar

theorem counted_of_localRun {soFar next : RunsSoFar} {span after : Span} (h : soFar.Counted)
    (hrun : localRun soFar span = .ok next after) : next.Counted := by
  obtain ⟨-, ⟨run, -, hnext⟩, -⟩ := (reads_localRun soFar span next after).mp hrun
  rw [RunsSoFar.add?, Option.ite_none_right_eq_some, Option.some.injEq] at hnext
  obtain ⟨-, rfl⟩ := hnext
  rw [RunsSoFar.Counted] at h ⊢
  rw [RunsSoFar.declared_cons, List.length_append, List.length_replicate]
  exact congrArg (· + run.length) h

/-- A round with a list that grows is a round with runs and a right count. -/
theorem growLocals_declared {soFar : RunsSoFar} (h : soFar.Counted) :
    growLocals soFar.declared = RunsSoFar.declared <$> localRun soFar := by
  rw [growLocals, localRun, map_bind]
  refine bind_congr fun place ↦ ?_
  rw [map_bind]
  refine bind_congr fun length ↦ ?_
  rw [map_bind]
  refine bind_congr fun type ↦ ?_
  rw [← h]
  split_ifs
  · rw [map_pure, RunsSoFar.declared_cons]
    rfl
  · rfl

theorem iterate_growLocals (rounds : Nat) :
    ∀ {soFar : RunsSoFar}, soFar.Counted → ∀ span, iterate growLocals rounds soFar.declared span =
      (RunsSoFar.declared <$> iterate localRun rounds soFar) span := by
  induction rounds with
  | zero => exact fun _ span ↦ rfl
  | succ rounds ih =>
    intro soFar hcounted span
    rw [iterate, iterate, growLocals_declared hcounted, map_bind, bind_map_left]
    refine Success.bind_congr rfl fun next middle hround ↦ ?_
    exact ih (counted_of_localRun hcounted hround) middle

/-- The declared locals are read as if they were written out run by run. -/
theorem locals_eq_grow : locals = (do iterate growLocals (← unsigned 32) []) := by
  funext span
  refine Success.bind_congr rfl fun count middle _ ↦ ?_
  rw [bind_pure_comp]
  exact (@iterate_growLocals count ⟨0, []⟩ rfl middle).symm

/-! ### The run that is refused -/

/-- Whether `place` is where the first run stands that brings the number of locals above the limit,
in runs that are written in a row behind `total` locals. -/
def FirstExcess (total offset : Nat) (runs : List LocalRun) (bytes : List UInt8) (place : Nat) :
    Prop :=
  ∃ front run back written rest, runs = front ++ run :: back ∧ bytes = written ++ rest ∧
    Form.Row LocalRun.Written offset front written ∧
    Form.Row LocalRun.Written (offset + written.length) (run :: back) rest ∧
    total + (front.map (·.length)).sum ≤ localLimit ∧
    localLimit < total + (front.map (·.length)).sum + run.length ∧
    place = offset + written.length

section Rounds

variable {offset : Nat} {run : LocalRun} {others : List LocalRun} {piece rest : List UInt8}

theorem firstExcess_here {total : Nat} (hrun : LocalRun.Written offset run piece)
    (hothers : Form.Row LocalRun.Written (offset + piece.length) others rest)
    (hlimit : total ≤ localLimit) (hexcess : localLimit < total + run.length) :
    FirstExcess total offset (run :: others) (piece ++ rest) offset :=
  ⟨[], run, others, [], piece ++ rest, rfl, rfl, .nil offset, .cons hrun hothers, hlimit, hexcess,
    rfl⟩

theorem FirstExcess.later {total place : Nat} (hrun : LocalRun.Written offset run piece)
    (h : FirstExcess (total + run.length) (offset + piece.length) others rest place) :
    FirstExcess total offset (run :: others) (piece ++ rest) place := by
  obtain ⟨front, refused, back, written, behind, rfl, rfl, hfront, hback, hfits, hexcess, rfl⟩ := h
  rw [Nat.add_assoc offset, ← List.length_append] at hback ⊢
  rw [Nat.add_assoc total] at hfits hexcess
  exact ⟨run :: front, refused, back, piece ++ written, behind, rfl,
    (List.append_assoc _ _ _).symm, .cons hrun hfront, hback, hfits, hexcess, rfl⟩

/-- A round on a written run passes it or refuses it at its place. -/
theorem localRun_of_written (h : LocalRun.Written offset run piece) (soFar : RunsSoFar)
    (suffix : List UInt8) :
    localRun soFar { offset := offset, bytes := piece ++ suffix } =
      if soFar.total + run.length ≤ localLimit then
        .ok { total := soFar.total + run.length, runs := run :: soFar.runs }
          { offset := offset + piece.length, bytes := suffix }
      else .error (.malformed offset (.localLimit localLimit))
        { offset := offset + piece.length, bytes := suffix } := by
  obtain ⟨length, rfl, hlength⟩ := h
  rw [List.append_assoc, List.length_append, ← Nat.add_assoc]
  have hplace : Reader.offset ⟨offset, length ++ ([run.type.toByte] ++ suffix)⟩ =
    .ok offset ⟨offset, length ++ ([run.type.toByte] ++ suffix)⟩ := rfl
  have hread := (reads_unsigned (by decide) ⟨offset, length ++ ([run.type.toByte] ++ suffix)⟩
    run.length ⟨offset + length.length, [run.type.toByte] ++ suffix⟩).mpr
      ⟨length, hlength, rfl, rfl⟩
  have htype := (reads_valueType ⟨offset + length.length, [run.type.toByte] ++ suffix⟩ run.type
    ⟨offset + length.length + 1, suffix⟩).mpr ⟨[run.type.toByte], rfl, rfl, rfl⟩
  rw [localRun, Success.bind_of_ok hplace, Success.bind_of_ok hread, Success.bind_of_ok htype]
  split_ifs
  · rfl
  · rfl

end Rounds

/-- Assumes: runs written in a row, and a count that has not passed the limit but will with their
locals. There is a first run that passes it, and the loop refuses that run at its place. -/
theorem iterate_localRun_refused {offset : Nat} {runs : List LocalRun} {bytes : List UInt8}
    (h : Form.Row LocalRun.Written offset runs bytes) :
    ∀ soFar : RunsSoFar, soFar.total ≤ localLimit →
      localLimit < soFar.total + (runs.map (·.length)).sum →
      ∃ place, FirstExcess soFar.total offset runs bytes place ∧
        ∀ suffix, ∃ stop, iterate localRun runs.length soFar
          { offset := offset, bytes := bytes ++ suffix } =
            .error (.malformed place (.localLimit localLimit)) stop := by
  induction h with
  | nil offset =>
    intro soFar hlimit hsum
    exact absurd hsum (Nat.not_lt.mpr hlimit)
  | @cons offset run others piece rest hrun hothers ih =>
    intro soFar hlimit hsum
    rw [List.length_cons]
    by_cases hroom : soFar.total + run.length ≤ localLimit
    · -- The run is passed, so one of the others is the first that is too much.
      rw [List.map_cons, List.sum_cons, ← Nat.add_assoc] at hsum
      obtain ⟨place, hexcess, hrefused⟩ :=
        ih ⟨soFar.total + run.length, run :: soFar.runs⟩ hroom hsum
      refine ⟨place, hexcess.later hrun, fun suffix ↦ ?_⟩
      have hround := localRun_of_written hrun soFar (rest ++ suffix)
      rw [if_pos hroom] at hround
      rw [iterate, List.append_assoc, Success.bind_of_ok hround]
      exact hrefused suffix
    · refine ⟨offset, firstExcess_here hrun hothers hlimit (Nat.lt_of_not_le hroom),
        fun suffix ↦ ?_⟩
      have hround := localRun_of_written hrun soFar (rest ++ suffix)
      rw [if_neg hroom] at hround
      rw [iterate, List.append_assoc]
      exact ⟨_, Success.bind_error_iff.mpr (.inl hround)⟩

/-! ### Declared locals -/

theorem locals_refused {offset : Nat} {runs : List LocalRun} {count items : List UInt8}
    (hcount : Form.Integer 32 offset runs.length count)
    (hrow : Form.Row LocalRun.Written (offset + count.length) runs items)
    (hsum : localLimit < (runs.map (·.length)).sum) (suffix : List UInt8) :
    ∃ place stop, FirstExcess 0 (offset + count.length) runs items place ∧
      locals { offset := offset, bytes := count ++ items ++ suffix } =
        .error (.malformed place (.localLimit localLimit)) stop := by
  obtain ⟨place, hexcess, hrefused⟩ :=
    iterate_localRun_refused hrow ⟨0, []⟩ (Nat.zero_le _) (by rwa [Nat.zero_add])
  obtain ⟨stop, hstop⟩ := hrefused suffix
  refine ⟨place, stop, hexcess, ?_⟩
  have hread := (reads_unsigned (by decide) ⟨offset, count ++ (items ++ suffix)⟩ runs.length
    ⟨offset + count.length, items ++ suffix⟩).mpr ⟨count, hcount, rfl, rfl⟩
  rw [List.append_assoc, locals, Success.bind_of_ok hread]
  exact Success.bind_error_iff.mpr (.inl hstop)

/-- Assumes: a vector of runs of locals in any of its written forms. Whatever stands behind it, the
locals are read in order and reading stops right behind the vector, if and only if there are at most
50000 of them. If there are more, the first run that brings their number above the limit is refused
at its own place. The reader does what a loop does that writes the locals out run by run, and
however many rounds that loop takes, and on whatever bytes, its list never has more than 50000
locals. -/
theorem locals_exact {offset : Nat} {runs : List LocalRun} {bytes : List UInt8}
    (h : Form.Vector LocalRun.Written offset runs bytes) (suffix : List UInt8) :
    (locals { offset := offset, bytes := bytes ++ suffix } =
        .ok (runs.flatMap fun run ↦ List.replicate run.length run.type)
          { offset := offset + bytes.length, bytes := suffix } ↔
      (runs.map (·.length)).sum ≤ 50000) ∧
    (50000 < (runs.map (·.length)).sum →
      ∃ count items place stop, bytes = count ++ items ∧
        Form.Integer 32 offset runs.length count ∧
        FirstExcess 0 (offset + count.length) runs items place ∧
        locals { offset := offset, bytes := bytes ++ suffix } =
          .error (.malformed place (.localLimit 50000)) stop) ∧
    locals = (do iterate growLocals (← unsigned 32) []) ∧
    ∀ rounds span held after, iterate growLocals rounds [] span = .ok held after →
      held.length ≤ 50000 := by
  have hwritten := h
  obtain ⟨count, items, rfl, hcount, hrow⟩ := h
  refine ⟨⟨fun hrun ↦ ?_, fun hsum ↦ ?_⟩, fun hsum ↦ ?_, locals_eq_grow,
    fun rounds span held after ↦ length_le_of_grow rounds (Nat.zero_le _)⟩
  · by_contra hsum
    obtain ⟨place, stop, -, hstop⟩ := locals_refused hcount hrow (Nat.lt_of_not_le hsum) suffix
    rw [hstop] at hrun
    cases hrun
  · exact (reads_locals _ _ _).mpr ⟨count ++ items, ⟨runs, hwritten, hsum, rfl⟩, rfl, rfl⟩
  · obtain ⟨place, stop, hexcess, hstop⟩ := locals_refused hcount hrow hsum suffix
    exact ⟨count, items, place, stop, rfl, hcount, hexcess, hstop⟩

/-- Runs of which the last one is too long by one local. -/
def overlong : List LocalRun :=
  [⟨40000, .i32⟩, ⟨0, .f32⟩, ⟨10001, .i64⟩]

/-- The runs of `overlong` behind their number. Two of the integers are not in their shortest form.
-/
def overlongBytes : List UInt8 :=
  [0x83, 0x00] ++ ([0xc0, 0xb8, 0x02, 0x7f] ++ ([0x00, 0x7d] ++ ([0x91, 0xce, 0x00, 0x7e] ++ [])))

theorem overlong_written : Form.Vector LocalRun.Written 20 overlong overlongBytes := by
  refine ⟨[0x83, 0x00], _, rfl, ?_, .cons ⟨[0xc0, 0xb8, 0x02], rfl, ?_⟩
    (.cons ⟨[0x00], rfl, ?_⟩ (.cons ⟨[0x91, 0xce, 0x00], rfl, ?_⟩ (.nil _)))⟩
  all_goals exact ⟨by simp, ⟨_, rfl, by decide⟩, by decide, by decide, by decide⟩

/-- The last run of `overlong` is the first that is too much, and it is refused at its own place,
the eighth byte behind the start. -/
theorem locals_exact_overlong :
    Form.Vector LocalRun.Written 20 overlong overlongBytes ∧
      ∃ count items stop, overlongBytes = count ++ items ∧
        FirstExcess 0 (20 + count.length) overlong items 28 ∧
        locals { offset := 20, bytes := overlongBytes ++ [0x0b] } =
          .error (.malformed 28 (.localLimit 50000)) stop := by
  refine ⟨overlong_written, ?_⟩
  obtain ⟨count, items, place, stop, hbytes, -, hexcess, hstop⟩ :=
    (locals_exact overlong_written [0x0b]).2.1 (by decide)
  have hplace : locals { offset := 20, bytes := overlongBytes ++ [0x0b] } =
    .error (.malformed 28 (.localLimit 50000)) { offset := 32, bytes := [0x0b] } := rfl
  obtain ⟨hsame, -⟩ := EStateM.Result.error.inj (hstop.symm.trans hplace)
  obtain rfl : place = 28 := (Diagnostic.malformed.inj hsame).1
  exact ⟨count, items, stop, hbytes, hexcess, hstop⟩

end StraightWasm.Payload
