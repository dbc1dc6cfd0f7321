import Mathlib.Data.List.Basic
import StraightWasm.Machine.Pool

/-!
# What a pool has lent

A register is lent when it was handed out and has not been given back (`Pool.Lent`). Acquiring hands
out a register that was not lent and lends it, and nothing else changes (`Pool.lent_acquire?`).
Giving a register back ends its loan and no other one under the free-list strategy
(`Pool.lent_release`), and changes nothing under the monotonic one.
-/

set_option autoImplicit false
set_option relaxedAutoImplicit false

namespace StraightWasm.Machine.Pool

/-- Whether a register was handed out and has not been given back since. -/
def Lent (pool : Pool) (register : Nat) : Prop :=
  register < pool.used ∧ register ∉ pool.free

/-! ### Acquiring -/

/-- Acquiring takes the first free register, or else the first one that was never handed out. -/
theorem acquire?_cases {pool next : Pool} {register : Nat}
    (h : pool.acquire? = some (register, next)) :
    next.strategy = pool.strategy ∧ next.limit = pool.limit ∧
      ((pool.free = register :: next.free ∧ next.used = pool.used) ∨
        (pool.free = [] ∧ next.free = [] ∧ register = pool.used ∧ next.used = pool.used + 1)) := by
  obtain ⟨strategy, limit, used, free, hused, hfree, hascending, hmonotonic⟩ := pool
  cases free with
  | cons first rest =>
    simp only [acquire?, Option.some.injEq, Prod.mk.injEq] at h
    obtain ⟨rfl, rfl⟩ := h
    exact ⟨rfl, rfl, .inl ⟨rfl, rfl⟩⟩
  | nil =>
    simp only [acquire?] at h
    split_ifs at h with hroom
    simp only [Option.some.injEq, Prod.mk.injEq] at h
    obtain ⟨rfl, rfl⟩ := h
    exact ⟨rfl, rfl, .inr ⟨rfl, rfl, rfl, rfl⟩⟩

/-- The monotonic strategy hands out the first register that was never handed out. -/
theorem acquire?_of_monotonic {pool next : Pool} {register : Nat}
    (hmonotonic : pool.strategy = .monotonic) (h : pool.acquire? = some (register, next)) :
    register = pool.used ∧ next.used = pool.used + 1 := by
  obtain ⟨-, -, ⟨hfree, -⟩ | ⟨-, -, hregister, hused⟩⟩ := acquire?_cases h
  · rw [pool.free_monotonic hmonotonic] at hfree
    cases hfree
  · exact ⟨hregister, hused⟩

/-- Acquiring hands out the register, and all others that were handed out before stay so. -/
theorem lt_used_acquire? {pool next : Pool} {register : Nat}
    (h : pool.acquire? = some (register, next)) (other : Nat) :
    other < next.used ↔ other < pool.used ∨ other = register := by
  obtain ⟨-, -, ⟨hfree, hused⟩ | ⟨-, -, hregister, hused⟩⟩ := acquire?_cases h
  · have hlt : register < pool.used := pool.free_lt register (by simp [hfree])
    rw [hused]
    constructor
    · exact .inl
    · rintro (hother | rfl)
      · exact hother
      · exact hlt
  · omega

/-- Acquiring lends a register that was not lent and leaves the other loans as they are. -/
theorem lent_acquire? {pool next : Pool} {register : Nat}
    (h : pool.acquire? = some (register, next)) :
    ¬ pool.Lent register ∧ ∀ other, next.Lent other ↔ other = register ∨ pool.Lent other := by
  unfold Lent
  obtain ⟨-, -, ⟨hfree, hused⟩ | ⟨hfree, hnext, hregister, hused⟩⟩ := acquire?_cases h
  · have hascending := pool.free_ascending
    have hlt : register < pool.used := pool.free_lt register (by simp [hfree])
    rw [hfree, List.pairwise_cons] at hascending
    have hself : register ∉ next.free := fun hmem ↦ Nat.lt_irrefl _ (hascending.1 register hmem)
    refine ⟨by simp [hfree], fun other ↦ ?_⟩
    rw [hfree, hused, List.mem_cons]
    by_cases hother : other = register
    · simp [hother, hself, hlt]
    · simp [hother]
  · refine ⟨by omega, fun other ↦ ?_⟩
    simp only [hfree, hnext, hregister, hused, List.not_mem_nil, not_false_eq_true, and_true]
    omega

/-- Where there is no register to acquire, all are in use. -/
theorem used_of_acquire?_eq_none {pool : Pool} (h : pool.acquire? = none) :
    pool.free = [] ∧ pool.used = pool.limit := by
  obtain ⟨strategy, limit, used, free, hused, hfree, hascending, hmonotonic⟩ := pool
  cases free with
  | cons first rest => cases h
  | nil =>
    simp only [acquire?] at h
    split_ifs at h with hroom
    exact ⟨rfl, Nat.le_antisymm hused (Nat.le_of_not_lt hroom)⟩

/-! ### Giving back -/

theorem mem_insert_iff {number other : Nat} {ascending : List Nat}
    (h : ascending.Pairwise (· < ·)) :
    other ∈ insert number ascending ↔ other = number ∨ other ∈ ascending := by
  refine ⟨eq_or_mem_of_mem_insert, ?_⟩
  unfold insert
  rw [List.mem_append, List.mem_cons]
  rintro (heq | hmem)
  · exact .inr (.inl heq)
  · induction ascending with
    | nil => simp at hmem
    | cons first rest ih =>
      obtain ⟨hfirst, hrest⟩ := List.pairwise_cons.mp h
      rcases Nat.lt_trichotomy first number with hlt | rfl | hgt
      · rw [List.takeWhile_cons_of_pos (by simpa using hlt),
          List.dropWhile_cons_of_pos (by simpa using Nat.le_of_lt hlt), List.mem_cons]
        rcases List.mem_cons.mp hmem with hother | hother
        · exact .inl (.inl hother)
        · exact (ih hrest hother).imp_left .inr
      · rw [List.dropWhile_cons_of_pos (by simp)]
        rcases List.mem_cons.mp hmem with hother | hother
        · exact .inr (.inl hother)
        · rcases ih hrest hother with hfront | hback
          · have hlt := lt_of_mem_takeWhile hfront
            have hgt := hfirst other hother
            omega
          · exact .inr hback
      · rw [List.dropWhile_cons_of_neg (by simpa using hgt)]
        exact .inr (.inr hmem)

theorem strategy_release (register : Nat) (pool : Pool) :
    (pool.release register).strategy = pool.strategy := by
  unfold release
  split
  · rfl
  · split_ifs <;> simp [*]

theorem limit_release (register : Nat) (pool : Pool) :
    (pool.release register).limit = pool.limit := by
  unfold release
  split
  · rfl
  · split_ifs <;> rfl

theorem used_release (register : Nat) (pool : Pool) :
    (pool.release register).used = pool.used := by
  unfold release
  split
  · rfl
  · split_ifs <;> rfl

theorem release_of_monotonic {pool : Pool} (h : pool.strategy = .monotonic) (register : Nat) :
    pool.release register = pool := by
  unfold release
  rw [h]

/-- Whether two pools have the same strategy and the same number of registers. -/
def SameSettings (first second : Pool) : Prop :=
  second.strategy = first.strategy ∧ second.limit = first.limit

theorem SameSettings.trans {first middle last : Pool} (hfirst : first.SameSettings middle)
    (hlast : middle.SameSettings last) : first.SameSettings last :=
  ⟨hlast.1.trans hfirst.1, hlast.2.trans hfirst.2⟩

theorem sameSettings_acquire? {pool next : Pool} {register : Nat}
    (h : pool.acquire? = some (register, next)) : pool.SameSettings next :=
  ⟨(acquire?_cases h).1, (acquire?_cases h).2.1⟩

theorem sameSettings_release (register : Nat) (pool : Pool) :
    pool.SameSettings (pool.release register) :=
  ⟨strategy_release register pool, limit_release register pool⟩

/-- Under the free-list strategy, giving a register back ends its loan and no other one. -/
theorem lent_release {pool : Pool} (h : pool.strategy = .freeList) (register other : Nat) :
    (pool.release register).Lent other ↔ pool.Lent other ∧ other ≠ register := by
  unfold release Lent
  rw [h]
  dsimp only
  split_ifs with hhanded
  · simp only [mem_insert_iff pool.free_ascending]
    tauto
  · refine ⟨fun hlent ↦ ⟨hlent, ?_⟩, fun hlent ↦ hlent.1⟩
    rintro rfl
    exact hhanded hlent.1

end StraightWasm.Machine.Pool
