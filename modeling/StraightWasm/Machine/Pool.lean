/-!
# Register pools

A pool hands out registers for one function at a time. The monotonic strategy counts up and never
takes a register back. The free-list strategy hands out the lowest register that was given back
before it touches a new one. A register that was never handed out cannot be given back.

That the free registers are among those handed out, in ascending order and without repetition, that
the monotonic strategy has none, and that no more than `limit` registers are ever handed out, is
part of the type.
-/

set_option autoImplicit false
set_option relaxedAutoImplicit false

namespace StraightWasm.Machine

/-- How registers are handed out. -/
inductive Strategy where
  /-- Count up and never reuse a register. -/
  | monotonic
  /-- Reuse the lowest register that was given back. -/
  | freeList
  deriving DecidableEq, Repr, Inhabited

/-- A pool of `limit` registers. The registers below `used` have been handed out, and those in
`free` have been given back since. -/
structure Pool where
  strategy : Strategy
  limit : Nat
  used : Nat
  free : List Nat
  used_le : used ≤ limit
  free_lt : ∀ register ∈ free, register < used
  free_ascending : free.Pairwise (· < ·)
  free_monotonic : strategy = .monotonic → free = []

namespace Pool

/-- The pool of a strategy that has handed out nothing. -/
def ofLimit (strategy : Strategy) (limit : Nat) : Pool where
  strategy := strategy
  limit := limit
  used := 0
  free := []
  used_le := Nat.zero_le limit
  free_lt := by simp
  free_ascending := .nil
  free_monotonic := fun _ ↦ rfl

/-- Takes all registers back. -/
def reset (pool : Pool) : Pool :=
  ofLimit pool.strategy pool.limit

/-- A register that is not in use, if there is one: the lowest free one, or else the next one that
was never handed out. -/
def acquire? (pool : Pool) : Option (Nat × Pool) :=
  match pool with
  | { strategy, limit, used, free := register :: rest, used_le, free_lt, free_ascending,
      free_monotonic } =>
    some
      (register,
        { strategy := strategy
          limit := limit
          used := used
          free := rest
          used_le := used_le
          free_lt := fun other hother ↦ free_lt other (List.mem_cons_of_mem register hother)
          free_ascending := free_ascending.tail
          free_monotonic := fun hmonotonic ↦ nomatch free_monotonic hmonotonic })
  | { strategy, limit, used, free := [], .. } =>
    if room : used < limit then
      some
        (used,
          { strategy := strategy
            limit := limit
            used := used + 1
            free := []
            used_le := room
            free_lt := by simp
            free_ascending := .nil
            free_monotonic := fun _ ↦ rfl })
    else none

/-! ### Giving registers back -/

/-- Puts a number at its place in an ascending list; a number that is there already stays single. -/
def insert (number : Nat) (ascending : List Nat) : List Nat :=
  ascending.takeWhile (· < number) ++ number :: ascending.dropWhile (· ≤ number)

theorem eq_or_mem_of_mem_insert {number other : Nat} {ascending : List Nat}
    (h : other ∈ insert number ascending) : other = number ∨ other ∈ ascending := by
  rcases List.mem_append.mp h with hfront | hback
  · exact .inr ((List.takeWhile_sublist _).subset hfront)
  · rcases List.mem_cons.mp hback with heq | hrest
    · exact .inl heq
    · exact .inr ((List.dropWhile_sublist _).subset hrest)

/-- What is left of an ascending list behind its numbers up to a bound lies above that bound. -/
theorem lt_of_mem_dropWhile {number other : Nat} {ascending : List Nat}
    (hascending : ascending.Pairwise (· < ·))
    (h : other ∈ ascending.dropWhile (· ≤ number)) : number < other := by
  induction ascending with
  | nil => simp at h
  | cons first rest ih =>
    obtain ⟨hfirst, hrest⟩ := List.pairwise_cons.mp hascending
    by_cases hle : first ≤ number
    · rw [List.dropWhile_cons_of_pos (by simpa using hle)] at h
      exact ih hrest h
    · rw [List.dropWhile_cons_of_neg (by simpa using hle)] at h
      rcases List.mem_cons.mp h with heq | hmem
      · omega
      · have := hfirst other hmem
        omega

theorem lt_of_mem_takeWhile {number other : Nat} {ascending : List Nat}
    (h : other ∈ ascending.takeWhile (· < number)) : other < number := by
  induction ascending with
  | nil => simp at h
  | cons first rest ih =>
    by_cases hlt : first < number
    · rw [List.takeWhile_cons_of_pos (by simpa using hlt)] at h
      rcases List.mem_cons.mp h with heq | hmem
      · omega
      · exact ih hmem
    · rw [List.takeWhile_cons_of_neg (by simpa using hlt)] at h
      simp at h

/-- Inserting keeps a list ascending. -/
theorem pairwise_insert (number : Nat) {ascending : List Nat}
    (h : ascending.Pairwise (· < ·)) : (insert number ascending).Pairwise (· < ·) := by
  refine List.pairwise_append.mpr ⟨h.sublist (List.takeWhile_sublist _), ?_, ?_⟩
  · exact List.pairwise_cons.mpr
      ⟨fun _ hmem ↦ lt_of_mem_dropWhile h hmem, h.sublist (List.dropWhile_sublist _)⟩
  · intro low hlow high hhigh
    have hlt := lt_of_mem_takeWhile hlow
    rcases List.mem_cons.mp hhigh with heq | hmem
    · omega
    · have := lt_of_mem_dropWhile h hmem
      omega

/-- Gives a register back. The monotonic strategy takes none, and neither strategy takes one that
was not handed out. -/
def release (register : Nat) (pool : Pool) : Pool :=
  match pool.strategy with
  | .monotonic => pool
  | .freeList =>
    if handedOut : register < pool.used then
      { strategy := .freeList
        limit := pool.limit
        used := pool.used
        free := insert register pool.free
        used_le := pool.used_le
        free_lt := fun other hother ↦
          (eq_or_mem_of_mem_insert hother).elim (fun heq ↦ heq ▸ handedOut) (pool.free_lt other)
        free_ascending := pairwise_insert register pool.free_ascending
        free_monotonic := nofun }
    else pool

end Pool

end StraightWasm.Machine
