import Mathlib.Data.Finset.Card
import Mathlib.Data.List.Range
import Mathlib.Order.Bounds.Basic
import StraightWasm.Proofs.Machine.PoolLaws

/-!
# What a pool owes to its history

A pool keeps a counter and a list. What it has to answer can be said without either, from what
happened to it: which registers were handed out since the last reset, and which of them were not
given back since they were last handed out. Those are held (`Ledger.held`). Registers may be given
back that were never handed out, and the same one more than once; that changes nothing.

A ledger is a pool together with what happened to it, and every request adds one event to it
(`Ledger.serve`). Under the free-list strategy the held registers are those that the pool has lent,
the counter is above the registers handed out, and it is the largest number of registers held at
once (`Ledger.Faithful`). One request keeps this (`Ledger.Faithful.serve`), so it holds after all of
them. Under the monotonic strategy the registers handed out are those below the counter, in order
(`Ledger.Ascending.serve`).
-/

set_option autoImplicit false
set_option relaxedAutoImplicit false

namespace StraightWasm.Machine

/-! ### Pools -/

namespace Pool

/-- Acquiring takes the least register that is not lent. -/
theorem isLeast_acquire? {pool next : Pool} {register : Nat}
    (h : pool.acquire? = some (register, next)) :
    IsLeast {register | register < pool.limit ∧ ¬pool.Lent register} register := by
  obtain ⟨-, hlimit, hcases⟩ := acquire?_cases h
  have hused := (lt_used_acquire? h register).mpr (.inr rfl)
  have hle := next.used_le
  refine ⟨⟨by omega, (lent_acquire? h).1⟩, ?_⟩
  rintro other ⟨-, hother⟩
  -- A lower register was handed out and is not free, so that it is lent.
  by_contra hlower
  refine hother ?_
  obtain ⟨hfree, -⟩ | ⟨hfree, -, hregister, -⟩ := hcases
  · have hascending := pool.free_ascending
    have hlt := pool.free_lt register (by simp [hfree])
    rw [hfree, List.pairwise_cons] at hascending
    refine ⟨by omega, fun hmem ↦ ?_⟩
    rw [hfree] at hmem
    rcases List.mem_cons.mp hmem with rfl | hmem
    · exact hlower le_rfl
    · have := hascending.1 other hmem
      omega
  · exact ⟨by omega, by simp [hfree]⟩

/-- Acquiring is refused if and only if all registers are lent. -/
theorem acquire?_eq_none_iff {pool : Pool} :
    pool.acquire? = none ↔ ∀ register < pool.limit, pool.Lent register := by
  constructor
  · intro h register hregister
    obtain ⟨hfree, hused⟩ := used_of_acquire?_eq_none h
    exact ⟨hused ▸ hregister, by simp [hfree]⟩
  · intro h
    cases hacquire : pool.acquire? with
    | none => rfl
    | some found =>
      obtain ⟨hlt, hnot⟩ := (isLeast_acquire? hacquire).1
      exact absurd (h found.1 hlt) hnot

end Pool

/-! ### Ledgers -/

/-- A request to a pool. -/
inductive Request where
  /-- Asks for a register. -/
  | acquire
  /-- Gives a register back, whether it was handed out or not. -/
  | release (register : Nat)
  /-- Gives all registers back. -/
  | reset
  deriving DecidableEq, Repr

/-- What happened to a pool. -/
inductive Event where
  /-- A register was handed out. -/
  | lent (register : Nat)
  /-- A register was asked for, and there was none. -/
  | refused
  /-- A register was given back. -/
  | returned (register : Nat)
  /-- All registers were given back. -/
  | reset
  deriving DecidableEq, Repr

/-- A pool and what happened to it, the latest first. -/
structure Ledger where
  pool : Pool
  events : List Event

namespace Ledger

/-- The pool of a strategy, and nothing has happened. -/
def blank (strategy : Strategy) (limit : Nat) : Ledger where
  pool := .ofLimit strategy limit
  events := []

/-- Serves a request and notes what happened. -/
def serve (ledger : Ledger) : Request → Ledger
  | .acquire =>
    match ledger.pool.acquire? with
    | some (register, next) => { pool := next, events := .lent register :: ledger.events }
    | none => { ledger with events := .refused :: ledger.events }
  | .release register =>
    { pool := ledger.pool.release register, events := .returned register :: ledger.events }
  | .reset => { pool := ledger.pool.reset, events := .reset :: ledger.events }

/-- The ledger after some requests, the first one first. -/
def after (strategy : Strategy) (limit : Nat) (requests : List Request) : Ledger :=
  requests.foldl serve (blank strategy limit)

/-- What every request keeps holds after all of them. -/
theorem keeps_after (Kept : Ledger → Prop) {strategy : Strategy} {limit : Nat}
    (hblank : Kept (blank strategy limit))
    (hserve : ∀ ledger request, Kept ledger → Kept (ledger.serve request))
    (requests : List Request) : Kept (after strategy limit requests) :=
  List.foldlRecOn requests serve hblank fun ledger hledger request _ ↦
    hserve ledger request hledger

/-- No request changes the settings of a pool. -/
theorem sameSettings_serve (ledger : Ledger) (request : Request) :
    ledger.pool.SameSettings (ledger.serve request).pool := by
  cases request with
  | acquire =>
    unfold serve
    cases hacquire : ledger.pool.acquire? with
    | none => exact ⟨rfl, rfl⟩
    | some found => exact Pool.sameSettings_acquire? hacquire
  | release register => exact Pool.sameSettings_release register ledger.pool
  | reset => exact ⟨rfl, rfl⟩

/-! ### What the events say -/

/-- The registers that were handed out since the last reset, the latest first. -/
def loans : List Event → List Nat
  | [] => []
  | .lent register :: earlier => register :: loans earlier
  | .refused :: earlier => loans earlier
  | .returned _ :: earlier => loans earlier
  | .reset :: _ => []

/-- The registers that are held. -/
def held : List Event → Finset Nat
  | [] => ∅
  | .lent register :: earlier => insert register (held earlier)
  | .refused :: earlier => held earlier
  | .returned register :: earlier => (held earlier).erase register
  | .reset :: _ => ∅

/-- Whether a register was handed out since the last reset and was not given back since it was last
handed out. -/
def OnLoan (register : Nat) (events : List Event) : Prop :=
  ∃ later earlier, events = later ++ .lent register :: earlier ∧ .reset ∉ later ∧
    .returned register ∉ later

/-- How many registers were held at once, at all moments since the last reset. -/
def counts (events : List Event) : Set Nat :=
  {count | ∃ later earlier, events = later ++ earlier ∧ .reset ∉ later ∧
    (held earlier).card = count}

theorem onLoan_cons_iff {register : Nat} {event : Event} {events : List Event} :
    OnLoan register (event :: events) ↔ event = .lent register ∨
      event ≠ .reset ∧ event ≠ .returned register ∧ OnLoan register events := by
  constructor
  · rintro ⟨later, earlier, hsplit, hreset, hreturned⟩
    cases later with
    | nil => exact .inl (List.cons.inj hsplit).1
    | cons first later =>
      obtain ⟨rfl, rfl⟩ := List.cons.inj hsplit
      rw [List.mem_cons, not_or] at hreset hreturned
      exact .inr ⟨Ne.symm hreset.1, Ne.symm hreturned.1, later, earlier, rfl, hreset.2,
        hreturned.2⟩
  · rintro (rfl | ⟨hfirst, hfirst', later, earlier, rfl, hreset, hreturned⟩)
    · exact ⟨[], events, rfl, List.not_mem_nil, List.not_mem_nil⟩
    · refine ⟨event :: later, earlier, rfl, ?_, ?_⟩
      · exact List.not_mem_cons_of_ne_of_not_mem (Ne.symm hfirst) hreset
      · exact List.not_mem_cons_of_ne_of_not_mem (Ne.symm hfirst') hreturned

/-- The registers that are held are those on loan. -/
theorem mem_held_iff {register : Nat} (events : List Event) :
    register ∈ held events ↔ OnLoan register events := by
  induction events with
  | nil => simp [held, OnLoan]
  | cons event rest ih =>
    rw [onLoan_cons_iff]
    cases event with
    | lent other => simp [held, ih, eq_comm]
    | refused => simp [held, ih]
    | returned other => simp [held, ih, eq_comm]
    | reset => simp [held]

/-- An event other than a reset adds a moment. -/
theorem counts_cons {event : Event} (h : event ≠ .reset) (events : List Event) :
    counts (event :: events) = insert (held (event :: events)).card (counts events) := by
  ext count
  constructor
  · rintro ⟨later, earlier, hsplit, hlater, rfl⟩
    cases later with
    | nil =>
      obtain rfl : earlier = event :: events := hsplit.symm
      exact .inl rfl
    | cons first later =>
      obtain ⟨-, rfl⟩ := List.cons.inj hsplit
      exact .inr ⟨later, earlier, rfl, fun hmem ↦ hlater (List.mem_cons_of_mem first hmem), rfl⟩
  · rintro (rfl | ⟨later, earlier, rfl, hlater, rfl⟩)
    · exact ⟨[], event :: events, rfl, List.not_mem_nil, rfl⟩
    · exact ⟨event :: later, earlier, rfl, by simp [Ne.symm h, hlater], rfl⟩

/-- At a moment when nothing is held and that no earlier one belongs to, nothing was ever held. -/
theorem isGreatest_counts_zero {events : List Event} (hheld : held events = ∅)
    (hfirst : ∀ later earlier, events = later ++ earlier → .reset ∉ later → later = []) :
    IsGreatest (counts events) 0 := by
  refine ⟨⟨[], events, rfl, List.not_mem_nil, by rw [hheld]; rfl⟩, ?_⟩
  rintro count ⟨later, earlier, hsplit, hlater, rfl⟩
  obtain rfl := hfirst later earlier hsplit hlater
  rw [List.nil_append] at hsplit
  rw [← hsplit, hheld]
  exact le_rfl

/-- Another moment raises the largest number held at once to the number held at that moment, or
leaves it. -/
theorem isGreatest_counts_cons {event : Event} {events : List Event} {peak peak' : Nat}
    (h : event ≠ .reset) (hpeak : IsGreatest (counts events) peak) (hle : peak ≤ peak')
    (hcard : (held (event :: events)).card ≤ peak')
    (hreached : peak' = peak ∨ (held (event :: events)).card = peak') :
    IsGreatest (counts (event :: events)) peak' := by
  rw [counts_cons h]
  constructor
  · rcases hreached with rfl | hreached
    · exact .inr hpeak.1
    · exact .inl hreached.symm
  · rintro count (rfl | hcount)
    · exact hcard
    · exact (hpeak.2 hcount).trans hle

/-! ### The free-list strategy -/

/-- Whether a pool of the free-list strategy agrees with what happened to it. -/
structure Faithful (limit : Nat) (ledger : Ledger) : Prop where
  strategy_eq : ledger.pool.strategy = .freeList
  limit_eq : ledger.pool.limit = limit
  mem_held : ∀ register, register ∈ held ledger.events ↔ ledger.pool.Lent register
  mem_loans : ∀ register, register ∈ loans ledger.events ↔ register < ledger.pool.used
  peak : IsGreatest (counts ledger.events) ledger.pool.used

namespace Faithful

variable {limit : Nat} {ledger : Ledger}

/-- Only registers below the counter can be lent. -/
theorem card_le {events : List Event} {pool : Pool}
    (h : ∀ register, register ∈ held events ↔ pool.Lent register) :
    (held events).card ≤ pool.used := by
  have hsubset : held events ⊆ Finset.range pool.used :=
    fun register hmem ↦ Finset.mem_range.mpr ((h register).mp hmem).1
  simpa using Finset.card_le_card hsubset

/-- If nothing is free, the registers below the counter are lent. -/
theorem card_eq {events : List Event} {pool : Pool}
    (h : ∀ register, register ∈ held events ↔ pool.Lent register) (hfree : pool.free = []) :
    (held events).card = pool.used := by
  have heq : held events = Finset.range pool.used := by
    ext register
    simp [h, Pool.Lent, hfree]
  rw [heq, Finset.card_range]

theorem acquire (h : ledger.Faithful limit) : (ledger.serve .acquire).Faithful limit := by
  unfold serve
  cases hacquire : ledger.pool.acquire? with
  | none =>
    exact ⟨h.strategy_eq, h.limit_eq, h.mem_held, h.mem_loans,
      isGreatest_counts_cons (by simp) h.peak le_rfl (card_le h.mem_held) (.inl rfl)⟩
  | some found =>
    obtain ⟨register, next⟩ := found
    obtain ⟨hstrategy, hlimit, hcases⟩ := Pool.acquire?_cases hacquire
    have hheld : ∀ other, other ∈ held (.lent register :: ledger.events) ↔ next.Lent other := by
      intro other
      rw [(Pool.lent_acquire? hacquire).2 other, held, Finset.mem_insert, h.mem_held]
    refine ⟨hstrategy.trans h.strategy_eq, hlimit.trans h.limit_eq, hheld, fun other ↦ ?_, ?_⟩
    · rw [Pool.lt_used_acquire? hacquire, loans, List.mem_cons, h.mem_loans, or_comm]
    · -- The counter goes up when no register is free, and then all below it are held.
      obtain ⟨-, hused⟩ | ⟨-, hfree, -, hused⟩ := hcases
      · exact isGreatest_counts_cons (by simp) h.peak hused.ge (card_le hheld) (.inl hused)
      · exact isGreatest_counts_cons (by simp) h.peak (hused ▸ Nat.le_succ _) (card_le hheld)
          (.inr (card_eq hheld hfree))

theorem release (h : ledger.Faithful limit) (register : Nat) :
    (ledger.serve (.release register)).Faithful limit := by
  have hheld : ∀ other, other ∈ held (.returned register :: ledger.events) ↔
      (ledger.pool.release register).Lent other := by
    intro other
    rw [Pool.lent_release h.strategy_eq, held, Finset.mem_erase, h.mem_held, and_comm]
  have hused := Pool.used_release register ledger.pool
  refine ⟨(Pool.strategy_release register ledger.pool).trans h.strategy_eq,
    (Pool.limit_release register ledger.pool).trans h.limit_eq, hheld, fun other ↦ ?_, ?_⟩
  · exact (h.mem_loans other).trans (by rw [← hused]; rfl)
  · exact isGreatest_counts_cons (by simp) h.peak hused.ge (card_le hheld) (.inl hused)

/-- A request keeps pool and history in agreement. -/
theorem serve (h : ledger.Faithful limit) (request : Request) :
    (ledger.serve request).Faithful limit := by
  cases request with
  | acquire => exact h.acquire
  | release register => exact h.release register
  | reset =>
    refine ⟨h.strategy_eq, h.limit_eq, ?_, ?_, isGreatest_counts_zero rfl ?_⟩
    · simp [Ledger.serve, held, Pool.Lent, Pool.reset, Pool.ofLimit]
    · simp [Ledger.serve, loans, Pool.reset, Pool.ofLimit]
    · rintro later earlier hsplit hlater
      cases later with
      | nil => rfl
      | cons first later =>
        obtain ⟨rfl, -⟩ := List.cons.inj hsplit
        exact absurd List.mem_cons_self hlater

end Faithful

theorem faithful_after (limit : Nat) (requests : List Request) :
    (after .freeList limit requests).Faithful limit := by
  refine keeps_after (Faithful limit) ⟨rfl, rfl, ?_, ?_, isGreatest_counts_zero rfl ?_⟩
    (fun _ request h ↦ h.serve request) requests
  · simp [blank, held, Pool.Lent, Pool.ofLimit]
  · simp [blank, loans, Pool.ofLimit]
  · intro later earlier hsplit _
    exact (List.append_eq_nil_iff.mp hsplit.symm).1

/-- Whether a pool hands out the least register that is not held, refuses if and only if all are
held, and counts both the registers handed out and the most that were held at once. -/
structure LendsLeast (limit : Nat) (ledger : Ledger) : Prop where
  held_iff : ∀ register, register ∈ held ledger.events ↔ OnLoan register ledger.events
  acquires : ∀ register, ledger.pool.acquire?.map Prod.fst = some register ↔
    IsLeast {register | register < limit ∧ register ∉ held ledger.events} register
  refuses : ledger.pool.acquire? = none ↔ ∀ register < limit, register ∈ held ledger.events
  used_eq_card : ledger.pool.used = (loans ledger.events).toFinset.card
  used_isGreatest : IsGreatest (counts ledger.events) ledger.pool.used

theorem Faithful.lendsLeast {limit : Nat} {ledger : Ledger} (h : ledger.Faithful limit) :
    ledger.LendsLeast limit := by
  have hrefuses : ledger.pool.acquire? = none ↔
      ∀ register < limit, register ∈ held ledger.events := by
    rw [Pool.acquire?_eq_none_iff, h.limit_eq]
    simp only [h.mem_held]
  have hleast : ∀ {register : Nat} {next : Pool},
      ledger.pool.acquire? = some (register, next) →
        IsLeast {register | register < limit ∧ register ∉ held ledger.events} register := by
    intro register next hacquire
    simpa only [h.limit_eq, h.mem_held] using Pool.isLeast_acquire? hacquire
  refine ⟨fun _ ↦ mem_held_iff ledger.events, fun register ↦ ?_, hrefuses, ?_, h.peak⟩
  · cases hacquire : ledger.pool.acquire? with
    | none =>
      refine iff_of_false (by simp) fun hregister ↦ ?_
      exact hregister.1.2 (hrefuses.mp hacquire register hregister.1.1)
    | some found =>
      rw [Option.map_some, Option.some.injEq]
      constructor
      · rintro rfl
        exact hleast hacquire
      · exact fun hregister ↦ (hleast hacquire).unique hregister
  · have heq : (loans ledger.events).toFinset = Finset.range ledger.pool.used := by
      ext register
      simp [h.mem_loans]
    rw [heq, Finset.card_range]

/-! ### The monotonic strategy -/

/-- Whether a pool of the monotonic strategy agrees with what happened to it. -/
structure Ascending (limit : Nat) (ledger : Ledger) : Prop where
  strategy_eq : ledger.pool.strategy = .monotonic
  limit_eq : ledger.pool.limit = limit
  loans_eq : (loans ledger.events).reverse = List.range ledger.pool.used

namespace Ascending

variable {limit : Nat} {ledger : Ledger}

theorem length_loans (h : ledger.Ascending limit) :
    (loans ledger.events).length = ledger.pool.used := by
  simpa using congrArg List.length h.loans_eq

/-- A request keeps pool and history in agreement. -/
theorem serve (h : ledger.Ascending limit) (request : Request) :
    (ledger.serve request).Ascending limit := by
  obtain ⟨hstrategy, hlimit⟩ := sameSettings_serve ledger request
  refine ⟨hstrategy.trans h.strategy_eq, hlimit.trans h.limit_eq, ?_⟩
  cases request with
  | acquire =>
    unfold Ledger.serve
    cases hacquire : ledger.pool.acquire? with
    | none => exact h.loans_eq
    | some found =>
      obtain ⟨hregister, hused⟩ := Pool.acquire?_of_monotonic h.strategy_eq hacquire
      show (found.1 :: loans ledger.events).reverse = List.range found.2.used
      rw [List.reverse_cons, h.loans_eq, hregister, hused, List.range_succ]
  | release register =>
    show (loans ledger.events).reverse = List.range (ledger.pool.release register).used
    rw [Pool.used_release, h.loans_eq]
  | reset => rfl

end Ascending

theorem ascending_after (limit : Nat) (requests : List Request) :
    (after .monotonic limit requests).Ascending limit :=
  keeps_after (Ascending limit) ⟨rfl, rfl, rfl⟩ (fun _ request h ↦ h.serve request) requests

/-- Whether a pool hands out registers in order from zero on, none of them twice, and refuses if and
only if it has handed out as many as there are. -/
structure CountsUp (limit : Nat) (ledger : Ledger) : Prop where
  in_order : (loans ledger.events).reverse = List.range (loans ledger.events).length
  nodup : (loans ledger.events).Nodup
  acquires : ∀ register, ledger.pool.acquire?.map Prod.fst = some register ↔
    register = (loans ledger.events).length ∧ register < limit
  refuses : ledger.pool.acquire? = none ↔ (loans ledger.events).length = limit

theorem Ascending.countsUp {limit : Nat} {ledger : Ledger} (h : ledger.Ascending limit) :
    ledger.CountsUp limit := by
  have hlength := h.length_loans
  have hle := ledger.pool.used_le
  rw [h.limit_eq] at hle
  refine ⟨hlength ▸ h.loans_eq, ?_, fun register ↦ ?_, ?_⟩
  · rw [← List.nodup_reverse, h.loans_eq]
    exact List.nodup_range
  · cases hacquire : ledger.pool.acquire? with
    | none =>
      have hused := (Pool.used_of_acquire?_eq_none hacquire).2
      rw [h.limit_eq] at hused
      refine iff_of_false (by simp) ?_
      omega
    | some found =>
      obtain ⟨hregister, hused⟩ := Pool.acquire?_of_monotonic h.strategy_eq hacquire
      have hroom := found.2.used_le
      rw [(Pool.acquire?_cases hacquire).2.1, h.limit_eq] at hroom
      rw [Option.map_some, Option.some.injEq]
      omega
  · cases hacquire : ledger.pool.acquire? with
    | none =>
      have hused := (Pool.used_of_acquire?_eq_none hacquire).2
      rw [h.limit_eq] at hused
      exact iff_of_true rfl (hlength.trans hused)
    | some found =>
      obtain ⟨-, hused⟩ := Pool.acquire?_of_monotonic h.strategy_eq hacquire
      have hroom := found.2.used_le
      rw [(Pool.acquire?_cases hacquire).2.1, h.limit_eq] at hroom
      refine iff_of_false (by simp) ?_
      omega

/-! ### Both strategies -/

/-- The number of registers stays what it was. -/
theorem limit_after (strategy : Strategy) (limit : Nat) (requests : List Request) :
    (after strategy limit requests).pool.limit = limit :=
  keeps_after (fun ledger ↦ ledger.pool.limit = limit) rfl
    (fun ledger request h ↦ (sameSettings_serve ledger request).2.trans h) requests

/-- Whether the counter of a pool is within a limit, and does not wrap in 16 bits when it goes up
from below the limit. -/
structure Contained (limit : UInt16) (ledger : Ledger) : Prop where
  used_le : ledger.pool.used ≤ limit.toNat
  toNat_succ : UInt16.ofNat ledger.pool.used < limit →
    (UInt16.ofNat ledger.pool.used + 1).toNat = ledger.pool.used + 1

theorem contained_after (strategy : Strategy) (limit : UInt16) (requests : List Request) :
    (after strategy limit.toNat requests).Contained limit := by
  have hle := (after strategy limit.toNat requests).pool.used_le
  rw [limit_after] at hle
  refine ⟨hle, fun hroom ↦ ?_⟩
  have hlimit := limit.toNat_lt
  have hcounter := UInt16.toNat_ofNat_of_lt' (Nat.lt_of_le_of_lt hle hlimit)
  rw [UInt16.lt_iff_toNat_lt, hcounter] at hroom
  rw [UInt16.toNat_add, hcounter]
  exact Nat.mod_eq_of_lt (Nat.lt_of_le_of_lt hroom hlimit)

/-- After any requests to a pool of any number of registers that 16 bits can hold: under the
free-list strategy the pool hands out the least register that is not held, and under the monotonic
strategy it counts up. Under both, the counter stays within the limit and does not wrap. -/
theorem refines_after (limit : UInt16) (requests : List Request) :
    (after .freeList limit.toNat requests).LendsLeast limit.toNat ∧
      (after .monotonic limit.toNat requests).CountsUp limit.toNat ∧
      ∀ strategy, (after strategy limit.toNat requests).Contained limit :=
  ⟨(faithful_after _ requests).lendsLeast, (ascending_after _ requests).countsUp,
    fun strategy ↦ contained_after strategy limit requests⟩

/-- A register that was given back twice is handed out once, and one that was never handed out is
not taken back. -/
example : (after .freeList 2
    [.acquire, .acquire, .release 0, .release 0, .release 7, .acquire, .acquire]).events =
      [.refused, .lent 0, .returned 7, .returned 0, .returned 0, .lent 1, .lent 0] := by
  decide

end Ledger

end StraightWasm.Machine
