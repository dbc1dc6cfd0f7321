import Mathlib.Data.List.Forall2

/-!
# Computations that succeed

Readers, lowerings, emissions and sessions are computations on a state that may fail. A successful
run of a sequence of steps decomposes into successful runs of the steps (`Success.bind_iff`), and a
successful run of a loop into successful runs of its rounds: a property of the state that every
round keeps is kept by the loop (`Success.forM_keeps`), and a loop that collects results pairs each
item with the result of its own round (`Success.forall₂_of_mapM`).

A run that fails has failed in one of its steps (`Success.bind_error_iff`) or rounds
(`Success.exists_of_mapM_error`). Where both ends of a run matter, `Success.Ends` states one
property for success and one for failure.
-/

set_option autoImplicit false
set_option relaxedAutoImplicit false

namespace StraightWasm.Success

variable {ε σ α β : Type}

theorem bind_iff {first : EStateM ε σ α} {second : α → EStateM ε σ β} {before after : σ}
    {result : β} :
    (first >>= second) before = .ok result after ↔
      ∃ value middle, first before = .ok value middle ∧ second value middle = .ok result after := by
  change EStateM.bind first second before = _ ↔ _
  unfold EStateM.bind
  cases hfirst : first before with
  | ok value middle => simp
  | error failure stop => simp

/-- A sequence fails in its first step or behind it. -/
theorem bind_error_iff {first : EStateM ε σ α} {second : α → EStateM ε σ β} {before stop : σ}
    {failure : ε} :
    (first >>= second) before = .error failure stop ↔
      first before = .error failure stop ∨
        ∃ value middle, first before = .ok value middle ∧
          second value middle = .error failure stop := by
  change EStateM.bind first second before = _ ↔ _
  unfold EStateM.bind
  cases hfirst : first before with
  | ok value middle => simp
  | error found halt => simp

/-- A sequence goes on from where its first step leads. -/
theorem bind_of_ok {first : EStateM ε σ α} {second : α → EStateM ε σ β} {before middle : σ}
    {value : α} (h : first before = .ok value middle) :
    (first >>= second) before = second value middle := by
  show EStateM.bind first second before = _
  unfold EStateM.bind
  rw [h]

theorem pure_iff {value result : α} {before after : σ} :
    (pure value : EStateM ε σ α) before = .ok result after ↔ value = result ∧ before = after := by
  change EStateM.Result.ok value before = _ ↔ _
  simp

theorem except_bind_iff {first : Except ε α} {second : α → Except ε β} {result : β} :
    first >>= second = .ok result ↔ ∃ value, first = .ok value ∧ second value = .ok result := by
  cases first with
  | ok value => simp [bind, Except.bind]
  | error failure => simp [bind, Except.bind]

theorem except_bind_error_iff {first : Except ε α} {second : α → Except ε β} {failure : ε} :
    first >>= second = .error failure ↔
      first = .error failure ∨ ∃ value, first = .ok value ∧ second value = .error failure := by
  cases first with
  | ok value => simp [bind, Except.bind]
  | error found => simp [bind, Except.bind]

/-- Whether a run succeeds. -/
def succeeds : EStateM.Result ε σ α → Bool
  | .ok _ _ => true
  | .error _ _ => false

theorem exists_of_succeeds {run : EStateM.Result ε σ α} (h : succeeds run = true) :
    ∃ value after, run = .ok value after := by
  cases run with
  | ok value after => exact ⟨value, after, rfl⟩
  | error failure stop => cases h

/-- The value of a run that succeeds. -/
def value? : EStateM.Result ε σ α → Option α
  | .ok value _ => some value
  | .error _ _ => none

theorem exists_of_value? {run : EStateM.Result ε σ α} {value : α} (h : value? run = some value) :
    ∃ after, run = .ok value after := by
  cases run with
  | ok found after =>
    cases h
    exact ⟨after, rfl⟩
  | error failure stop => cases h

/-- Whether a run ends as expected: if it succeeds, its value and the state that it reached are of
one kind, and if it fails, its failure is of another kind. -/
def Ends (Reached : α → σ → Prop) (Fault : ε → Prop) : EStateM.Result ε σ α → Prop
  | .ok value after => Reached value after
  | .error failure _ => Fault failure

theorem Ends.mono {Reached Reached' : α → σ → Prop} {Fault Fault' : ε → Prop}
    {run : EStateM.Result ε σ α} (h : Ends Reached Fault run)
    (hreached : ∀ value after, Reached value after → Reached' value after)
    (hfault : ∀ failure, Fault failure → Fault' failure) : Ends Reached' Fault' run := by
  cases run with
  | ok value after => exact hreached value after h
  | error failure stop => exact hfault failure h

/-- A sequence ends as expected if its first step does and what follows does from wherever the first
step leads. -/
theorem Ends.bind {Middle : α → σ → Prop} {Reached : β → σ → Prop} {Fault : ε → Prop}
    {first : EStateM ε σ α} {second : α → EStateM ε σ β} {before : σ}
    (hfirst : Ends Middle Fault (first before))
    (hsecond : ∀ value middle, Middle value middle → Ends Reached Fault (second value middle)) :
    Ends Reached Fault ((first >>= second) before) := by
  change Ends Reached Fault (EStateM.bind first second before)
  unfold EStateM.bind
  cases hrun : first before with
  | ok value middle =>
    rw [hrun] at hfirst
    exact hsecond value middle hfirst
  | error failure stop =>
    rw [hrun] at hfirst
    exact hfirst

/-- A loop ends as expected if every round does from a state of the expected kind. -/
theorem Ends.forM {step : α → EStateM ε σ PUnit} {Kept : σ → Prop} {Fault : ε → Prop}
    (items : List α)
    (hstep : ∀ item ∈ items, ∀ before, Kept before →
      Ends (fun _ after ↦ Kept after) Fault (step item before)) :
    ∀ before, Kept before → Ends (fun _ after ↦ Kept after) Fault (items.forM step before) := by
  induction items with
  | nil => exact fun before hbefore ↦ hbefore
  | cons item rest ih =>
    intro before hbefore
    refine Ends.bind (hstep item List.mem_cons_self before hbefore) fun _ middle hmiddle ↦ ?_
    exact ih (fun other hother ↦ hstep other (List.mem_cons_of_mem item hother)) middle hmiddle

/-- Two sequences have the same run if their first steps have and what follows agrees on every
success of the first step. -/
theorem bind_congr {first first' : EStateM ε σ α} {second second' : α → EStateM ε σ β} {before : σ}
    (hfirst : first before = first' before)
    (hsecond : ∀ value middle, first before = .ok value middle →
      second value middle = second' value middle) :
    (first >>= second) before = (first' >>= second') before := by
  change EStateM.bind first second before = EStateM.bind first' second' before
  unfold EStateM.bind
  rw [← hfirst]
  cases hrun : first before with
  | ok value middle => exact hsecond value middle hrun
  | error failure stop => rfl

/-- A property of the state that every round of a loop keeps is kept by the loop. -/
theorem forM_keeps {step : α → EStateM ε σ PUnit} (Kept : σ → Prop)
    (hstep : ∀ item before after, Kept before → step item before = .ok ⟨⟩ after → Kept after)
    (items : List α) :
    ∀ before after, Kept before → items.forM step before = .ok ⟨⟩ after → Kept after := by
  induction items with
  | nil =>
    intro before after hbefore hrun
    obtain ⟨-, rfl⟩ := pure_iff.mp hrun
    exact hbefore
  | cons item rest ih =>
    intro before after hbefore hrun
    obtain ⟨_, middle, hitem, hrest⟩ := bind_iff.mp hrun
    exact ih middle after (hstep item before middle hbefore hitem) hrest

/-- A loop over two lists in a row is a loop over the first and then one over the second. -/
theorem forM_append_iff {step : α → EStateM ε σ PUnit} {items others : List α}
    {before after : σ} :
    (items ++ others).forM step before = .ok ⟨⟩ after ↔
      ∃ middle, items.forM step before = .ok ⟨⟩ middle ∧
        others.forM step middle = .ok ⟨⟩ after := by
  have happend : (items ++ others).forM step =
      (do
        items.forM step
        others.forM step) := List.forM_append
  rw [happend, bind_iff]
  constructor
  · rintro ⟨_, middle, hitems, hothers⟩
    exact ⟨middle, hitems, hothers⟩
  · rintro ⟨middle, hitems, hothers⟩
    exact ⟨⟨⟩, middle, hitems, hothers⟩

/-- A loop that collects results pairs each item with a result of a run of its own. -/
theorem forall₂_of_mapM {round : α → EStateM ε σ β} (items : List α) :
    ∀ {results : List β} {before after : σ}, items.mapM round before = .ok results after →
      List.Forall₂ (fun item result ↦ ∃ earlier later, round item earlier = .ok result later)
        items results := by
  induction items with
  | nil =>
    intro results before after hrun
    rw [List.mapM_nil] at hrun
    obtain ⟨rfl, -⟩ := pure_iff.mp hrun
    exact .nil
  | cons item rest ih =>
    intro results before after hrun
    rw [List.mapM_cons] at hrun
    obtain ⟨result, middle, hitem, hrun⟩ := bind_iff.mp hrun
    obtain ⟨others, late, hrest, hrun⟩ := bind_iff.mp hrun
    obtain ⟨rfl, -⟩ := pure_iff.mp hrun
    exact .cons ⟨before, middle, hitem⟩ (ih hrest)

/-- A loop that collects results and fails does so in the first round that fails. -/
theorem exists_of_mapM_error {round : α → EStateM ε σ β} (Kept : σ → Prop)
    (hround : ∀ item before result after, Kept before → round item before = .ok result after →
      Kept after) (items : List α) :
    ∀ {before stop : σ} {failure : ε}, Kept before → items.mapM round before = .error failure stop →
      ∃ front item back results middle, items = front ++ item :: back ∧
        front.mapM round before = .ok results middle ∧ Kept middle ∧
        round item middle = .error failure stop := by
  induction items with
  | nil =>
    intro before stop failure _ hrun
    rw [List.mapM_nil] at hrun
    cases hrun
  | cons item rest ih =>
    intro before stop failure hbefore hrun
    rw [List.mapM_cons] at hrun
    obtain hitem | ⟨result, middle, hitem, hrun⟩ := bind_error_iff.mp hrun
    · exact ⟨[], item, rest, [], before, rfl, rfl, hbefore, hitem⟩
    obtain hrest | ⟨others, late, -, hrun⟩ := bind_error_iff.mp hrun
    · obtain ⟨front, other, back, results, late, rfl, hfront, hlate, hother⟩ :=
        ih (hround item before result middle hbefore hitem) hrest
      refine ⟨item :: front, other, back, result :: results, late, rfl, ?_, hlate, hother⟩
      rw [List.mapM_cons, bind_of_ok hitem, bind_of_ok hfront]
      rfl
    · cases hrun

/-- A loop that hands a value from round to round and fails does so in one of its rounds. -/
theorem exists_of_foldlM_error {round : β → α → EStateM ε σ β} (items : List α) :
    ∀ {value : β} {before stop : σ} {failure : ε},
      items.foldlM round value before = .error failure stop →
        ∃ item ∈ items, ∃ earlier middle, round earlier item middle = .error failure stop := by
  induction items with
  | nil =>
    intro value before stop failure hrun
    rw [List.foldlM_nil] at hrun
    cases hrun
  | cons item rest ih =>
    intro value before stop failure hrun
    rw [List.foldlM_cons] at hrun
    obtain hitem | ⟨later, middle, -, hrest⟩ := bind_error_iff.mp hrun
    · exact ⟨item, List.mem_cons_self, value, before, hitem⟩
    · obtain ⟨other, hother, hfails⟩ := ih hrest
      exact ⟨other, List.mem_cons_of_mem item hother, hfails⟩

/-- In two lists that are paired item by item, the item at a position has its partner there. -/
theorem getElem?_of_forall₂ {Paired : α → β → Prop} {items : List α} {results : List β}
    (h : List.Forall₂ Paired items results) {position : Nat} {item : α}
    (hitem : items[position]? = some item) :
    ∃ result, results[position]? = some result ∧ Paired item result := by
  obtain ⟨hposition, rfl⟩ := List.getElem?_eq_some_iff.mp hitem
  have hresult : position < results.length := h.length_eq ▸ hposition
  exact ⟨results[position], List.getElem?_eq_getElem hresult, h.get hposition hresult⟩

end StraightWasm.Success
