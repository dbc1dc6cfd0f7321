import StraightWasm.Bytes.Forward
import StraightWasm.Proofs.Success

/-!
# Answers and what they leave behind

A computation on a state answers with a value or a failure (`Success.answer`), and in either case it
leaves a state behind (`Success.residue`). Calls that are made one after the other on one state find
it as the earlier ones left it, also where these failed (`Success.answers`).

A computation preserves a kind of states if it leaves a state of that kind behind, whether it
succeeds or not (`Success.Preserves`). If it also answers alike from all states of the kind, it
repeats itself (`Success.Repeats`), and then no history of calls matters. Sequences and loops of
such computations do what their parts do on their own (`Success.Repeats.bind`,
`Success.Repeats.mapM`, `Success.Repeats.foldlM`), and the calls of a series answer as each of them
does alone (`Success.Repeats.answers_eq`).
-/

set_option autoImplicit false
set_option relaxedAutoImplicit false

namespace StraightWasm.Success

variable {ε σ α β : Type}

/-- What a run answers. -/
def answer : EStateM.Result ε σ α → Except ε α
  | .ok value _ => .ok value
  | .error failure _ => .error failure

/-- The answers to calls that are made one after the other, each on the state that the one before
left behind. -/
def answers : List (EStateM ε σ α) → σ → List (Except ε α)
  | [], _ => []
  | call :: rest, before => answer (call before) :: answers rest (residue (call before))

theorem answer_ok_iff {run : EStateM.Result ε σ α} {value : α} :
    answer run = .ok value ↔ ∃ after, run = .ok value after := by
  cases run with
  | ok found after => simp [answer]
  | error failure stop => simp [answer]

/-! ### Preserved kinds of states -/

/-- Whether a computation leaves a state of a kind behind when it starts in one. -/
def Preserves (Kept : σ → Prop) (action : EStateM ε σ α) : Prop :=
  ∀ before, Kept before → Kept (residue (action before))

section Preserved

variable {Kept : σ → Prop}

theorem preserves_pure (value : α) : Preserves Kept (pure value : EStateM ε σ α) :=
  fun _ h ↦ h

theorem preserves_throw (failure : ε) : Preserves Kept (throw failure : EStateM ε σ α) :=
  fun _ h ↦ h

theorem preserves_get : Preserves Kept (get : EStateM ε σ σ) :=
  fun _ h ↦ h

theorem preserves_modify {f : σ → σ} (h : ∀ state, Kept state → Kept (f state)) :
    Preserves Kept (modify f : EStateM ε σ PUnit) :=
  h

theorem Preserves.bind {first : EStateM ε σ α} {second : α → EStateM ε σ β}
    (hfirst : Preserves Kept first) (hsecond : ∀ value, Preserves Kept (second value)) :
    Preserves Kept (first >>= second) := by
  intro before hbefore
  have hmiddle := hfirst before hbefore
  change Kept (residue (EStateM.bind first second before))
  unfold EStateM.bind
  cases hrun : first before with
  | ok value middle =>
    rw [hrun] at hmiddle
    exact hsecond value middle hmiddle
  | error failure stop =>
    rw [hrun] at hmiddle
    exact hmiddle

theorem Preserves.ite {condition : Prop} [Decidable condition] {yes no : EStateM ε σ α}
    (hyes : Preserves Kept yes) (hno : Preserves Kept no) :
    Preserves Kept (if condition then yes else no) := by
  split_ifs
  · exact hyes
  · exact hno

theorem Preserves.forM {step : α → EStateM ε σ PUnit} (h : ∀ item, Preserves Kept (step item))
    (items : List α) : Preserves Kept (items.forM step) := by
  induction items with
  | nil => exact preserves_pure _
  | cons item rest ih => exact (h item).bind fun _ ↦ ih

end Preserved

/-! ### The same answer from every state of a kind -/

/-- Whether a computation gives one answer from all states of a kind and leaves a state of the kind
behind. -/
structure Repeats (Kept : σ → Prop) (action : EStateM ε σ α) (alone : Except ε α) : Prop where
  preserves : Preserves Kept action
  answer_eq : ∀ before, Kept before → answer (action before) = alone

namespace Repeats

variable {Kept : σ → Prop}

theorem pure (value : α) : Repeats Kept (Pure.pure value : EStateM ε σ α) (.ok value) :=
  ⟨preserves_pure value, fun _ _ ↦ rfl⟩

theorem bind {first : EStateM ε σ α} {second : α → EStateM ε σ β} {alone : Except ε α}
    {alone' : α → Except ε β} (hfirst : Repeats Kept first alone)
    (hsecond : ∀ value, Repeats Kept (second value) (alone' value)) :
    Repeats Kept (first >>= second) (alone >>= alone') := by
  refine ⟨hfirst.preserves.bind fun value ↦ (hsecond value).preserves, fun before hbefore ↦ ?_⟩
  have hmiddle := hfirst.preserves before hbefore
  rw [← hfirst.answer_eq before hbefore]
  change answer (EStateM.bind first second before) = _
  unfold EStateM.bind
  cases hrun : first before with
  | ok value middle =>
    rw [hrun] at hmiddle
    exact (hsecond value).answer_eq middle hmiddle
  | error failure stop => rfl

theorem mapM {round : α → EStateM ε σ β} {alone : α → Except ε β} (items : List α)
    (h : ∀ item, Repeats Kept (round item) (alone item)) :
    Repeats Kept (items.mapM round) (items.mapM alone) := by
  induction items with
  | nil =>
    rw [List.mapM_nil, List.mapM_nil]
    exact pure []
  | cons item rest ih =>
    rw [List.mapM_cons, List.mapM_cons]
    exact (h item).bind fun value ↦ ih.bind fun values ↦ pure (value :: values)

theorem foldlM {round : β → α → EStateM ε σ β} {alone : β → α → Except ε β} (items : List α)
    (h : ∀ value item, Repeats Kept (round value item) (alone value item)) :
    ∀ value, Repeats Kept (items.foldlM round value) (items.foldlM alone value) := by
  induction items with
  | nil => exact fun value ↦ pure value
  | cons item rest ih =>
    intro value
    rw [List.foldlM_cons, List.foldlM_cons]
    exact (h value item).bind ih

/-- The calls of a series answer as each of them does alone. -/
theorem answers_eq {round : α → EStateM ε σ β} {alone : α → Except ε β}
    (h : ∀ item, Repeats Kept (round item) (alone item)) (items : List α) :
    ∀ before, Kept before → answers (items.map round) before = items.map alone := by
  induction items with
  | nil => exact fun _ _ ↦ rfl
  | cons item rest ih =>
    intro before hbefore
    rw [List.map_cons, List.map_cons, answers, (h item).answer_eq before hbefore]
    rw [ih _ ((h item).preserves before hbefore)]

end Repeats

/-! ### Loops that collect results -/

/-- A loop succeeds if and only if each of its rounds does. -/
theorem except_mapM_ok_iff {round : α → Except ε β} (items : List α) :
    ∀ {results : List β}, items.mapM round = .ok results ↔
      List.Forall₂ (fun item result ↦ round item = .ok result) items results := by
  induction items with
  | nil =>
    intro results
    rw [List.mapM_nil, List.forall₂_nil_left_iff]
    exact ⟨fun h ↦ (Except.ok.inj h).symm, fun h ↦ congrArg Except.ok h.symm⟩
  | cons item rest ih =>
    intro results
    rw [List.mapM_cons, except_bind_iff, List.forall₂_cons_left_iff]
    constructor
    · rintro ⟨result, hitem, h⟩
      obtain ⟨others, hrest, h⟩ := except_bind_iff.mp h
      cases h
      exact ⟨result, others, hitem, ih.mp hrest, rfl⟩
    · rintro ⟨result, others, hitem, hrest, rfl⟩
      exact ⟨result, hitem, except_bind_iff.mpr ⟨others, ih.mpr hrest, rfl⟩⟩

/-- A loop that works the result of each round into a value collects the results first and works
them in then. -/
theorem except_foldlM_eq_map {γ : Type} {round : α → Except ε β} {work : γ → β → γ}
    (items : List α) : ∀ value : γ,
      (items.foldlM (fun value item ↦ do
        let result ← round item
        pure (work value result)) value) =
        (items.mapM round).map fun results ↦ results.foldl work value := by
  induction items with
  | nil =>
    intro value
    rw [List.mapM_nil]
    rfl
  | cons item rest ih =>
    intro value
    rw [List.foldlM_cons, List.mapM_cons]
    cases hitem : round item with
    | error failure => rfl
    | ok result =>
      refine (ih (work value result)).trans ?_
      cases hrest : rest.mapM round with
      | error failure => rfl
      | ok results => rfl

/-- A loop fails as the first of its rounds that fails. -/
theorem except_mapM_error_iff {round : α → Except ε β} (items : List α) :
    ∀ {failure : ε}, items.mapM round = .error failure ↔
      ∃ (position : Nat) (item : α), items[position]? = some item ∧ round item = .error failure ∧
        ∀ earlier < position, ∀ other, items[earlier]? = some other →
          ∃ result, round other = .ok result := by
  induction items with
  | nil =>
    intro failure
    rw [List.mapM_nil]
    refine iff_of_false (fun h ↦ nomatch h) ?_
    rintro ⟨position, item, hitem, -⟩
    simp at hitem
  | cons first rest ih =>
    intro failure
    rw [List.mapM_cons, except_bind_error_iff]
    constructor
    · rintro (hfirst | ⟨value, hfirst, h⟩)
      · exact ⟨0, first, rfl, hfirst, fun earlier hearlier ↦ absurd hearlier (Nat.not_lt_zero _)⟩
      obtain hrest | ⟨_, -, h⟩ := except_bind_error_iff.mp h
      · obtain ⟨position, item, hitem, hround, hearlier⟩ := ih.mp hrest
        refine ⟨position + 1, item, hitem, hround, fun earlier hlt other hother ↦ ?_⟩
        cases earlier with
        | zero =>
          cases hother
          exact ⟨value, hfirst⟩
        | succ earlier => exact hearlier earlier (Nat.lt_of_succ_lt_succ hlt) other hother
      · cases h
    · rintro ⟨position, item, hitem, hround, hearlier⟩
      cases position with
      | zero =>
        cases hitem
        exact .inl hround
      | succ position =>
        obtain ⟨value, hfirst⟩ := hearlier 0 (Nat.succ_pos position) first rfl
        have hrest : rest.mapM round = .error failure :=
          ih.mpr ⟨position, item, hitem, hround, fun earlier hlt other hother ↦
            hearlier (earlier + 1) (Nat.succ_lt_succ hlt) other hother⟩
        exact .inr ⟨value, hfirst, except_bind_error_iff.mpr (.inl hrest)⟩

end StraightWasm.Success
