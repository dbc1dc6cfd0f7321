import StraightWasm.Proofs.Bytes.Forms

/-!
# Input that is cut short

A reader is frugal if no byte behind those that it takes has a say in what it does
(`Reader.Frugal`). With other bytes behind them it does the same, and if the input ends before the
last of them it runs out: it fails for want of input and for no other reason (`Reader.RunsOut`). An
integer is frugal because every byte but its last one announces another (`Leb128.decode_take_lt`),
and a sequence of frugal readers is frugal (`Reader.Frugal.bind`).

Reading items to the end is not frugal. Where it reads items in a row, a cut between two of them
leaves a row of the items in front of the cut, and any other cut makes it run out
(`Reader.row_take`).
-/

set_option autoImplicit false
set_option relaxedAutoImplicit false

namespace StraightWasm

variable {α β : Type}

/-! ### Integers -/

namespace Leb128

variable {sign : Signedness} {width : Nat} {bytes : List UInt8} {decoded : Decoded}

/-- What stands behind an integer does not matter for it. -/
theorem decode_take_append (h : decode sign width bytes = .ok decoded) (rest : List UInt8) :
    decode sign width (bytes.take decoded.size ++ rest) = .ok decoded := by
  induction bytes generalizing width decoded with
  | nil => simp [decode] at h
  | cons byte others ih =>
    by_cases hlast : byte.toNat < 128
    · obtain ⟨hfits, rfl⟩ := (decode_cons_of_lt hlast).mp h
      exact (decode_cons_of_lt hlast).mpr ⟨hfits, rfl⟩
    · have hmore : 128 ≤ byte.toNat := Nat.le_of_not_lt hlast
      obtain ⟨hwidth, high, hhigh, rfl⟩ := (decode_cons_of_le hmore).mp h
      exact (decode_cons_of_le hmore).mpr ⟨hwidth, high, ih hhigh, rfl⟩

/-- An integer whose last byte is missing is truncated. -/
theorem decode_take_lt (h : decode sign width bytes = .ok decoded) {count : Nat}
    (hcount : count < decoded.size) : decode sign width (bytes.take count) = .error .truncated := by
  induction bytes generalizing width decoded count with
  | nil => simp [decode] at h
  | cons byte others ih =>
    by_cases hzero : count = 0
    · rw [hzero, List.take_zero, decode]
    · obtain ⟨shorter, rfl⟩ := Nat.exists_eq_succ_of_ne_zero hzero
      by_cases hlast : byte.toNat < 128
      · -- A byte that does not continue is all there is of its integer.
        obtain ⟨-, rfl⟩ := (decode_cons_of_lt hlast).mp h
        exact absurd (Nat.lt_one_iff.mp hcount) hzero
      · have hmore : 128 ≤ byte.toNat := Nat.le_of_not_lt hlast
        obtain ⟨hwidth, high, hhigh, rfl⟩ := (decode_cons_of_le hmore).mp h
        have htail := ih hhigh (Nat.lt_of_succ_lt_succ hcount)
        rw [List.take_succ_cons, decode, if_neg hlast, if_neg (Nat.not_lt.mpr hwidth), htail]
        rfl

end Leb128

namespace Reader

/-! ### Frugal readers -/

/-- Whether a run fails because the input ends. -/
def RunsOut (run : EStateM.Result Diagnostic Span α) : Prop :=
  ∃ place needed stop, run = .error (.endOfInput place needed) stop

/-- Whether a reader that succeeds has looked at the bytes that it took and at nothing else: it does
the same with other bytes behind them, and it runs out if the input ends before the last of them. -/
def Frugal (reader : Reader α) : Prop :=
  ∀ before value after, reader before = .ok value after → ∃ taken, before.Passes taken after ∧
    (∀ rest, reader { offset := before.offset, bytes := taken ++ rest } =
      .ok value { offset := before.offset + taken.length, bytes := rest }) ∧
    ∀ count < taken.length,
      RunsOut (reader { offset := before.offset, bytes := taken.take count })

theorem RunsOut.bind {first : Reader α} {span : Span} (h : RunsOut (first span))
    (second : α → Reader β) : RunsOut ((first >>= second) span) := by
  obtain ⟨place, needed, stop, hrun⟩ := h
  exact ⟨place, needed, stop, Success.bind_error_iff.mpr (.inl hrun)⟩

/-- A reader that takes nothing and never looks at the bytes. -/
theorem frugal_of_idle {reader : Reader α}
    (h : ∀ before value after, reader before = .ok value after →
      after = before ∧ ∀ bytes, reader { offset := before.offset, bytes := bytes } =
        .ok value { offset := before.offset, bytes := bytes }) : reader.Frugal := by
  intro before value after hrun
  obtain ⟨rfl, hsame⟩ := h before value after hrun
  exact ⟨[], Span.passes_nil_iff.mpr rfl, hsame, fun count hcount ↦ absurd hcount (by simp)⟩

theorem frugal_pure (value : α) : Frugal (pure value) := by
  apply frugal_of_idle
  intro before found after hrun
  obtain ⟨rfl, rfl⟩ := Success.pure_iff.mp hrun
  exact ⟨rfl, fun bytes ↦ rfl⟩

theorem frugal_offset : Frugal offset := by
  apply frugal_of_idle
  intro before found after hrun
  cases hrun
  exact ⟨rfl, fun bytes ↦ rfl⟩

theorem frugal_fail (diagnostic : Diagnostic) : Frugal (fail diagnostic : Reader α) := by
  intro before value after hrun
  cases hrun

theorem frugal_malformed (offset : Nat) (cause : Malformation) :
    Frugal (malformed offset cause : Reader α) :=
  frugal_fail _

theorem frugal_inside (inner : Reader α) (window : Span) : Frugal (inside inner window) := by
  apply frugal_of_idle
  intro before found after hrun
  unfold inside at hrun ⊢
  cases hinner : inner window with
  | ok value left =>
    rw [hinner] at hrun
    cases hrun
    exact ⟨rfl, fun bytes ↦ rfl⟩
  | error failure stop =>
    rw [hinner] at hrun
    cases hrun

theorem take_of_length_lt {count : Nat} {span : Span} (h : span.length < count) :
    take count span = .error (.endOfInput span.offset (count - span.length)) span := by
  rw [take, Span.take?_eq, if_neg (Nat.not_le.mpr h)]

theorem frugal_take (count : Nat) : Frugal (take count) := by
  intro before value after hrun
  obtain ⟨taken, ⟨rfl, hlength⟩, hpasses⟩ := (reads_take count before value after).mp hrun
  refine ⟨taken, hpasses, fun rest ↦ ?_, fun fewer hfewer ↦ ?_⟩
  · exact (reads_take count _ _ _).mpr ⟨taken, ⟨rfl, hlength⟩, rfl, rfl⟩
  · have hshort : (taken.take fewer).length < count := by
      rw [List.length_take]
      omega
    exact ⟨_, _, _, @take_of_length_lt count ⟨before.offset, taken.take fewer⟩ hshort⟩

theorem frugal_byte : Frugal byte := by
  intro before value after hrun
  obtain ⟨_, rfl, hpasses⟩ := (reads_byte before value after).mp hrun
  refine ⟨[value], hpasses, fun rest ↦ rfl, fun fewer hfewer ↦ ?_⟩
  obtain rfl : fewer = 0 := Nat.lt_one_iff.mp hfewer
  exact ⟨before.offset, 1, _, rfl⟩

theorem frugal_integer (sign : Signedness) (bits : Nat) : Frugal (integer sign bits) := by
  intro before value after hrun
  unfold integer at hrun
  cases hdecode : Leb128.decode sign bits before.bytes with
  | error fault =>
    rw [hdecode] at hrun
    cases hrun
  | ok decoded =>
    rw [hdecode] at hrun
    cases hrun
    have hlength : (before.bytes.take decoded.size).length = decoded.size :=
      List.length_take_of_le (Leb128.size_of_decode hdecode).2
    have hpasses := Span.passes_advance (List.take_append_drop decoded.size before.bytes).symm
    rw [hlength] at hpasses
    refine ⟨before.bytes.take decoded.size, hpasses, fun rest ↦ ?_, fun fewer hfewer ↦ ?_⟩
    · have hdrop : (before.bytes.take decoded.size ++ rest).drop decoded.size = rest := by
        rw [List.drop_append, hlength, Nat.sub_self, List.drop_of_length_le (Nat.le_of_eq hlength)]
        rfl
      simp only [integer, Leb128.decode_take_append hdecode rest, Span.advance, hdrop, hlength]
    · have hfew : fewer < decoded.size := hlength ▸ hfewer
      rw [List.take_take, Nat.min_eq_left (Nat.le_of_lt hfew)]
      refine ⟨before.offset + (before.bytes.take fewer).length, 1,
        { offset := before.offset, bytes := before.bytes.take fewer }, ?_⟩
      simp only [integer, Leb128.decode_take_lt hdecode hfew]
      rfl

theorem Frugal.bind {first : Reader α} {second : α → Reader β} (hfirst : first.Frugal)
    (hsecond : ∀ value, (second value).Frugal) : (first >>= second).Frugal := by
  intro before result after hrun
  obtain ⟨value, middle, hvalue, hresult⟩ := Success.bind_iff.mp hrun
  obtain ⟨front, hfront, hfrontSame, hfrontCut⟩ := hfirst before value middle hvalue
  obtain ⟨back, hback, hbackSame, hbackCut⟩ := hsecond value middle result after hresult
  rw [hfront.offset_eq] at hbackSame hbackCut
  refine ⟨front ++ back, Span.passes_append_iff.mpr ⟨middle, hfront, hback⟩, fun rest ↦ ?_,
    fun count hcount ↦ ?_⟩
  · rw [List.append_assoc, List.length_append, ← Nat.add_assoc]
    exact Success.bind_iff.mpr ⟨value, _, hfrontSame _, hbackSame rest⟩
  · by_cases hcut : count < front.length
    · rw [List.take_append_of_le_length (Nat.le_of_lt hcut)]
      exact (hfrontCut count hcut).bind second
    · have hle : front.length ≤ count := Nat.le_of_not_lt hcut
      rw [List.length_append] at hcount
      rw [List.take_append, List.take_of_length_le hle]
      rw [Success.bind_of_ok (hfrontSame _)]
      exact hbackCut _ (by omega)

theorem Frugal.map {reader : Reader α} (h : reader.Frugal) (f : α → β) : (f <$> reader).Frugal := by
  rw [← bind_pure_comp]
  exact h.bind fun value ↦ frugal_pure (f value)

theorem Frugal.ite {condition : Prop} [Decidable condition] {first second : Reader α}
    (hfirst : first.Frugal) (hsecond : second.Frugal) :
    Frugal (if condition then first else second) := by
  split_ifs
  · exact hfirst
  · exact hsecond

theorem frugal_unsigned (bits : Nat) : Frugal (unsigned bits) :=
  (frugal_integer .unsigned bits).map Int.toNat

theorem frugal_word (size : Nat) : Frugal (word size) :=
  (frugal_take size).map littleEndian

theorem frugal_window (count : Nat) : Frugal (window count) :=
  frugal_offset.bind fun _ ↦ (frugal_take count).bind fun _ ↦ frugal_pure _

theorem frugal_expect (meaning : UInt8 → Option α) (cause : UInt8 → Malformation) :
    Frugal (expect meaning cause) := by
  refine frugal_offset.bind fun place ↦ frugal_byte.bind fun found ↦ ?_
  cases meaning found with
  | some value => exact frugal_pure value
  | none => exact frugal_malformed place (cause found)

/-- That a reader takes nothing if it fails has no say in what it does if it succeeds. -/
theorem Frugal.atomic {reader : Reader α} (h : reader.Frugal) : (atomic reader).Frugal := by
  have hok : ∀ {span value after}, reader span = .ok value after →
      Reader.atomic reader span = .ok value after := by
    intro span value after hrun
    rw [Reader.atomic, hrun]
  intro before value after hrun
  have hreader : reader before = .ok value after := by
    rw [Reader.atomic] at hrun
    split at hrun
    · cases hrun
      assumption
    · cases hrun
  obtain ⟨taken, hpasses, hsame, hcut⟩ := h before value after hreader
  refine ⟨taken, hpasses, fun rest ↦ hok (hsame rest), fun count hcount ↦ ?_⟩
  obtain ⟨place, needed, stop, hout⟩ := hcut count hcount
  exact ⟨place, needed, _, by rw [Reader.atomic, hout]⟩

theorem frugal_sizedBytes : Frugal sizedBytes :=
  ((frugal_unsigned 32).bind frugal_take).atomic

theorem frugal_iterate {step : α → Reader α} (h : ∀ value, (step value).Frugal) (count : Nat) :
    ∀ value, (iterate step count value).Frugal := by
  induction count with
  | zero => exact fun value ↦ frugal_pure value
  | succ count ih => exact fun value ↦ (h value).bind ih

theorem Frugal.vector {item : Reader α} (h : item.Frugal) : (vector item).Frugal :=
  (frugal_unsigned 32).bind fun count ↦
    (frugal_iterate (fun found ↦ h.map (· :: found)) count []).map List.reverse

/-! ### Reading to the end -/

section UntilEnd

variable {item : Reader α} {form : Form α}
  (shrinks : ∀ {before after : Span} {value : α}, item before = .ok value after →
    after.bytes.length < before.bytes.length)

theorem untilEnd_of_ok {span next : Span} {value : α} (h : item span = .ok value next)
    (found : List α) : untilEnd item shrinks found span =
      untilEnd item shrinks (value :: found) next := by
  have hbytes : ¬ span.isEmpty = true := by
    intro hempty
    have hlt := shrinks h
    rw [List.isEmpty_iff.mp hempty] at hlt
    exact Nat.not_lt_zero _ hlt
  rw [untilEnd, if_neg hbytes]
  split <;> simp_all

theorem runsOut_untilEnd {span : Span} (hbytes : span.bytes ≠ []) (h : RunsOut (item span))
    (found : List α) : RunsOut (untilEnd item shrinks found span) := by
  obtain ⟨place, needed, stop, hrun⟩ := h
  refine ⟨place, needed, stop, ?_⟩
  have hnonempty : ¬ span.isEmpty = true := fun hempty ↦ hbytes (List.isEmpty_iff.mp hempty)
  rw [untilEnd, if_neg hnonempty]
  split <;> simp_all

/-- Cutting a row of items either leaves a row of the items in front of the cut and a row of those
behind it, or makes reading to the end run out. -/
theorem row_take (hreads : item.Reads form) (hfrugal : item.Frugal) {offset : Nat}
    {values : List α} {bytes : List UInt8} (h : Form.Row form offset values bytes) :
    ∀ {count : Nat}, count ≤ bytes.length →
      (∃ front back, values = front ++ back ∧ Form.Row form offset front (bytes.take count) ∧
        Form.Row form (offset + count) back (bytes.drop count)) ∨
      ∀ found, RunsOut (untilEnd item shrinks found
        { offset := offset, bytes := bytes.take count }) := by
  induction h with
  | nil offset =>
    intro count hcount
    obtain rfl : count = 0 := Nat.le_zero.mp hcount
    exact .inl ⟨[], [], rfl, .nil offset, .nil offset⟩
  | @cons offset value rest piece bytes first others ih =>
    intro count hcount
    have hrun : ∀ behind, item { offset := offset, bytes := piece ++ behind } =
        .ok value { offset := offset + piece.length, bytes := behind } :=
      fun behind ↦ (hreads _ _ _).mpr ⟨piece, first, rfl, rfl⟩
    by_cases hcut : count < piece.length
    · rw [List.take_append_of_le_length (Nat.le_of_lt hcut)]
      by_cases hzero : count = 0
      · subst hzero
        exact .inl ⟨[], value :: rest, rfl, .nil offset, .cons first others⟩
      · -- The cut goes through the first item.
        have hwhole := hrun []
        rw [List.append_nil] at hwhole
        obtain ⟨taken, hpasses, -, hshort⟩ := hfrugal _ _ _ hwhole
        obtain rfl : piece = taken := by simpa using hpasses.bytes_eq
        have hnonempty : piece.take count ≠ [] := by
          rw [Ne, List.take_eq_nil_iff, ← List.length_eq_zero_iff]
          omega
        exact .inr fun found ↦ runsOut_untilEnd shrinks hnonempty (hshort count hcut) found
    · -- The first item is in front of the cut, so the cut goes through the others.
      have hle : piece.length ≤ count := Nat.le_of_not_lt hcut
      rw [List.length_append] at hcount
      rw [List.take_append, List.drop_append, List.take_of_length_le hle,
        List.drop_of_length_le hle, List.nil_append]
      obtain ⟨front, back, hsplit, hfront, hback⟩ | hout :=
        @ih (count - piece.length) (by omega)
      · rw [Nat.add_assoc, Nat.add_sub_cancel' hle] at hback
        exact .inl ⟨value :: front, back, by rw [hsplit, List.cons_append], .cons first hfront,
          hback⟩
      · refine .inr fun found ↦ ?_
        rw [untilEnd_of_ok shrinks (hrun _)]
        exact hout (value :: found)

end UntilEnd

end Reader

end StraightWasm
