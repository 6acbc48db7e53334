import ThresholdSigning.Deadline

namespace ThresholdSigning

theorem Duration.inNanos_ofSecs (secs : Nat) :
    (Duration.ofSecs secs).inNanos = Deadline.nanosOf (1000 * secs) := by
  simp only [Duration.inNanos, Duration.ofSecs, Deadline.nanosOf]
  omega

theorem Duration.inNanos_ofMillis (millis : Nat) :
    (Duration.ofMillis millis).inNanos = Deadline.nanosOf millis := by
  simp only [Duration.inNanos, Duration.ofMillis, Deadline.nanosOf]
  omega

namespace Deadline

variable {now : Nat} {timeout : Duration} {d deadline : Deadline}

theorem nanosOf_add (millis more : Nat) : nanosOf (millis + more) = nanosOf millis + nanosOf more :=
  Nat.mul_add _ _ _

theorem nanosOf_le_iff {millis later : Nat} : nanosOf millis ≤ nanosOf later ↔ millis ≤ later :=
  Nat.mul_le_mul_left_iff (by decide)

theorem nanosOf_lt_iff {millis later : Nat} : nanosOf millis < nanosOf later ↔ millis < later :=
  Nat.mul_lt_mul_left (by decide)

/-- No moment between two milliseconds is taken for the first of them. -/
theorem millisFrom_le_iff {nanos millis : Nat} :
    millisFrom nanos ≤ millis ↔ nanos ≤ nanosOf millis := by
  unfold millisFrom nanosOf
  omega

theorem millisFrom_nanosOf (millis : Nat) : millisFrom (nanosOf millis) = millis := by
  unfold millisFrom nanosOf
  omega

theorem tick_eq (d : Deadline) (moment : Nat) :
    d.tick moment = { d with cancelled := d.cancelled || decide (d.expiresAt ≤ moment) } := by
  simp only [tick, tickNanos, expiresAt, millisFrom_le_iff]

/-- In whole milliseconds, work is cut off at the first of them at which the time is up. -/
theorem run_eq {α : Type} (d : Deadline) (now work : Nat) (value : α) :
    d.run now work value =
      if d.cancelled then ⟨none, false, now, d⟩
      else if d.expiry < nanosOf (now + work) then
        ⟨none, true, d.expiresAt, { d with cancelled := true }⟩
      else ⟨some value, true, now + work, d⟩ := by
  rw [run, runNanos, ← nanosOf_add]
  split
  next => rw [millisFrom_nanosOf]
  next =>
    split
    next => rfl
    next => rw [millisFrom_nanosOf]

/-- The clock has no moment for the end of the timeout. -/
def Overflows (now : Nat) (timeout : Duration) : Prop := clockLimit ≤ expirySecs now timeout

/-- Whole seconds lose nothing: the exact sum of what has passed and what is added is past the
clock's end. -/
theorem overflows_iff :
    Overflows now timeout ↔ 1000000000 * clockLimit ≤ nanosOf now + timeout.inNanos := by
  unfold Overflows expirySecs nanosOf Duration.inNanos
  omega

theorem overflows_ofSecs_iff {secs : Nat} :
    Overflows now (.ofSecs secs) ↔ clockLimit ≤ now / 1000 + secs := by
  rw [overflows_iff, Duration.inNanos_ofSecs, nanosOf, nanosOf]
  omega

theorem start?_eq_none_iff : start? now timeout = none ↔ Overflows now timeout := by
  unfold start? Overflows
  split
  next hroom => simpa using hroom
  next hfull => simpa using hfull

theorem start?_eq_some_iff :
    start? now timeout = some deadline ↔
      ¬ Overflows now timeout ∧
        deadline = ⟨timeout, nanosOf now + timeout.inNanos, false⟩ := by
  unfold start? Overflows
  split
  next hroom =>
    constructor
    · rintro ⟨⟩
      exact ⟨Nat.not_le.mpr hroom, rfl⟩
    · rintro ⟨-, rfl⟩
      rfl
  next hfull =>
    constructor
    · rintro ⟨⟩
    · rintro ⟨hroom, -⟩
      exact absurd (Nat.not_lt.mp hfull) hroom

/-- Whether the time is up by some millisecond is a matter of the exact timeout. -/
theorem expiresAt_le_iff_of_start? (h : start? now timeout = some deadline) {elapsed : Nat} :
    deadline.expiresAt ≤ now + elapsed ↔ timeout.inNanos ≤ nanosOf elapsed := by
  obtain ⟨-, rfl⟩ := start?_eq_some_iff.mp h
  rw [expiresAt, millisFrom_le_iff, nanosOf_add]
  exact Nat.add_le_add_iff_left

end Deadline

end ThresholdSigning
