import ThresholdSigning.Proofs.Deadline

namespace ThresholdSigning

/-- What is done one after the other while a deadline runs. -/
inductive Task (α : Type)
  /-- Work under the deadline, in nanoseconds, and what comes of it. -/
  | run (work : Nat) (value : α)
  /-- Time that passes whatever becomes of the deadline. -/
  | sleep (time : Nat)

/-- How long a task takes that nothing cuts short. -/
def Task.length {α : Type} : Task α → Nat
  | run work _ => work
  | sleep time => time

namespace Deadline

variable {α : Type} {d : Deadline} {now work expiry : Nat} {value : α} {polled : Bool}

/-- A deadline at some moment, in nanoseconds. -/
structure Standing where
  deadline : Deadline
  now : Nat

/-- A task with what came of it. -/
structure Turn (α : Type) where
  before : Standing
  task : Task α
  output : Option α
  polled : Bool
  after : Standing

def Standing.turn (x : Standing) : Task α → Turn α
  | .run work value =>
    let ended := x.deadline.runNanos x.now work value
    ⟨x, .run work value, ended.output, ended.polled, ⟨ended.deadline, ended.endedAt⟩⟩
  | .sleep time =>
    ⟨x, .sleep time, none, false, ⟨x.deadline.tickNanos (x.now + time), x.now + time⟩⟩

/-- Tasks in turn, each where the one before it has ended. -/
def Standing.turns (x : Standing) : List (Task α) → List (Turn α)
  | [] => []
  | task :: tasks => x.turn task :: (x.turn task).after.turns tasks

/-- Work and deadline against each other, a nanosecond at a time. The deadline is asked first at
every moment, and the work goes on only while it has not passed. -/
def race (d : Deadline) (value : α) (now : Nat) (polled : Bool) : Nat → TimedRun α
  | 0 => if d.isExpired then ⟨none, polled, now, d⟩ else ⟨some value, true, now, d⟩
  | work + 1 =>
    if d.isExpired then ⟨none, polled, now, d⟩
    else (d.tickNanos (now + 1)).race value (now + 1) true work

theorem race_of_expired (h : d.isExpired = true) :
    d.race value now polled work = ⟨none, polled, now, d⟩ := by
  cases work with
  | zero => simp only [race, h, if_true]
  | succ work => simp only [race, h, if_true]

/-- Before its expiry a timer does nothing. -/
theorem tickNanos_of_lt {moment : Nat} (h : moment < d.expiry) : d.tickNanos moment = d := by
  have hlater : decide (d.expiry ≤ moment) = false := decide_eq_false (Nat.not_le.mpr h)
  rw [tickNanos, hlater, Bool.or_false]

theorem tickNanos_of_le {moment : Nat} (h : d.expiry ≤ moment) :
    d.tickNanos moment = { d with cancelled := true } := by
  have hdue : decide (d.expiry ≤ moment) = true := decide_eq_true h
  rw [tickNanos, hdue, Bool.or_true]

/-- Whoever is ready first wins the race. -/
theorem race_of_live (hlive : d.isExpired = false) (hbefore : now < d.expiry)
    (hapart : now + work ≠ d.expiry) :
    d.race value now polled work =
      if d.expiry < now + work then ⟨none, true, d.expiry, { d with cancelled := true }⟩
      else ⟨some value, true, now + work, d⟩ := by
  induction work generalizing now polled with
  | zero =>
    rw [race, hlive, if_neg Bool.false_ne_true, if_neg (by omega), Nat.add_zero]
  | succ work ih =>
    rw [race, hlive, if_neg Bool.false_ne_true]
    by_cases hdue : d.expiry ≤ now + 1
    · have hnext : d.expiry = now + 1 := by omega
      have hover : d.expiry < now + (work + 1) := by omega
      rw [tickNanos_of_le hdue, race_of_expired rfl, if_pos hover, hnext]
    · have hlater : now + 1 < d.expiry := Nat.not_le.mp hdue
      rw [tickNanos_of_lt hlater, ih hlater (by omega), Nat.add_right_comm, Nat.add_assoc]

theorem runNanos_of_expired (h : d.isExpired = true) :
    d.runNanos now work value = ⟨none, false, now, d⟩ :=
  if_pos h

theorem runNanos_of_live (h : d.isExpired = false) :
    d.runNanos now work value =
      if d.expiry < now + work then ⟨none, true, d.expiry, { d with cancelled := true }⟩
      else ⟨some value, true, now + work, d⟩ :=
  if_neg (Bool.eq_false_iff.mp h)

theorem runNanos_of_done (h : d.isExpired = false) (hdone : now + work < d.expiry) (value : α) :
    d.runNanos now work value = ⟨some value, true, now + work, d⟩ := by
  rw [runNanos_of_live h, if_neg (Nat.lt_asymm hdone)]

theorem runNanos_of_overdue (h : d.isExpired = false) (hover : d.expiry < now + work) (value : α) :
    d.runNanos now work value = ⟨none, true, d.expiry, { d with cancelled := true }⟩ := by
  rw [runNanos_of_live h, if_pos hover]

/-- To run work is to let it race against the deadline, unless both are ready at once. -/
theorem runNanos_eq_race (hbefore : d.isExpired = false → now < d.expiry)
    (hapart : d.isExpired = false → now + work ≠ d.expiry) :
    d.runNanos now work value = d.race value now false work := by
  cases hexpired : d.isExpired with
  | true => rw [runNanos_of_expired hexpired, race_of_expired hexpired]
  | false =>
    rw [runNanos_of_live hexpired, race_of_live hexpired (hbefore hexpired) (hapart hexpired)]

/-- No task would end at the very moment at which the timer fires. -/
def Turn.Apart (turn : Turn α) : Prop :=
  turn.before.deadline.isExpired = false →
    turn.before.now + turn.task.length ≠ turn.before.deadline.expiry

/-- What becomes of a task under a deadline with a given expiry. -/
def Turn.Course (turn : Turn α) (expiry : Nat) : Prop :=
  match turn.task with
  | .sleep time => turn.after.now = turn.before.now + time
  | .run work value =>
    (turn.before.deadline.isExpired = false → turn.before.now + work < expiry →
      turn.output = some value ∧ turn.after.now = turn.before.now + work) ∧
    (turn.before.deadline.isExpired = false → expiry < turn.before.now + work →
      turn.output = none ∧ turn.after.now = expiry) ∧
    (turn.before.deadline.isExpired = true →
      turn.output = none ∧ turn.polled = false ∧ turn.after.now = turn.before.now) ∧
    ((turn.before.deadline.isExpired = false → turn.before.now < expiry) →
      TimedRun.mk turn.output turn.polled turn.after.now turn.after.deadline =
        turn.before.deadline.race value turn.before.now false work)

/-- The token against the clock: a deadline that has not expired is not overdue. -/
structure Standing.Punctual (x : Standing) (expiry : Nat) : Prop where
  fixed : x.deadline.expiry = expiry
  live : x.deadline.isExpired = false → x.now ≤ expiry
  expired : x.deadline.isExpired = true → expiry ≤ x.now

/-- What holds of a deadline with a given expiry around each task. -/
structure Turn.Keeps (turn : Turn α) (expiry : Nat) : Prop where
  fixed : turn.after.deadline.expiry = expiry
  expired_iff : turn.after.deadline.isExpired = true ↔ expiry ≤ turn.after.now
  stays : turn.before.deadline.isExpired = true → turn.after.deadline.isExpired = true
  live : turn.before.now < expiry → turn.before.deadline.isExpired = false
  course : turn.Course expiry
  dropped : ∀ moment later,
    ((turn.after.deadline.tickNanos moment).drop.tickNanos later).isExpired = true

variable {x : Standing}

theorem Standing.Punctual.live_of_lt (h : x.Punctual expiry) (hbefore : x.now < expiry) :
    x.deadline.isExpired = false := by
  cases hexpired : x.deadline.isExpired with
  | false => rfl
  | true => exact absurd (h.expired hexpired) (Nat.not_le.mpr hbefore)

theorem Turn.Keeps.punctual {turn : Turn α} (h : turn.Keeps expiry) :
    turn.after.Punctual expiry where
  fixed := h.fixed
  live hlive := by
    have hnever : ¬ expiry ≤ turn.after.now := by simp [← h.expired_iff, hlive]
    omega
  expired := h.expired_iff.mp

/-- The timer fires while one sleeps. -/
theorem Standing.Punctual.keeps_sleep (h : x.Punctual expiry) (time : Nat) :
    (x.turn (.sleep time : Task α)).Keeps expiry := by
  have hdue : (x.deadline.tickNanos (x.now + time)).isExpired = true ↔ expiry ≤ x.now + time := by
    rcases Nat.lt_or_ge (x.now + time) x.deadline.expiry with hearly | hdue
    · rw [tickNanos_of_lt hearly]
      constructor
      · intro hexpired
        exact Nat.le_add_right_of_le (h.expired hexpired)
      · intro hdue
        exact absurd (h.fixed ▸ hearly) (Nat.not_lt.mpr hdue)
    · rw [tickNanos_of_le hdue]
      exact ⟨fun _ => h.fixed ▸ hdue, fun _ => rfl⟩
  refine ⟨h.fixed, hdue, fun hexpired => ?_, h.live_of_lt, rfl, fun _ _ => rfl⟩
  exact hdue.mpr (Nat.le_add_right_of_le (h.expired hexpired))

/-- Work ends by itself, or with the deadline, or it is not begun. -/
theorem Standing.Punctual.keeps_run (h : x.Punctual expiry) {work : Nat} {value : α}
    (hapart : (x.turn (.run work value)).Apart) : (x.turn (.run work value)).Keeps expiry := by
  have hfixed := h.fixed
  subst hfixed
  have hraces (hbefore : x.deadline.isExpired = false → x.now < x.deadline.expiry) :
      x.deadline.runNanos x.now work value = x.deadline.race value x.now false work :=
    runNanos_eq_race hbefore hapart
  have hturn {ended : TimedRun α} (hended : x.deadline.runNanos x.now work value = ended) :
      x.turn (.run work value) = ⟨x, .run work value, ended.output, ended.polled,
        ⟨ended.deadline, ended.endedAt⟩⟩ := by
    rw [← hended]
    rfl
  cases hexpired : x.deadline.isExpired with
  | true =>
    have hlate := h.expired hexpired
    have hnot : x.deadline.isExpired ≠ false := by simp [hexpired]
    rw [hturn (runNanos_of_expired hexpired)]
    refine ⟨rfl, ⟨fun _ => hlate, fun _ => hexpired⟩, id, h.live_of_lt, ?_, fun _ _ => rfl⟩
    exact ⟨fun hlive => absurd hlive hnot, fun hlive => absurd hlive hnot,
      fun _ => ⟨rfl, rfl, rfl⟩, fun _ => (race_of_expired hexpired).symm⟩
  | false =>
    have hnot : x.deadline.isExpired ≠ true := by simp [hexpired]
    have hne : x.now + work ≠ x.deadline.expiry := hapart hexpired
    rcases Nat.lt_or_gt_of_ne hne with hdone | hover
    · have hrun := runNanos_of_done hexpired hdone value
      rw [hrun] at hraces
      rw [hturn hrun]
      refine ⟨rfl, ⟨fun hover => absurd hover hnot, fun hover => ?_⟩,
        fun hover => absurd hover hnot, h.live_of_lt, ?_, fun _ _ => rfl⟩
      · exact absurd hdone (Nat.not_lt.mpr hover)
      · exact ⟨fun _ _ => ⟨rfl, rfl⟩, fun _ hover => absurd hover (Nat.lt_asymm hdone),
          fun hover => absurd hover hnot, hraces⟩
    · have hrun := runNanos_of_overdue hexpired hover value
      rw [hrun] at hraces
      rw [hturn hrun]
      refine ⟨rfl, ⟨fun _ => Nat.le_refl _, fun _ => rfl⟩, fun _ => rfl, h.live_of_lt, ?_,
        fun _ _ => rfl⟩
      exact ⟨fun _ hdone => absurd hdone (Nat.lt_asymm hover), fun _ _ => ⟨rfl, rfl⟩,
        fun hover => absurd hover hnot, hraces⟩

theorem Standing.Punctual.keeps (h : x.Punctual expiry) {task : Task α}
    (hapart : (x.turn task).Apart) : (x.turn task).Keeps expiry := by
  cases task with
  | run work value => exact h.keeps_run hapart
  | sleep time => exact h.keeps_sleep time

theorem Standing.Punctual.keeps_turns (h : x.Punctual expiry) {tasks : List (Task α)}
    (hapart : ∀ turn ∈ x.turns tasks, turn.Apart) : ∀ turn ∈ x.turns tasks, turn.Keeps expiry := by
  induction tasks generalizing x with
  | nil => simp [Standing.turns]
  | cons task tasks ih =>
    have hfirst := h.keeps (hapart _ List.mem_cons_self)
    intro turn hturn
    rcases List.mem_cons.mp hturn with rfl | hlater
    · exact hfirst
    · exact ih hfirst.punctual (fun turn hm => hapart turn (List.mem_cons_of_mem _ hm)) turn hlater

/-- A deadline is refused if the clock cannot represent its expiry. Any other expires at one fixed
moment, the whole timeout after its start, and from then on for good. Until it has, work goes on as
long as it takes; then it is cut off, or not even begun. A deadline that is given up has expired at
once. -/
theorem keeps_of_start (since : Nat) (timeout : Duration) :
    (start? since timeout = none ↔
        1000000000 * clockLimit ≤ nanosOf since + timeout.inNanos) ∧
      ∀ d, start? since timeout = some d →
        d.isExpired = false ∧ d.expiry = nanosOf since + timeout.inNanos ∧
        (∀ moment later, ((d.tickNanos moment).drop.tickNanos later).isExpired = true) ∧
        (∀ tasks : List (Task α),
          (∀ turn ∈ Standing.turns ⟨d, nanosOf since⟩ tasks, turn.Apart) →
            ∀ turn ∈ Standing.turns ⟨d, nanosOf since⟩ tasks, turn.Keeps d.expiry) ∧
        ∀ millis, timeout = .ofMillis millis →
          d.expiresAt = since + millis ∧ ∀ now work (value : α),
            d.run now work value =
              if since + millis < now + work then ⟨none, true, since + millis, d.drop⟩
              else ⟨some value, true, now + work, d⟩ := by
  refine ⟨start?_eq_none_iff.trans overflows_iff, fun d hstart => ?_⟩
  obtain ⟨-, rfl⟩ := start?_eq_some_iff.mp hstart
  refine ⟨rfl, rfl, fun _ _ => rfl, fun tasks hapart => ?_, ?_⟩
  · have hpunctual : Standing.Punctual
        ⟨⟨timeout, nanosOf since + timeout.inNanos, false⟩, nanosOf since⟩
        (nanosOf since + timeout.inNanos) :=
      ⟨rfl, fun _ => Nat.le_add_right _ _, fun hexpired => Bool.noConfusion hexpired⟩
    exact hpunctual.keeps_turns hapart
  · rintro millis rfl
    have hexpires : expiresAt ⟨.ofMillis millis, nanosOf since + (Duration.ofMillis millis).inNanos,
        false⟩ = since + millis := by
      rw [expiresAt, Duration.inNanos_ofMillis, ← nanosOf_add, millisFrom_nanosOf]
    refine ⟨hexpires, fun now work value => ?_⟩
    rw [run_eq, hexpires]
    simp only [Duration.inNanos_ofMillis, ← nanosOf_add, nanosOf_lt_iff, Bool.false_eq_true,
      if_false]
    rfl

/-- Work that is done in time, a pause, work that is cut off, work that is refused, a pause. -/
def sampleTasks : List (Task Nat) :=
  [.run 1000000 7, .sleep 500000, .run 9000000 8, .run 1 9, .sleep 100000]

theorem keeps_sampleTasks :
    ∃ d, start? 20 ⟨0, 1900000, by decide⟩ = some d ∧ d.expiry = 21900000 ∧
      (∀ turn ∈ Standing.turns ⟨d, nanosOf 20⟩ sampleTasks, turn.Apart ∧ turn.Keeps 21900000) ∧
      (Standing.turns ⟨d, nanosOf 20⟩ sampleTasks).map (fun turn => (turn.output, turn.after.now)) =
        [(some 7, 21000000), (none, 21500000), (none, 21900000), (none, 21900000),
          (none, 22000000)] := by
  have hstart : start? 20 ⟨0, 1900000, by decide⟩ =
      some ⟨⟨0, 1900000, by decide⟩, 21900000, false⟩ := by decide
  obtain ⟨-, hexpiry, -, hkeeps, -⟩ := (keeps_of_start 20 ⟨0, 1900000, by decide⟩).2 _ hstart
  have hapart : ∀ turn ∈ Standing.turns ⟨⟨⟨0, 1900000, by decide⟩, 21900000, false⟩, nanosOf 20⟩
      sampleTasks, turn.Apart := by
    simp [Standing.turns, Standing.turn, sampleTasks, Turn.Apart, runNanos, tickNanos, isExpired,
      Task.length, nanosOf]
  exact ⟨_, hstart, hexpiry,
    fun turn hturn => ⟨hapart turn hturn, hkeeps sampleTasks hapart turn hturn⟩, rfl⟩

end Deadline

end ThresholdSigning
