import ThresholdSigning.Barrier
import ThresholdSigning.Rehearsal.Stage

namespace ThresholdSigning

/-- Where a barrier stands that is tried out over logical time. -/
inductive JoiningPhase
  /-- The deadline starts at the given moment. -/
  | delayed (start : Nat)
  /-- The deadline runs, and the barrier starts at the given moment. -/
  | held (start : Nat) (deadline : Deadline)
  | running (deadline : Deadline) (barrier : Barrier)
  | ended (moment : Nat) (barrier : Barrier) (result : Except Error Unit)

/-- A barrier at a named bridge: its time limit, how often it repeats its join, and how long it is
held back after the deadline has started, in milliseconds. -/
structure Joining where
  name : String
  timeout : Nat
  interval : Nat
  late : Nat
  phase : JoiningPhase

namespace Joining

/-- The next moment at which time itself makes a difference. -/
def timers (j : Joining) : List Nat :=
  match j.phase with
  | .delayed moment => [moment]
  | .held moment deadline => moment :: deadline.timer
  | .running deadline barrier => barrier.nextTick :: deadline.timer
  | .ended _ _ _ => []

/-- Does what can be done now, and tells whether that was anything. -/
def advance (fuel now : Nat) (j : Joining) (s : Stage) : Bool × Joining × Stage :=
  match j.phase with
  | .delayed moment =>
    if moment ≤ now then
      match Deadline.start? now (.ofMillis j.timeout) with
      | some deadline => (true, { j with phase := .held (now + j.late) deadline }, s)
      | none => (false, j, s)
    else (false, j, s)
  | .held moment deadline =>
    if moment ≤ now then
      (true, { j with phase := .running (deadline.tick now) (.create j.interval) }, s)
    else (false, { j with phase := .held moment (deadline.tick now) }, s)
  | .running deadline barrier =>
    match s.attachment? j.name with
    | none => (false, j, s)
    | some a =>
      let t := Medium.transport a.endpoint
      let deadline := deadline.tick now
      let busy := (barrier.step a.bridge t deadline now s.medium).isSome
      let (barrier, b, m) := barrier.advance a.bridge t deadline now s.medium fuel
      let s := { s with medium := m }.setBridge j.name b
      match barrier.result with
      | some result => (true, { j with phase := .ended now barrier result }, s)
      | none => (busy, { j with phase := .running deadline barrier }, s)
  | .ended _ _ _ => (false, j, s)

def advanceAll (fuel now : Nat) : List Joining → Stage → Bool × List Joining × Stage
  | [], s => (false, [], s)
  | j :: js, s =>
    let (busy, j, s) := advance fuel now j s
    let (others, js, s) := advanceAll fuel now js s
    (busy || others, j :: js, s)

/-- Lets bridges and barriers work in turn until there is nothing more to do at this moment. -/
def settle (now : Nat) (js : List Joining) (s : Stage) : Nat → List Event × List Joining × Stage
  | 0 => ([], js, s)
  | fuel + 1 =>
    let busy := s.isBusy
    let (events, s) := s.drainAll fuel s.names
    let (busyToo, js, s) := advanceAll fuel now js s
    if busy || busyToo then
      let (more, rest) := settle now js s fuel
      (events ++ more, rest)
    else (events, js, s)

/-- What trying out some barriers together has led to. -/
structure Outcome where
  joinings : List Joining
  stage : Stage
  events : List Event
  /-- What came of the acts, in order. -/
  acts : List (Except TransportError Unit)

/-- Performs the acts that are due. -/
def performDue (now : Nat) : List (Nat × Act) → Stage → List (Except TransportError Unit) ×
    List (Nat × Act) × Stage
  | [], s => ([], [], s)
  | (moment, act) :: acts, s =>
    if moment ≤ now then
      let (result, s) := s.act act
      let (results, rest) := performDue now acts s
      (result :: results, rest)
    else ([], (moment, act) :: acts, s)

/-- Runs barriers and acts together over logical time, which moves only when nothing else can be
done. Acts are in the order of their moments. -/
def rehearse (now : Nat) (js : List Joining) (acts : List (Nat × Act)) (s : Stage) : Nat → Outcome
  | 0 => ⟨js, s, [], []⟩
  | fuel + 1 =>
    let (results, acts, s) := performDue now acts s
    let (events, js, s) := settle now js s fuel
    match ((js.flatMap timers) ++ (acts.take 1).map (·.1)).min? with
    | none => ⟨js, s, events, results⟩
    | some next =>
      let rest := rehearse (max now next) js acts s fuel
      { rest with events := events ++ rest.events, acts := results ++ rest.acts }

end Joining

end ThresholdSigning
