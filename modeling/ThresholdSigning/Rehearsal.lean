import ThresholdSigning.Rehearsal.Act
import ThresholdSigning.Rehearsal.Trial

namespace ThresholdSigning

/-- What a cue brings about. -/
inductive CueAction
  | act (act : Act)
  /-- Moves the clock by hand. -/
  | advance (millis : Nat)

/-- Something that happens once a moment has come and enough has happened before. -/
structure Cue where
  moment : Nat
  started : Nat
  fed : Nat
  sent : Nat
  action : CueAction

/-- Several members execute over one medium in logical time, which moves only when nothing else
can be done. -/
structure Rehearsal (α β : Type) where
  now : Nat
  medium : Medium
  trials : List (Trial α β)
  /-- What is still to happen, in order. -/
  cues : List Cue
  /-- What came of the cues that have happened. -/
  acts : List (Except TransportError Unit)
  events : List Event

namespace Rehearsal

variable {α β : Type}

/-- Goes over the trials one after the other. -/
def overAll (step : Trial α β → Medium → Trial.Step α β) : List (Trial α β) → Medium →
    List Event × List (Trial α β) × Medium
  | [], m => ([], [], m)
  | trial :: trials, m =>
    let (events, trial, m) := step trial m
    let (more, trials, m) := overAll step trials m
    (events ++ more, trial :: trials, m)

def forAll (step : Trial α β → Medium → Trial.Step α β) (r : Rehearsal α β) : Rehearsal α β :=
  let (events, trials, m) := overAll step r.trials r.medium
  { r with medium := m, trials := trials, events := r.events ++ events }

def isBusy (r : Rehearsal α β) : Bool := r.trials.any (·.isBusy r.now r.medium)

/-- Lets all bridges take what comes in, then everything else go on, until nothing is left to do. -/
def settle (r : Rehearsal α β) : Nat → Rehearsal α β
  | 0 => r
  | fuel + 1 =>
    if r.isBusy then
      ((r.forAll fun trial m => trial.drain r.now m fuel).forAll fun trial m =>
        trial.advance r.now m fuel).settle fuel
    else r

def timers (r : Rehearsal α β) : List Nat := r.trials.flatMap Trial.timers

/-- Begins the trials whose moment it is, one after the other. -/
def beginAll (fuel moment : Nat) (r : Rehearsal α β) : List (Trial α β) → Rehearsal α β
  | [] => r
  | trial :: trials =>
    match trial.phase with
    | .waiting =>
      if trial.start ≤ moment then
        let (now, events, trial, m) := trial.begin fuel r.now r.medium
        beginAll fuel moment
          { r with
            now := now, medium := m, trials := r.trials ++ [trial], events := r.events ++ events }
          trials
      else beginAll fuel moment { r with trials := r.trials ++ [trial] } trials
    | _ => beginAll fuel moment { r with trials := r.trials ++ [trial] } trials

/-- Lets the timers of a moment fire. -/
def fire (fuel moment : Nat) (r : Rehearsal α β) : Rehearsal α β :=
  beginAll fuel moment { r with trials := [] } (r.trials.map (·.tick moment))

def isDue (r : Rehearsal α β) (cue : Cue) : Bool :=
  decide (cue.moment ≤ r.now ∧ cue.started ≤ r.trials.countP (·.isStarted) ∧
    cue.fed ≤ r.trials.foldl (fun n trial => n + trial.fed.length) 0 ∧ cue.sent ≤ r.medium.sent)

def perform (r : Rehearsal α β) : CueAction → Rehearsal α β
  | .act act =>
    let (result, m) := act.apply r.medium
    { r with medium := m, acts := r.acts ++ [result] }
  | .advance millis => { r with now := r.now + millis, acts := r.acts ++ [.ok ()] }

/-- Performs the cues that are due; none goes before an earlier one. -/
def performDue (r : Rehearsal α β) : List Cue → Rehearsal α β
  | [] => { r with cues := [] }
  | cue :: cues =>
    if r.isDue cue then (r.perform cue.action).performDue cues else { r with cues := cue :: cues }

/-- The next moment of a timer, or of the next cue if that is still to come. -/
def nextMoment? (r : Rehearsal α β) : Option Nat :=
  (r.timers ++ ((r.cues.take 1).map (·.moment)).filter (r.now < ·)).min?

/-- Runs everything to its end. Timers whose moment has come fire in the order of their moments,
before cues; time moves when neither is left. -/
def run (r : Rehearsal α β) : Nat → Rehearsal α β
  | 0 => r
  | fuel + 1 =>
    let r := r.settle fuel
    match r.timers.min? with
    | some moment => if moment ≤ r.now then (r.fire fuel moment).run fuel else goOn r fuel
    | none => goOn r fuel
where
  goOn (r : Rehearsal α β) (fuel : Nat) : Rehearsal α β :=
    let next := r.performDue r.cues
    if next.cues.length < r.cues.length then next.run fuel
    else
      match r.nextMoment? with
      | some moment => { r with now := moment }.run fuel
      | none => r

end Rehearsal

end ThresholdSigning
