import ThresholdSigning.Execution
import ThresholdSigning.Medium
import ThresholdSigning.Rehearsal.Script

namespace ThresholdSigning

inductive TrialPhase (α β : Type)
  | waiting
  | running (x : Execution Actor α)
  | ended (moment : Nat) (result : Except Error β) (request : Request Actor α)
  /-- The clock could not represent the expiry. -/
  | aborted

/-- One member's part in a rehearsal: an execution with a scripted party. -/
structure Trial (α β : Type) where
  /-- When the member begins, in milliseconds. -/
  start : Nat
  endpoint : Endpoint
  script : Script α
  /-- Events before the execution and its plan, or why the arguments are refused. -/
  plan : Except Error (List Event × Plan)
  /-- What the member makes of an output. -/
  conclude : α → Except Error β
  phase : TrialPhase α β

namespace Trial

variable {α β : Type}

def execution? (trial : Trial α β) : Option (Execution Actor α) :=
  match trial.phase with
  | .running x => some x
  | .ended _ _ (.begun x) => some x
  | _ => none

/-- The group for which a party was asked for. -/
def madeFor? (trial : Trial α β) : Option Group := trial.execution?.map (·.plan.group)

def rounds? (trial : Trial α β) : Option (Rounds Actor α) := trial.execution?.bind (·.rounds?)

def isStarted (trial : Trial α β) : Bool :=
  match trial.rounds? with
  | some rounds => rounds.party.started
  | none => false

/-- The message whose call does not return. -/
def held? (trial : Trial α β) : Option ProtocolMessage :=
  match trial.rounds? with
  | none => none
  | some rounds =>
    match rounds.worker with
    | .feeding m => if trial.script.holds m then some m else none
    | _ => none

/-- The messages that the party was called with, in order. -/
def fed (trial : Trial α β) : List (ProtocolMessage × Verdict) :=
  match trial.rounds? with
  | none => []
  | some rounds => rounds.party.fed ++ trial.held?.toList.map fun m => (m, trial.script.verdict m)

/-- Moments at which time itself makes a difference. -/
def timers (trial : Trial α β) : List Nat :=
  match trial.phase with
  | .waiting => [trial.start]
  | .running x =>
    x.deadline.timer ++
      match x.phase with
      | .joining _ barrier _ => [barrier.nextTick]
      | _ => []
  | _ => []

/-- What a trial leads to when it goes on: events, the trial and the medium. -/
abbrev Step (α β : Type) := List Event × Trial α β × Medium

def settled (trial : Trial α β) (now : Nat) (x : Execution Actor α) : Trial α β :=
  match (Request.begun x).result? trial.conclude with
  | none => { trial with phase := .running x }
  | some result => { trial with phase := .ended now result (.begun x) }

/-- Performs a move if it is possible; after the end only the worker goes on. -/
def perform (trial : Trial α β) (now : Nat) (m : Medium) (move : Execution.Move) :
    Option (Step α β) :=
  let t := Medium.transport trial.endpoint
  match trial.phase with
  | .running x =>
    (x.step trial.script.party t now move m).map fun (events, x, m) =>
      (events, trial.settled now x, m)
  | .ended moment result (.begun x) =>
    (x.step trial.script.party t now move m).map fun (events, x, m) =>
      (events, { trial with phase := .ended moment result (.begun x) }, m)
  | _ => none

/-- The moves other than dispatching, in the order in which they are tried. A worker whose call
does not return makes no move. -/
def moves (trial : Trial α β) : List Execution.Move :=
  [.join, .rounds .take] ++ (if trial.held?.isSome then [] else [.rounds .work]) ++
    [.rounds .send, .rounds .finish]

/-- Goes on with the first move that is possible, again and again. -/
def advance (now : Nat) (trial : Trial α β) (m : Medium) : Nat → Step α β
  | 0 => ([], trial, m)
  | fuel + 1 =>
    match trial.moves.findSome? (trial.perform now m) with
    | none => ([], trial, m)
    | some (events, trial, m) =>
      let (more, rest) := trial.advance now m fuel
      (events ++ more, rest)

/-- Takes everything that comes in. -/
def drain (now : Nat) (trial : Trial α β) (m : Medium) : Nat → Step α β
  | 0 => ([], trial, m)
  | fuel + 1 =>
    match trial.perform now m .dispatch with
    | none => ([], trial, m)
    | some (events, trial, m) =>
      let (more, rest) := trial.drain now m fuel
      (events ++ more, rest)

/-- Whether there is anything to do before time passes. -/
def isBusy (now : Nat) (trial : Trial α β) (m : Medium) : Bool :=
  (.dispatch :: trial.moves).any fun move => (trial.perform now m move).isSome

/-- Begins, at a moment that has come. Making the party moves the clock; the barrier's first join
follows at once. -/
def begin (fuel now : Nat) (trial : Trial α β) (m : Medium) : Nat × Step α β :=
  let began := now + trial.script.makingTakes
  match Request.begin? trial.plan (Medium.transport trial.endpoint) (fun _ => trial.script.make)
    now trial.script.makingTakes m with
  | none => (now, [], { trial with phase := .aborted }, m)
  | some (events, .refused e, m) =>
    (now, events, { trial with phase := .ended now (.error e) (.refused e) }, m)
  | some (events, .begun x, m) =>
    let (more, step) := (trial.settled began x).advance began m fuel
    (began, events ++ more, step)

/-- Lets the timer of the deadline fire if its moment has come. -/
def tick (trial : Trial α β) (moment : Nat) : Trial α β :=
  match trial.phase with
  | .running x => { trial with phase := .running (x.tick moment) }
  | _ => trial

end Trial

end ThresholdSigning
