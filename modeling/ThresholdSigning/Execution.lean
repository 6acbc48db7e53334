import ThresholdSigning.Barrier
import ThresholdSigning.Rounds

namespace ThresholdSigning

/-- What members execute together. -/
inductive Protocol
  | keyGeneration
  | signing
deriving DecidableEq

namespace Protocol

def name : Protocol → String
  | keyGeneration => "keygen"
  | signing => "signing"

def timeoutError (p : Protocol) (timeout : Duration) : Error :=
  match p with
  | keyGeneration => .keyGenerationTimeout timeout
  | signing => .signingTimeout timeout

end Protocol

/-- What is going to be executed, and for how long. -/
structure Plan where
  protocol : Protocol
  timeout : Duration
  joinInterval : Duration
  group : Group

namespace Plan

def event (plan : Plan) (kind : EventKind) : Event where
  kind := kind
  correlationId := some plan.group.id
  member := some plan.group.localMember.text
  protocol := some plan.protocol.name

def started (plan : Plan) : Event :=
  ((plan.event .executionStarted).withContext "members" (toString plan.group.size)).withContext
    "threshold" (toString plan.group.threshold)

def timeoutError (plan : Plan) : Error := plan.protocol.timeoutError plan.timeout

/-- The error that the rounds end with. -/
def fault (plan : Plan) : RoundsFault → Error
  | .expired => plan.timeoutError
  | .computation cause => .protocolFailure cause
  | .network e => e

/-- The event at the end of an execution that was bound to a transport. -/
def ended {α : Type} (plan : Plan) (elapsed : Nat) : Except Error α → Event
  | .ok _ => (plan.event .executionCompleted).withDuration (.ofMillis elapsed)
  | .error e =>
    { (plan.event (if e.isTimeout then .executionTimeout else .executionFailed)).withDuration
        (.ofMillis elapsed) with
      error := some e.message }

end Plan

inductive Phase (σ α : Type)
  | joining (bridge : Bridge) (barrier : Barrier) (party : σ)
  | rounds (bridge : Bridge) (rounds : Rounds σ α)
  /-- The worker may outlive its execution. -/
  | ended (result : Except Error α) (rest : Option (Rounds σ α))

/-- An execution from the making of its party to its end. -/
structure Execution (σ α : Type) where
  plan : Plan
  startedAt : Nat
  deadline : Deadline
  phase : Phase σ α

namespace Execution

variable {σ α τ : Type}

def result? (x : Execution σ α) : Option (Except Error α) :=
  match x.phase with
  | .ended result _ => some result
  | _ => none

def rounds? (x : Execution σ α) : Option (Rounds σ α) :=
  match x.phase with
  | .joining _ _ _ => none
  | .rounds _ rounds => some rounds
  | .ended _ rest => rest

/-- An execution whose party is made: binds the bridge. -/
def connect (plan : Plan) (deadline : Deadline) (t : Transport τ) (party : σ) (now : Nat) (s : τ) :
    Execution σ α × τ :=
  match Bridge.connect plan.group t s with
  | (.error e, s) => (⟨plan, now, deadline, .ended (.error e) none⟩, s)
  | (.ok bridge, s) =>
    (⟨plan, now, deadline, .joining bridge (.create plan.joinInterval.millis) party⟩, s)

/-- Starts the clock, makes the party and binds the bridge. Making the party takes `elapsed`
milliseconds during which nothing else happens. There is no start if the clock cannot represent
the expiry. -/
def begin? (plan : Plan) (t : Transport τ) (makeParty : Group → Except PartyError σ)
    (now elapsed : Nat) (s : τ) : Option (List Event × Execution σ α × τ) :=
  match Deadline.start? now plan.timeout with
  | none => none
  | some deadline =>
    match makeParty plan.group with
    | .error e =>
      let result : Except Error α := .error (.protocolFailure e.cause)
      some ([plan.started], ⟨plan, now, deadline, .ended result none⟩, s)
    | .ok party =>
      if deadline.expiresAt ≤ now + elapsed then
        let result : Except Error α := .error plan.timeoutError
        some ([plan.started, plan.ended elapsed result],
          ⟨plan, now, deadline, .ended result none⟩, s)
      else some ([plan.started], connect plan deadline t party now s)

/-- Closes the bridge and reports the end. -/
def close (x : Execution σ α) (bridge : Bridge) (t : Transport τ) (now : Nat)
    (result : Except Error α) (rest : Option (Rounds σ α)) (s : τ) :
    List Event × Execution σ α × τ :=
  ([x.plan.ended (now - x.startedAt) result], { x with phase := .ended result rest },
    (bridge.close t s).2)

inductive Move
  /-- The bridge takes the next that comes in. -/
  | dispatch
  /-- The barrier goes on. -/
  | join
  | rounds (move : Rounds.Move)
deriving DecidableEq

def dispatch (x : Execution σ α) (t : Transport τ) (s : τ) :
    Option (List Event × Execution σ α × τ) :=
  match x.phase with
  | .joining bridge barrier party =>
    (bridge.step t s).map fun (event, bridge, s) =>
      (event.toList, { x with phase := .joining bridge barrier party }, s)
  | .rounds bridge rounds =>
    (bridge.step t s).map fun (event, bridge, s) =>
      (event.toList, { x with phase := .rounds bridge rounds }, s)
  | .ended _ _ => none

/-- What is reported of a barrier that did not let the execution pass. -/
def barrierEvents (plan : Plan) : Error → List Event
  | .joinTimeout missing =>
    [(plan.event .joinTimeout).withContext "missing" (toString missing.length)]
  | _ => []

def join (x : Execution σ α) (t : Transport τ) (now : Nat) (s : τ) :
    Option (List Event × Execution σ α × τ) :=
  match x.phase with
  | .joining bridge barrier party =>
    (barrier.step bridge t x.deadline now s).map fun (barrier, bridge, s) =>
      match barrier.result with
      | none => ([], { x with phase := .joining bridge barrier party }, s)
      | some (.ok _) =>
        ([x.plan.event .joinCompleted], { x with phase := .rounds bridge (.create party) }, s)
      | some (.error e) =>
        let (events, rest) := x.close bridge t now (.error e) none s
        (barrierEvents x.plan e ++ events, rest)
  | _ => none

/-- A move of the rounds. The worker alone can go on after the end. -/
def round (p : Party σ α) (x : Execution σ α) (t : Transport τ) (now : Nat) (move : Rounds.Move)
    (s : τ) : Option (List Event × Execution σ α × τ) :=
  match x.phase with
  | .rounds bridge rounds =>
    (rounds.step p t x.deadline move bridge s).map fun (rounds, bridge, s) =>
      match rounds.watch with
      | .over result => x.close bridge t now (result.mapError x.plan.fault) (some rounds) s
      | _ => ([], { x with phase := .rounds bridge rounds }, s)
  | .ended result (some rounds) =>
    if move = .work then
      (rounds.work p).map fun rounds => ([], { x with phase := .ended result (some rounds) }, s)
    else none
  | _ => none

/-- Performs a move if it is possible. -/
def step (p : Party σ α) (x : Execution σ α) (t : Transport τ) (now : Nat) (move : Move) (s : τ) :
    Option (List Event × Execution σ α × τ) :=
  match move with
  | .dispatch => x.dispatch t s
  | .join => x.join t now s
  | .rounds move => x.round p t now move s

/-- The execution when the timer of its deadline has had its turn. -/
def tick (x : Execution σ α) (now : Nat) : Execution σ α :=
  { x with deadline := x.deadline.tick now }

end Execution

/-- What came of asking for an execution. -/
inductive Request (σ α : Type)
  /-- The arguments were not accepted, and nothing was begun. -/
  | refused (e : Error)
  | begun (x : Execution σ α)

namespace Request

variable {σ α β τ : Type}

/-- Begins an execution unless its arguments are refused. -/
def begin? (plan : Except Error (List Event × Plan)) (t : Transport τ)
    (makeParty : Group → Except PartyError σ) (now elapsed : Nat) (s : τ) :
    Option (List Event × Request σ α × τ) :=
  match plan with
  | .error e => some ([], .refused e, s)
  | .ok (events, plan) =>
    (Execution.begin? plan t makeParty now elapsed s).map fun (more, x, s) =>
      (events ++ more, .begun x, s)

/-- The result for the caller, who draws a conclusion from the output. -/
def result? (conclude : α → Except Error β) : Request σ α → Option (Except Error β)
  | .refused e => some (.error e)
  | .begun x => x.result?.map fun result => result.bind conclude

end Request

end ThresholdSigning
