import ThresholdSigning.Bridge
import ThresholdSigning.Deadline
import ThresholdSigning.Party

namespace ThresholdSigning

/-- Why the rounds have no output. -/
inductive RoundsFault
  | expired
  | computation (cause : FailureCause)
  | network (e : Error)

/-- What the worker does next, who alone calls the party. -/
inductive Worker (α : Type)
  | starting
  /-- Queues the messages that the party has produced. -/
  | flushing (produced : List Outbound)
  | checking
  | reading
  | feeding (m : ProtocolMessage)
  | finished (result : Except RoundsFault α)

/-- How far the side has come that watches the worker. -/
inductive Watch (α : Type)
  | racing
  /-- The worker has an output; what is queued still has to be sent. -/
  | sending (output : α)
  | over (result : Except RoundsFault α)

/-- A party at work between two queues. -/
structure Rounds (σ α : Type) where
  party : σ
  worker : Worker α
  inbox : List ProtocolMessage
  outbox : List Outbound
  /-- Whether a message came in after the worker had gone. -/
  unread : Bool
  /-- Whether everything was sent and nothing more can be queued. -/
  sentAll : Bool
  watch : Watch α

namespace Rounds

variable {σ α τ : Type}

/-- What can happen next; the worker and the side that watches it take turns in any order. -/
inductive Move
  | work
  /-- Takes the next message from the bridge. -/
  | take
  /-- Sends the next message that is queued. -/
  | send
  /-- Notices that the worker has finished. -/
  | finish
  /-- Notices that the time is over. -/
  | expire
deriving DecidableEq

def create (party : σ) : Rounds σ α where
  party := party
  worker := .starting
  inbox := []
  outbox := []
  unread := false
  sentAll := false
  watch := .racing

def isOver (r : Rounds σ α) : Bool :=
  match r.watch with
  | .over _ => true
  | _ => false

/-- The worker has gone. -/
def isFinished (r : Rounds σ α) : Bool :=
  match r.worker with
  | .finished _ => true
  | _ => false

def stop (r : Rounds σ α) (fault : RoundsFault) : Rounds σ α :=
  { r with watch := .over (.error fault) }

def quit (r : Rounds σ α) (fault : RoundsFault) : Rounds σ α :=
  { r with worker := .finished (.error fault) }

/-- Takes what the party has produced. -/
def collect (p : Party σ α) (r : Rounds σ α) (party : σ) : Rounds σ α :=
  let (produced, party) := p.drain party
  { r with party := party, worker := .flushing produced }

/-- One step of the worker. A message that the party refuses is dropped, and the work goes on. Once
the rounds are over nothing more can be queued, and what is left in the inbox is the last. -/
def work (p : Party σ α) (r : Rounds σ α) : Option (Rounds σ α) :=
  match r.worker with
  | .starting =>
    match p.start r.party with
    | (.error e, party) => some ({ r with party := party }.quit (.computation e.cause))
    | (.ok _, party) => some (collect p r party)
  | .flushing [] => some { r with worker := .checking }
  | .flushing (m :: produced) =>
    if r.isOver then some (r.quit .expired)
    else some { r with worker := .flushing produced, outbox := r.outbox ++ [m] }
  | .checking =>
    if p.isComplete r.party then
      match p.result r.party with
      | (.error e, party) => some ({ r with party := party }.quit (.computation e.cause))
      | (.ok output, party) => some { r with party := party, worker := .finished (.ok output) }
    else some { r with worker := .reading }
  | .reading =>
    match r.inbox with
    | m :: inbox => some { r with inbox := inbox, worker := .feeding m }
    | [] => if r.isOver then some (r.quit .expired) else none
  | .feeding m =>
    match p.feed m r.party with
    | (.error (.failure reason), party) =>
      some ({ r with party := party }.quit (.computation (.reported reason)))
    | (_, party) => some (collect p r party)
  | .finished _ => none

/-- Moves a message from the bridge to the inbox. The end of the stream ends the rounds, unless a
message had come in after the worker was gone. -/
def take (r : Rounds σ α) (b : Bridge) : Option (Rounds σ α × Bridge) :=
  match r.watch with
  | .racing =>
    if r.unread then none
    else
      match b.messages with
      | m :: messages =>
        if r.isFinished then some ({ r with unread := true }, { b with messages := messages })
        else some ({ r with inbox := r.inbox ++ [m] }, { b with messages := messages })
      | [] => if b.isOpen then none else some (r.stop (.network (.transport .channelClosed)), b)
  | _ => none

/-- Sends what was queued first, or notices that nothing more can be queued. -/
def send (r : Rounds σ α) (b : Bridge) (t : Transport τ) (s : τ) : Option (Rounds σ α × τ) :=
  match r.watch, r.outbox with
  | .over _, _ => none
  | .racing, [] =>
    if r.isFinished && !r.sentAll then some ({ r with sentAll := true }, s) else none
  | .sending output, [] => some ({ r with watch := .over (.ok output) }, s)
  | _, m :: outbox =>
    match b.send t m.payload m.target s with
    | (.error e, s) => some ({ r with outbox := outbox }.stop (.network e), s)
    | (.ok _, s) => some ({ r with outbox := outbox }, s)

/-- Takes over the worker's result. An output counts once everything queued is sent. -/
def finish (r : Rounds σ α) : Option (Rounds σ α) :=
  match r.watch, r.worker with
  | .racing, .finished (.error fault) => some (r.stop fault)
  | .racing, .finished (.ok output) =>
    some { r with watch := if r.sentAll then .over (.ok output) else .sending output }
  | _, _ => none

/-- Performs a move if it is possible. Under a deadline that has expired the watching side can only
notice that. -/
def step (p : Party σ α) (t : Transport τ) (deadline : Deadline) (move : Move) (r : Rounds σ α)
    (b : Bridge) (s : τ) : Option (Rounds σ α × Bridge × τ) :=
  if move = .work then (r.work p).map (·, b, s)
  else if r.isOver then none
  else if deadline.isExpired then some (r.stop .expired, b, s)
  else
    match move with
    | .work => none
    | .take => (r.take b).map fun (r, b) => (r, b, s)
    | .send => (r.send b t s).map fun (r, s) => (r, b, s)
    | .finish => r.finish.map (·, b, s)
    | .expire => none

end Rounds

end ThresholdSigning
