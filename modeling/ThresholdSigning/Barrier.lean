import ThresholdSigning.Bridge
import ThresholdSigning.Deadline

namespace ThresholdSigning

inductive BarrierState
  | idle
  | announcing
  /-- The members heard from so far. -/
  | waiting (seen : List MemberId)
  | ready
  | timedOut
deriving DecidableEq

/-- The wait for every peer before the first round. -/
structure Barrier where
  /-- The time between two joins, in milliseconds. -/
  interval : Nat
  state : BarrierState
  /-- When the join is sent again. -/
  nextTick : Nat
  result : Option (Except Error Unit)

namespace Barrier

variable {τ : Type}

def create (interval : Nat) : Barrier where
  interval := interval
  state := .idle
  nextTick := 0
  result := none

def missing (group : Group) (seen : List MemberId) : List MemberId :=
  MemberId.sort (group.peers.filter (· ∉ seen))

def fail (b : Barrier) (e : Error) : Barrier := { b with result := some (.error e) }

def timeOut (b : Barrier) (group : Group) (seen : List MemberId) : Barrier :=
  { b with state := .timedOut, result := some (.error (.joinTimeout (missing group seen))) }

/-- A signal counts once, and only from a peer. -/
def hear (group : Group) (seen : List MemberId) (signal : Signal) : List MemberId :=
  if group.isPeer signal.sender && decide (signal.sender ∉ seen) then seen ++ [signal.sender]
  else seen

/-- Ticks keep their grid unless one is more than five milliseconds late. -/
def tickAfter (b : Barrier) (now : Nat) : Nat :=
  if b.nextTick + 5 < now then now + b.interval else b.nextTick + b.interval

/-- One step, unless there is nothing to do before time passes or a signal comes. The end of the
time comes before signals, and signals before repeated joins. -/
def step (b : Barrier) (bridge : Bridge) (t : Transport τ) (deadline : Deadline) (now : Nat)
    (s : τ) : Option (Barrier × Bridge × τ) :=
  if b.result.isSome then none
  else
    match b.state with
    | .idle => some ({ b with state := .announcing }, bridge, s)
    | .announcing =>
      if deadline.isExpired then some (b.timeOut bridge.group [], bridge, s)
      else
        match bridge.broadcastJoin t s with
        | (.error e, s) => some (b.fail e, bridge, s)
        | (.ok _, s) =>
          some ({ b with state := .waiting [], nextTick := now + b.interval }, bridge, s)
    | .waiting seen =>
      if bridge.group.peers.all (· ∈ seen) then
        some ({ b with state := .ready, result := some (.ok ()) }, bridge, s)
      else if deadline.isExpired then some (b.timeOut bridge.group seen, bridge, s)
      else
        match bridge.signals with
        | signal :: signals =>
          some ({ b with state := .waiting (hear bridge.group seen signal) },
            { bridge with signals := signals }, s)
        | [] =>
          if !bridge.isOpen then some (b.fail (.transport .channelClosed), bridge, s)
          else if now < b.nextTick then none
          else
            match bridge.broadcastJoin t s with
            | (.error e, s) => some (b.fail e, bridge, s)
            | (.ok _, s) => some ({ b with nextTick := b.tickAfter now }, bridge, s)
    | .ready => none
    | .timedOut => none

/-- Goes on until time has to pass, at most `fuel` steps. -/
def advance (b : Barrier) (bridge : Bridge) (t : Transport τ) (deadline : Deadline) (now : Nat)
    (s : τ) : Nat → Barrier × Bridge × τ
  | 0 => (b, bridge, s)
  | fuel + 1 =>
    match b.step bridge t deadline now s with
    | none => (b, bridge, s)
    | some (b, bridge, s) => b.advance bridge t deadline now s fuel

end Barrier

end ThresholdSigning
