import ThresholdSigning.Duration

namespace ThresholdSigning

/-- The end of the time that an execution has. -/
structure Deadline where
  timeout : Duration
  /-- The exact moment at which the time is up, in nanoseconds. -/
  expiry : Nat
  /-- Set when the timer fires and when the execution gives the deadline up. -/
  cancelled : Bool
deriving DecidableEq

/-- What is left of work that was run under a deadline. -/
structure TimedRun (α : Type) where
  output : Option α
  /-- Whether the work was begun. -/
  polled : Bool
  endedAt : Nat
  deadline : Deadline

namespace Deadline

/-- A moment in nanoseconds. Moments and lengths of logical time are in milliseconds unless a name
says otherwise. -/
def nanosOf (millis : Nat) : Nat := 1000000 * millis

/-- The first millisecond at which a moment in nanoseconds has come. -/
def millisFrom (nanos : Nat) : Nat := (nanos + 999999) / 1000000

/-- The whole seconds at the expiry of a deadline that starts now. -/
def expirySecs (now : Nat) (timeout : Duration) : Nat :=
  now / 1000 + timeout.secs + (1000000 * (now % 1000) + timeout.nanos) / 1000000000

/-- A clock counts seconds in 63 bits. -/
def clockLimit : Nat := 0x8000000000000000

/-- An expiry that the clock cannot represent is refused. -/
def start? (now : Nat) (timeout : Duration) : Option Deadline :=
  if expirySecs now timeout < clockLimit then
    some ⟨timeout, nanosOf now + timeout.inNanos, false⟩
  else none

def isExpired (d : Deadline) : Bool := d.cancelled

/-- The deadline at a moment in nanoseconds: its timer fires when the expiry has come. -/
def tickNanos (d : Deadline) (moment : Nat) : Deadline :=
  { d with cancelled := d.cancelled || decide (d.expiry ≤ moment) }

/-- Runs work that takes `work` nanoseconds, until it is done or the deadline passes. -/
def runNanos {α : Type} (d : Deadline) (now work : Nat) (value : α) : TimedRun α :=
  if d.cancelled then ⟨none, false, now, d⟩
  else if d.expiry < now + work then ⟨none, true, d.expiry, { d with cancelled := true }⟩
  else ⟨some value, true, now + work, d⟩

/-- The first millisecond at which the deadline has expired. -/
def expiresAt (d : Deadline) : Nat := millisFrom d.expiry

def tick (d : Deadline) (moment : Nat) : Deadline := d.tickNanos (nanosOf moment)

/-- The moment at which the timer still has to fire. -/
def timer (d : Deadline) : List Nat := if d.cancelled then [] else [d.expiresAt]

def run {α : Type} (d : Deadline) (now work : Nat) (value : α) : TimedRun α :=
  let ended := d.runNanos (nanosOf now) (nanosOf work) value
  { ended with endedAt := millisFrom ended.endedAt }

/-- Gives the deadline up, and with it everything that waits for it. -/
def drop (d : Deadline) : Deadline := { d with cancelled := true }

end Deadline

end ThresholdSigning
