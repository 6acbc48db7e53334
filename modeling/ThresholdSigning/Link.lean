import ThresholdSigning.Transport

namespace ThresholdSigning

/-- A member's own connection. What comes in is fed by hand, what goes out is recorded. -/
structure Link where
  member : MemberId
  /-- How many sends succeed before the link goes down, if it does. -/
  failsFrom : Option Nat
  refusesSubscription : Bool
  inbox : List Inbound
  /-- Whether more may come after what is in the inbox. -/
  feedOpen : Bool
  outbox : List (Target × ByteArray)
  /-- How much of the outbox was looked at. -/
  seen : Nat
  released : Bool

namespace Link

def create (m : MemberId) (failsFrom : Option Nat) (refusesSubscription : Bool) : Link where
  member := m
  failsFrom := failsFrom
  refusesSubscription := refusesSubscription
  inbox := []
  feedOpen := true
  outbox := []
  seen := 0
  released := false

/-- Nothing is fed any more once the feed is closed. -/
def feed (l : Link) (e : Inbound) : Link :=
  if l.feedOpen then { l with inbox := l.inbox ++ [e] } else l

def closeFeed (l : Link) : Link := { l with feedOpen := false }

/-- What was sent since the last look. -/
def takeSent (l : Link) : List (Target × ByteArray) × Link :=
  (l.outbox.drop l.seen, { l with seen := l.outbox.length })

/-- The recipient as a failure names it. -/
def recipient : Target → String
  | .everyone => "broadcast"
  | .only m => m.text

def transport (m : MemberId) : Transport Link where
  localMember := m
  subscribe _ l := if l.refusesSubscription then (.error (.notConnected m), l) else (.ok 0, l)
  receive _ l :=
    match l.inbox with
    | e :: inbox => (.envelope e, { l with inbox := inbox })
    | [] => (if l.feedOpen then .nothing else .closed, l)
  release _ l := { l with released := true }
  send _ target bytes l :=
    if l.failsFrom.any (· ≤ l.outbox.length) then
      (.error (.sendFailed (recipient target) "link down"), l)
    else (.ok (), { l with outbox := l.outbox ++ [(target, bytes)] })

end Link

end ThresholdSigning
