import ThresholdSigning.Transport

namespace ThresholdSigning

/-- A live subscription of a member for a group, with what it has not taken yet. -/
structure Route where
  id : Nat
  group : String
  member : MemberId
  queue : List Inbound

/-- Members that reach each other through their routes. -/
structure Network where
  routes : List Route
  offline : List MemberId
  /-- How many envelopes were accepted for sending. -/
  sent : Nat
  nextId : Nat

namespace Network

def empty : Network := ⟨[], [], 0, 0⟩

def routeCount (net : Network) : Nat := net.routes.length

def hasRoute (net : Network) (group : String) (m : MemberId) : Bool :=
  net.routes.any fun r => decide (r.group = group ∧ r.member = m)

def setOffline (net : Network) (m : MemberId) (offline : Bool) : Network :=
  { net with
    offline := if offline then m :: net.offline else net.offline.filter (· ≠ m) }

/-- A member has at most one route for a group. -/
def subscribe (net : Network) (m : MemberId) (group : String) :
    Except TransportError Nat × Network :=
  if net.hasRoute group m then (.error (.alreadySubscribed group m), net)
  else
    (.ok net.nextId,
      { net with
        routes := net.routes ++ [⟨net.nextId, group, m, []⟩]
        nextId := net.nextId + 1 })

def release (net : Network) (id : Nat) : Network :=
  { net with routes := net.routes.filter (·.id ≠ id) }

/-- What waits on a subscription. -/
def pending (net : Network) (id : Nat) : List Inbound :=
  match net.routes.find? (·.id = id) with
  | some r => r.queue
  | none => []

def receive (net : Network) (id : Nat) : Arrival × Network :=
  match net.routes.find? (·.id = id) with
  | none => (.closed, net)
  | some r =>
    match r.queue with
    | [] => (.nothing, net)
    | e :: queue =>
      (.envelope e,
        { net with
          routes := net.routes.map fun r => if r.id = id then { r with queue := queue } else r })

/-- A broadcast reaches all other members of the group; nothing reaches a member that is offline. -/
def reaches (net : Network) (sender : MemberId) (group : String) (target : Target) (r : Route) :
    Bool :=
  decide (r.group = group ∧ r.member ∉ net.offline) &&
    match target with
    | .everyone => decide (r.member ≠ sender)
    | .only recipient => decide (r.member = recipient)

/-- A sender that is offline fails; an envelope that no route takes is lost. -/
def send (net : Network) (sender : MemberId) (group : String) (target : Target)
    (bytes : ByteArray) : Except TransportError Unit × Network :=
  if sender ∈ net.offline then (.error (.notConnected sender), net)
  else
    (.ok (),
      { net with
        sent := net.sent + 1
        routes := net.routes.map fun r =>
          if net.reaches sender group target r then
            { r with queue := r.queue ++ [⟨group, sender, bytes⟩] }
          else r })

/-- What a member sees of the network. -/
def transport (m : MemberId) : Transport Network where
  localMember := m
  subscribe group net := net.subscribe m group
  receive id net := net.receive id
  release id net := net.release id
  send group target bytes net := net.send m group target bytes

end Network

end ThresholdSigning
