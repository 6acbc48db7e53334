import ThresholdSigning.Bridge
import ThresholdSigning.Rehearsal.Act

namespace ThresholdSigning

/-- A bridge with its name and the endpoint at which it is attached. -/
structure Attachment where
  name : String
  endpoint : Endpoint
  bridge : Bridge

/-- Bridges and plain subscriptions, known by their names, over one medium. -/
structure Stage where
  medium : Medium
  attachments : List Attachment
  subscriptions : List (String × Nat)

namespace Stage

def empty : Stage := ⟨.empty, [], []⟩

def attachment? (s : Stage) (name : String) : Option Attachment :=
  s.attachments.find? (·.name = name)

/-- Replaces what is attached under the name. -/
def attach (s : Stage) (a : Attachment) : Stage :=
  { s with attachments := s.attachments.filter (·.name ≠ a.name) ++ [a] }

/-- Replaces a bridge in its place. -/
def setBridge (s : Stage) (name : String) (b : Bridge) : Stage :=
  { s with
    attachments := s.attachments.map fun a => if a.name = name then { a with bridge := b } else a }

def close (s : Stage) (name : String) : Stage :=
  match s.attachment? name with
  | none => s
  | some a =>
    let (b, m) := a.bridge.close (Medium.transport a.endpoint) s.medium
    { s with medium := m }.setBridge name b

/-- Connects a bridge under a name; the one that had the name before is closed after that. -/
def connect (s : Stage) (name : String) (endpoint : Endpoint) (group : Group) :
    Except Error Unit × Stage :=
  match Bridge.connect group (Medium.transport endpoint) s.medium with
  | (.error e, m) => (.error e, { s with medium := m })
  | (.ok b, m) => (.ok (), ({ s with medium := m }.close name).attach ⟨name, endpoint, b⟩)

/-- Sends a payload a number of times, until the first failure. -/
def send (s : Stage) (a : Attachment) (payload : ByteArray) (target : Target) :
    Nat → Except Error Unit × Stage
  | 0 => (.ok (), s)
  | times + 1 =>
    match a.bridge.send (Medium.transport a.endpoint) payload target s.medium with
    | (.error e, m) => (.error e, { s with medium := m })
    | (.ok _, m) => { s with medium := m }.send a payload target times

/-- Takes all protocol messages that wait at a bridge. -/
def takeMessages (s : Stage) (a : Attachment) : List ProtocolMessage × Stage :=
  (a.bridge.messages, s.setBridge a.name { a.bridge with messages := [] })

/-- Subscribes under a name; the subscription that had the name before is given back after that. -/
def subscribe (s : Stage) (name : String) (m : MemberId) (group : String) :
    Except TransportError Unit × Stage :=
  match s.medium.network.subscribe m group with
  | (.error e, _) => (.error e, s)
  | (.ok id, net) =>
    let net := match s.subscriptions.lookup name with
      | some old => net.release old
      | none => net
    (.ok (),
      { s with
        medium := { s.medium with network := net }
        subscriptions := (name, id) :: s.subscriptions.filter (·.1 ≠ name) })

/-- Gives a subscription back; whether there was one of the name. -/
def unsubscribe (s : Stage) (name : String) : Bool × Stage :=
  match s.subscriptions.lookup name with
  | none => (false, s)
  | some id =>
    (true,
      { s with
        medium := { s.medium with network := s.medium.network.release id }
        subscriptions := s.subscriptions.filter (·.1 ≠ name) })

/-- What waits on a subscription. -/
def pending (s : Stage) (name : String) : List Inbound :=
  match s.subscriptions.lookup name with
  | some id => s.medium.network.pending id
  | none => []

/-- Takes at most `count` of what waits on a subscription. -/
def receive (s : Stage) (name : String) (count : Nat) : List Inbound × Stage :=
  match s.subscriptions.lookup name with
  | none => ([], s)
  | some id =>
    let (taken, net) := take id s.medium.network count
    (taken, { s with medium := { s.medium with network := net } })
where
  take (id : Nat) (net : Network) : Nat → List Inbound × Network
    | 0 => ([], net)
    | count + 1 =>
      match net.receive id with
      | (.envelope e, net) =>
        let (taken, net) := take id net count
        (e :: taken, net)
      | (_, net) => ([], net)

def act (s : Stage) (a : Act) : Except TransportError Unit × Stage :=
  let (result, m) := a.apply s.medium
  (result, { s with medium := m })

/-- Lets the bridges of the given names take what comes in, one after the other. -/
def drainAll (fuel : Nat) (s : Stage) : List String → List Event × Stage
  | [] => ([], s)
  | name :: names =>
    match s.attachment? name with
    | none => s.drainAll fuel names
    | some a =>
      let (events, b, m) := a.bridge.drain (Medium.transport a.endpoint) s.medium fuel
      let (more, s) := ({ s with medium := m }.setBridge name b).drainAll fuel names
      (events ++ more, s)

def names (s : Stage) : List String := s.attachments.map (·.name)

/-- Whether a bridge has something to take. -/
def isBusy (s : Stage) : Bool :=
  s.attachments.any fun a => (a.bridge.step (Medium.transport a.endpoint) s.medium).isSome

/-- Lets all bridges take what comes in until nothing is left. -/
def settle (s : Stage) : Nat → List Event × Stage
  | 0 => ([], s)
  | fuel + 1 =>
    if s.isBusy then
      let (events, s) := s.drainAll fuel s.names
      let (more, s) := s.settle fuel
      (events ++ more, s)
    else ([], s)

end Stage

end ThresholdSigning
