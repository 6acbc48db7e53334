import ThresholdSigning.Medium

namespace ThresholdSigning

/-- Something that happens to a medium from outside. -/
inductive Act
  /-- A plain send over the network, a number of times. -/
  | send (sender : MemberId) (group : String) (target : Target) (bytes : ByteArray) (times : Nat)
  | setOffline (m : MemberId) (offline : Bool)
  /-- Feeds a link, a number of times. -/
  | feed (link : Nat) (inbound : Inbound) (times : Nat)
  | closeFeed (link : Nat)

namespace Act

/-- Sends until the first failure. -/
def sendTimes (sender : MemberId) (group : String) (target : Target) (bytes : ByteArray)
    (net : Network) : Nat → Except TransportError Unit × Network
  | 0 => (.ok (), net)
  | times + 1 =>
    match net.send sender group target bytes with
    | (.error e, net) => (.error e, net)
    | (.ok _, net) => sendTimes sender group target bytes net times

def feedTimes (inbound : Inbound) (l : Link) : Nat → Link
  | 0 => l
  | times + 1 => feedTimes inbound (l.feed inbound) times

def apply (act : Act) (m : Medium) : Except TransportError Unit × Medium :=
  match act with
  | send sender group target bytes times =>
    let (result, net) := sendTimes sender group target bytes m.network times
    (result, { m with network := net })
  | setOffline member offline =>
    (.ok (), { m with network := m.network.setOffline member offline })
  | feed link inbound times => (.ok (), m.setLink link (feedTimes inbound (m.link link) times))
  | closeFeed link => (.ok (), m.setLink link (m.link link).closeFeed)

end Act

end ThresholdSigning
