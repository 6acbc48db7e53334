import ThresholdSigning.Link
import ThresholdSigning.Network

namespace ThresholdSigning

/-- A network, and links beside it. -/
structure Medium where
  network : Network
  links : List Link

/-- How a member is attached to a medium: to the network, or by the link of a number. -/
structure Endpoint where
  member : MemberId
  link : Option Nat

namespace Medium

def empty : Medium := ⟨.empty, []⟩

def link (m : Medium) (i : Nat) : Link := m.links[i]?.getD (.create ⟨.empty⟩ none true)

def setLink (m : Medium) (i : Nat) (l : Link) : Medium := { m with links := m.links.set i l }

def transport (p : Endpoint) : Transport Medium :=
  match p.link with
  | none => (Network.transport p.member).through network fun net m => { m with network := net }
  | some i => (Link.transport p.member).through (link · i) fun l m => m.setLink i l

/-- How many envelopes were sent over the network and the links. -/
def sent (m : Medium) : Nat := m.links.foldl (fun n l => n + l.outbox.length) m.network.sent

end Medium

end ThresholdSigning
