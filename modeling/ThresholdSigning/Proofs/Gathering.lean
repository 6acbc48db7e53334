import ThresholdSigning.Bridge
import ThresholdSigning.Proofs.Network
import ThresholdSigning.Proofs.Screening

namespace ThresholdSigning

/-- A payload that a bridge sent with success, and who was offline at that time. -/
structure Sending where
  sender : MemberId
  group : String
  payload : ByteArray
  target : Target
  offline : List MemberId

/-- A bridge to a network, with what was read from it. -/
structure Station where
  bridge : Bridge
  read : List ProtocolMessage
  /-- How much had been sent when the bridge was connected. -/
  since : Nat

inductive Deed
  | send (payload : ByteArray) (target : Target)
  | join
  | dispatch
  | read
  | heed
  | close

namespace Station

/-- All round messages that the bridge ever delivered. -/
def stream (s : Station) : List ProtocolMessage := s.read ++ s.bridge.messages

def transport (s : Station) : Transport Network := Network.transport s.bridge.group.localMember

/-- The effect of a deed on the bridge and the network, and what is sent by it. -/
def act (s : Station) (net : Network) : Deed → Station × Network × List Sending
  | .send payload target =>
    match s.bridge.send s.transport payload target net with
    | (.error _, left) => (s, left, [])
    | (.ok _, left) =>
      (s, left, [⟨s.bridge.group.localMember, s.bridge.group.id, payload, target, net.offline⟩])
  | .join => (s, (s.bridge.broadcastJoin s.transport net).2, [])
  | .dispatch =>
    match s.bridge.step s.transport net with
    | none => (s, net, [])
    | some (_, b, left) => ({ s with bridge := b }, left, [])
  | .read =>
    match s.bridge.messages with
    | [] => (s, net, [])
    | m :: messages =>
      ({ s with bridge := { s.bridge with messages := messages }, read := s.read ++ [m] }, net, [])
  | .heed => ({ s with bridge := { s.bridge with signals := s.bridge.signals.tail } }, net, [])
  | .close =>
    let (b, left) := s.bridge.close s.transport net
    ({ s with bridge := b }, left, [])

end Station

/-- Members that share a network, and all that their bridges have sent over it. -/
structure Gathering where
  network : Network
  stations : List Station
  sendings : List Sending

namespace Gathering

/-- What can happen next. A subscription of a bridge is used by that bridge alone; all else can be
done by anyone, past the bridges and with any bytes. -/
inductive Move
  | connect (m : MemberId) (g : Group)
  | act (subscription : Nat) (deed : Deed)
  | setOffline (m : MemberId) (offline : Bool)
  | subscribe (m : MemberId) (group : String)
  | receive (subscription : Nat)
  | release (subscription : Nat)
  | post (m : MemberId) (group : String) (target : Target) (bytes : ByteArray)

def empty : Gathering := ⟨.empty, [], []⟩

def station? (w : Gathering) (subscription : Nat) : Option Station :=
  w.stations.find? (·.bridge.subscription = subscription)

/-- A move that is impossible changes nothing. -/
def step (w : Gathering) : Move → Gathering
  | .connect m g =>
    match Bridge.connect g (Network.transport m) w.network with
    | (.error _, left) => { w with network := left }
    | (.ok b, left) =>
      { w with network := left, stations := w.stations ++ [⟨b, [], w.sendings.length⟩] }
  | .act subscription deed =>
    match w.station? subscription with
    | none => w
    | some s =>
      let (s, left, said) := s.act w.network deed
      { network := left
        stations := w.stations.map fun x => if x.bridge.subscription = subscription then s else x
        sendings := w.sendings ++ said }
  | .setOffline m offline => { w with network := w.network.setOffline m offline }
  | .subscribe m group => { w with network := (w.network.subscribe m group).2 }
  | .receive subscription =>
    if (w.station? subscription).isSome then w
    else { w with network := (w.network.receive subscription).2 }
  | .release subscription =>
    if (w.station? subscription).isSome then w
    else { w with network := w.network.release subscription }
  | .post m group target bytes =>
    { w with network := (w.network.send m group target bytes).2 }

def run (moves : List Move) : Gathering := moves.foldl step empty

end Gathering

namespace Bridge

variable {b : Bridge} {m : MemberId} {net : Network}

theorem publish_network (b : Bridge) (m : MemberId) (e : Envelope) (target : Target)
    (net : Network) :
    (∃ error, b.publish (Network.transport m) e target net = (.error error, net)) ∨
      ∃ bytes, e.encode = .ok bytes ∧ m ∉ net.offline ∧
        b.publish (Network.transport m) e target net =
          (.ok (), (net.send m b.group.id target bytes).2) := by
  unfold publish
  cases he : e.encode with
  | error error => exact Or.inl ⟨error, rfl⟩
  | ok bytes =>
    by_cases hoff : m ∈ net.offline
    · exact Or.inl ⟨.transport (.notConnected m), by simp [Network.transport, Network.send, hoff]⟩
    · refine Or.inr ⟨bytes, rfl, hoff, ?_⟩
      simp [Network.transport, Network.send, hoff]

theorem send_network (b : Bridge) (m : MemberId) (payload : ByteArray) (target : Target)
    (net : Network) :
    (∃ error, b.send (Network.transport m) payload target net = (.error error, net)) ∨
      ∃ bytes, (Envelope.protocol
          ⟨b.group.localMember, payload, decide (target = .everyone)⟩).encode = .ok bytes ∧
        m ∉ net.offline ∧
        b.send (Network.transport m) payload target net =
          (.ok (), (net.send m b.group.id target bytes).2) := by
  unfold send
  split
  next rejection _ => exact Or.inl ⟨.unexpectedMessage rejection, rfl⟩
  next => exact publish_network b m _ target net

end Bridge

namespace Station

/-- What a bridge can publish in one go: nothing, a signal, or a message that counts as sent. -/
inductive Published (s : Station) (net : Network) : Network → List Sending → Prop
  | nothing : s.Published net net []
  | signal {e : Envelope} {bytes : ByteArray} (he : e.encode = .ok bytes)
      (hsignal : ∀ m, e ≠ .protocol m) :
      s.Published net
        (net.send s.bridge.group.localMember s.bridge.group.id .everyone bytes).2 []
  | message {payload : ByteArray} {target : Target} {bytes : ByteArray}
      (he : (Envelope.protocol
        ⟨s.bridge.group.localMember, payload, decide (target = .everyone)⟩).encode = .ok bytes)
      (honline : s.bridge.group.localMember ∉ net.offline) :
      s.Published net (net.send s.bridge.group.localMember s.bridge.group.id target bytes).2
        [⟨s.bridge.group.localMember, s.bridge.group.id, payload, target, net.offline⟩]

/-- All that a deed can come to. -/
inductive Acts (s : Station) (net : Network) : Station → Network → List Sending → Prop
  | publish {left : Network} {said : List Sending} (hleft : s.Published net left said) :
      s.Acts net s left said
  | consume {read messages : List ProtocolMessage} (signals : List Signal)
      (hstream : read ++ messages = s.stream) :
      s.Acts net
        { s with
          bridge := { s.bridge with messages := messages, signals := signals }
          read := read }
        net []
  | take {inbound : Inbound} {rest left : Network} (hopen : s.bridge.isOpen = true)
      (hreceive : net.receive s.bridge.subscription = (.envelope inbound, rest))
      (hleft : s.Published rest left []) :
      s.Acts net { s with bridge := (s.bridge.dispatch s.transport inbound rest).2.1 } left []
  | close : s.Acts net { s with bridge := { s.bridge with isOpen := false } }
      (net.release s.bridge.subscription) []

/-- What holds of a bridge and its network from when the bridge is connected. -/
structure Attached (s : Station) (net : Network) : Prop where
  subscription_lt : s.bridge.subscription < net.nextId
  announce_eq : (Envelope.announce s.bridge.group.localMember).encode = .ok s.bridge.announce
  address : s.bridge.isOpen = true →
    net.address? s.bridge.subscription = some (s.bridge.group.id, s.bridge.group.localMember)

variable {s s' : Station} {net left : Network} {said : List Sending}

theorem acts_close : s.Acts net { s with bridge := (s.bridge.close s.transport net).1 }
    (s.bridge.close s.transport net).2 [] := by
  unfold Bridge.close
  by_cases hopen : s.bridge.isOpen = true
  · rw [if_pos hopen]
    exact .close
  · rw [if_neg hopen]
    exact .publish .nothing

theorem acts_dispatch (h : s.Attached net) (hact : s.act net .dispatch = (s', left, said)) :
    s.Acts net s' left said := by
  simp only [act, Bridge.step] at hact
  by_cases hopen : s.bridge.isOpen = true
  · rw [if_pos hopen] at hact
    have hreceive : s.transport.receive s.bridge.subscription net =
      net.receive s.bridge.subscription := rfl
    rw [hreceive] at hact
    rcases Network.receive_of_address? (h.address hopen) with
      ⟨-, hr⟩ | ⟨inbound, rest, hr, -, -⟩
    · rw [hr] at hact
      cases hact
      exact .publish .nothing
    · have hpublished : s.Published rest (s.bridge.dispatch s.transport inbound rest).2.2 [] := by
        rcases Bridge.dispatch_state_eq s.bridge s.transport inbound rest with hs | hs
        · rw [hs]
          exact .nothing
        · rw [hs]
          exact .signal h.announce_eq (by simp)
      rw [hr] at hact
      cases hact
      exact .take hopen hr hpublished
  · rw [if_neg hopen] at hact
    cases hact
    exact .publish .nothing

theorem acts_of_act (h : s.Attached net) {deed : Deed} (hact : s.act net deed = (s', left, said)) :
    s.Acts net s' left said := by
  cases deed with
  | send payload target =>
    simp only [act, transport] at hact
    rcases s.bridge.send_network s.bridge.group.localMember payload target net with
      ⟨error, hsend⟩ | ⟨bytes, he, honline, hsend⟩
    · rw [hsend] at hact
      cases hact
      exact .publish .nothing
    · rw [hsend] at hact
      cases hact
      exact .publish (.message he honline)
  | join =>
    simp only [act, transport, Bridge.broadcastJoin] at hact
    rcases s.bridge.publish_network s.bridge.group.localMember
      (.join s.bridge.group.localMember) .everyone net with
      ⟨error, hsend⟩ | ⟨bytes, he, honline, hsend⟩
    · rw [hsend] at hact
      cases hact
      exact .publish .nothing
    · rw [hsend] at hact
      cases hact
      exact .publish (.signal he (by simp))
  | dispatch => exact acts_dispatch h hact
  | read =>
    simp only [act] at hact
    split at hact
    next =>
      cases hact
      exact .publish .nothing
    next m messages hm =>
      cases hact
      exact .consume s.bridge.signals (by simp [stream, hm])
  | heed =>
    cases hact
    exact .consume s.bridge.signals.tail rfl
  | close =>
    cases hact
    exact acts_close

theorem Acts.kept (h : s.Acts net s' left said) :
    s'.bridge.group = s.bridge.group ∧ s'.bridge.subscription = s.bridge.subscription ∧
      s'.bridge.announce = s.bridge.announce ∧ s'.since = s.since ∧
      (s'.bridge.isOpen = true → s.bridge.isOpen = true) := by
  cases h with
  | publish _ => exact ⟨rfl, rfl, rfl, rfl, id⟩
  | consume _ _ => exact ⟨rfl, rfl, rfl, rfl, id⟩
  | @take inbound rest _ _ _ _ =>
    obtain ⟨signals, he⟩ := Bridge.dispatch_bridge_eq s.bridge s.transport inbound rest
    dsimp only
    rw [he]
    exact ⟨rfl, rfl, rfl, rfl, id⟩
  | close => exact ⟨rfl, rfl, rfl, rfl, fun h => by cases h⟩

theorem Published.advances (h : s.Published net left said) : net.Advances left := by
  cases h with
  | nothing => exact .refl net
  | signal _ _ => exact Network.advances_send _ _
  | message _ _ => exact Network.advances_send _ _

theorem Published.address? (h : s.Published net left said) (subscription : Nat) :
    left.address? subscription = net.address? subscription := by
  cases h with
  | nothing => rfl
  | signal _ _ => exact Network.address?_send _ _
  | message _ _ => exact Network.address?_send _ _

theorem Acts.advances (h : s.Acts net s' left said) : net.Advances left := by
  cases h with
  | publish hleft => exact hleft.advances
  | consume _ _ => exact .refl net
  | @take inbound rest _ _ hreceive hleft =>
    have hrest : net.Advances rest := by
      have hr := Network.advances_receive net s.bridge.subscription
      rwa [hreceive] at hr
    exact hrest.trans hleft.advances
  | close => exact Network.advances_release

theorem Acts.address? (h : s.Acts net s' left said) {subscription : Nat}
    (hkept : subscription ≠ s.bridge.subscription ∨ s'.bridge.isOpen = true) :
    left.address? subscription = net.address? subscription := by
  cases h with
  | publish hleft => exact hleft.address? subscription
  | consume _ _ => rfl
  | @take inbound rest _ _ hreceive hleft =>
    have hr := Network.address?_receive net subscription s.bridge.subscription
    rw [hreceive] at hr
    rw [hleft.address? subscription, hr]
  | close =>
    rcases hkept with hne | hopen
    · exact Network.address?_release_other hne
    · cases hopen

theorem Attached.of_address? (h : s.Attached net) (hadvances : net.Advances left)
    (haddress : s.bridge.isOpen = true →
      left.address? s.bridge.subscription = net.address? s.bridge.subscription) :
    s.Attached left where
  subscription_lt := Nat.lt_of_lt_of_le h.subscription_lt hadvances.nextId_le
  announce_eq := h.announce_eq
  address := fun hopen => (haddress hopen).trans (h.address hopen)

theorem Attached.act (h : s.Attached net) (hacts : s.Acts net s' left said) : s'.Attached left := by
  obtain ⟨hgroup, hsubscription, hannounce, -, hopen⟩ := hacts.kept
  constructor
  · rw [hsubscription]
    exact Nat.lt_of_lt_of_le h.subscription_lt hacts.advances.nextId_le
  · rw [hgroup, hannounce]
    exact h.announce_eq
  · intro hstill
    rw [hsubscription, hgroup, hacts.address? (Or.inr hstill)]
    exact h.address (hopen hstill)

end Station

namespace Gathering

structure Attached (w : Gathering) : Prop where
  numbered : w.network.Numbered
  stations : ∀ s ∈ w.stations, s.Attached w.network

/-- A change of the network that no open bridge notices. -/
structure Quiet (w : Gathering) (left : Network) : Prop where
  advances : w.network.Advances left
  address : ∀ s ∈ w.stations, s.bridge.isOpen = true →
    left.address? s.bridge.subscription = w.network.address? s.bridge.subscription
  pending : ∀ s ∈ w.stations, s.bridge.isOpen = true →
    left.pending s.bridge.subscription = w.network.pending s.bridge.subscription

/-- All that a move can come to. -/
inductive Steps (w : Gathering) : Move → Gathering → Prop
  | quiet {move : Move} {left : Network} (hquiet : w.Quiet left) :
      w.Steps move { w with network := left }
  | post (m : MemberId) (group : String) (target : Target) (bytes : ByteArray) :
      w.Steps (.post m group target bytes)
        { w with network := (w.network.send m group target bytes).2 }
  | connect {m : MemberId} {g : Group} {b : Bridge} {left : Network}
      (hconnect : Bridge.connect g (Network.transport m) w.network = (.ok b, left))
      (hquiet : w.Quiet left) :
      w.Steps (.connect m g)
        { w with network := left, stations := w.stations ++ [⟨b, [], w.sendings.length⟩] }
  | act {deed : Deed} {s s' : Station} {left : Network} {said : List Sending}
      (hs : s ∈ w.stations) (hacts : s.Acts w.network s' left said) :
      w.Steps (.act s.bridge.subscription deed)
        { network := left
          stations := w.stations.map fun x =>
            if x.bridge.subscription = s.bridge.subscription then s' else x
          sendings := w.sendings ++ said }

variable {w w' : Gathering} {left : Network}

theorem quiet_refl (w : Gathering) : w.Quiet w.network :=
  ⟨.refl _, fun _ _ _ => rfl, fun _ _ _ => rfl⟩

theorem Attached.quiet_subscribe (h : w.Attached) (m : MemberId) (group : String) :
    w.Quiet (w.network.subscribe m group).2 := by
  refine ⟨Network.advances_subscribe, ?_, ?_⟩
  · intro s hs hopen
    have ha := (h.stations s hs).address hopen
    rw [ha, Network.address?_subscribe_of_address? ha]
  · intro s hs hopen
    exact Network.pending_subscribe_of_address? ((h.stations s hs).address hopen)

/-- The subscription of a bridge that could not be connected is released at once. -/
theorem Attached.quiet_connect (h : w.Attached) (m : MemberId) (g : Group) :
    w.Quiet (Bridge.connect g (Network.transport m) w.network).2 := by
  have hsubscribed := h.quiet_subscribe m g.id
  rcases Bridge.connect_state_eq g (Network.transport m) w.network with
    hs | hs | ⟨id, left, hsubscribe, hs⟩
  · rw [hs]
    exact quiet_refl w
  · rw [hs]
    exact hsubscribed
  · have hcall : w.network.subscribe m g.id = (.ok id, left) := hsubscribe
    have hid := (Network.subscribe_eq_ok h.numbered hcall).1
    have hne (s : Station) (hs : s ∈ w.stations) : s.bridge.subscription ≠ id := by
      have hlt := (h.stations s hs).subscription_lt
      omega
    rw [hcall] at hsubscribed
    rw [hs]
    refine ⟨hsubscribed.advances.trans Network.advances_release, ?_, ?_⟩
    · intro s hs hopen
      rw [← hsubscribed.address s hs hopen]
      exact Network.address?_release_other (hne s hs)
    · intro s hs hopen
      rw [← hsubscribed.pending s hs hopen]
      exact Network.pending_release_other (hne s hs)

theorem steps_step (h : w.Attached) (move : Move) : w.Steps move (w.step move) := by
  have hnone {subscription : Nat} (hs : ¬ (w.station? subscription).isSome) (s : Station)
      (hmem : s ∈ w.stations) : s.bridge.subscription ≠ subscription := by
    unfold station? at hs
    simp only [List.find?_isSome, decide_eq_true_eq, not_exists, not_and] at hs
    exact hs s hmem
  cases move with
  | connect m g =>
    have hquiet := h.quiet_connect m g
    simp only [step]
    rcases hc : Bridge.connect g (Network.transport m) w.network with ⟨result, left⟩
    rw [hc] at hquiet
    cases result with
    | error e => exact .quiet hquiet
    | ok b => exact .connect hc hquiet
  | act subscription deed =>
    simp only [step]
    cases hs : w.station? subscription with
    | none => exact .quiet (quiet_refl w)
    | some s =>
      have hmem : s ∈ w.stations := List.mem_of_find?_eq_some hs
      have hsubscription : s.bridge.subscription = subscription := by
        simpa using List.find?_some hs
      subst hsubscription
      exact .act hmem (Station.acts_of_act (h.stations s hmem) rfl)
  | setOffline m offline =>
    exact .quiet ⟨Network.advances_setOffline offline, fun _ _ _ => rfl, fun _ _ _ => rfl⟩
  | subscribe m group => exact .quiet (h.quiet_subscribe m group)
  | receive subscription =>
    simp only [step]
    by_cases hs : (w.station? subscription).isSome
    · rw [if_pos hs]
      exact .quiet (quiet_refl w)
    · rw [if_neg hs]
      exact .quiet ⟨Network.advances_receive _ _, fun _ _ _ => Network.address?_receive _ _ _,
        fun s hmem _ => Network.pending_receive_other _ (hnone hs s hmem)⟩
  | release subscription =>
    simp only [step]
    by_cases hs : (w.station? subscription).isSome
    · rw [if_pos hs]
      exact .quiet (quiet_refl w)
    · rw [if_neg hs]
      exact .quiet ⟨Network.advances_release,
        fun s hmem _ => Network.address?_release_other (hnone hs s hmem),
        fun s hmem _ => Network.pending_release_other (hnone hs s hmem)⟩
  | post m group target bytes => exact .post m group target bytes

theorem Attached.step {move : Move} (h : w.Attached) (hstep : w.Steps move w') : w'.Attached := by
  cases hstep with
  | quiet hquiet =>
    exact ⟨hquiet.advances.numbered h.numbered, fun s hs =>
      (h.stations s hs).of_address? hquiet.advances (hquiet.address s hs)⟩
  | post m group target bytes =>
    exact ⟨(Network.advances_send target bytes).numbered h.numbered, fun s hs =>
      (h.stations s hs).of_address? (Network.advances_send target bytes) fun _ =>
        Network.address?_send target bytes⟩
  | @connect m g b left hconnect hquiet =>
    refine ⟨hquiet.advances.numbered h.numbered, ?_⟩
    intro s hs
    rcases List.mem_append.mp hs with hold | hnew
    · exact (h.stations s hold).of_address? hquiet.advances (hquiet.address s hold)
    · obtain ⟨hlocal, hb, hsubscribe, hannounce⟩ := Bridge.connect_eq_ok hconnect
      obtain ⟨hid, hnext, haddress, -⟩ := Network.subscribe_eq_ok h.numbered hsubscribe
      have hm : m = g.localMember := hlocal
      have hgroup : b.group = g := by rw [hb]; rfl
      rw [List.mem_singleton.mp hnew]
      refine ⟨?_, ?_, ?_⟩
      · dsimp only
        omega
      · dsimp only
        rw [hgroup]
        exact hannounce
      · intro _
        dsimp only
        rw [hgroup, haddress, hm]
  | @act deed s s' left said hs hacts =>
    refine ⟨hacts.advances.numbered h.numbered, ?_⟩
    intro x hx
    obtain ⟨y, hy, rfl⟩ := List.mem_map.mp hx
    dsimp only
    by_cases hsame : y.bridge.subscription = s.bridge.subscription
    · rw [if_pos hsame]
      exact (h.stations s hs).act hacts
    · rw [if_neg hsame]
      exact (h.stations y hy).of_address? hacts.advances fun _ => hacts.address? (Or.inl hsame)

theorem attached_empty : empty.Attached :=
  ⟨(by intro r hr; cases hr), (by intro s hs; cases hs)⟩

theorem run_append_singleton (moves : List Move) (move : Move) :
    run (moves ++ [move]) = (run moves).step move := by
  simp [run, List.foldl_append]

theorem attached_run (moves : List Move) : (run moves).Attached := by
  induction moves using List.reverseRecOn with
  | nil => exact attached_empty
  | append_singleton moves move ih =>
    rw [run_append_singleton]
    exact ih.step (steps_step ih move)

end Gathering

end ThresholdSigning
