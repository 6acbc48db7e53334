import ThresholdSigning.Proofs.Gathering
import ThresholdSigning.Proofs.Queue

namespace ThresholdSigning

namespace Network

variable {net net' left mid : Network} {id id' : Nat} {sender m : MemberId} {group other : String}
  {own : Option Nat}

/-- Two networks that the members of a group cannot tell apart. -/
structure Alike (group : String) (net net' : Network) : Prop where
  offline : net.offline = net'.offline
  queue : ∀ m, net.queue? (group, m) = net'.queue? (group, m)

theorem Alike.trans {a b c : Network} (hab : Alike group a b) (hbc : Alike group b c) :
    Alike group a c :=
  ⟨hab.offline.trans hbc.offline, fun m => (hab.queue m).trans (hbc.queue m)⟩

theorem Alike.setOffline (h : Alike group net net') (m : MemberId) (offline : Bool) :
    Alike group (net.setOffline m offline) (net'.setOffline m offline) where
  offline := by
    unfold Network.setOffline
    rw [h.offline]
  queue := h.queue

theorem Alike.send (h : Alike group net net') (sender : MemberId) (other : String)
    (target : Target) (bytes : ByteArray) :
    (net.send sender other target bytes).1 = (net'.send sender other target bytes).1 ∧
      Alike group (net.send sender other target bytes).2
        (net'.send sender other target bytes).2 := by
  refine ⟨?_, ?_, ?_⟩
  · unfold Network.send
    rw [h.offline]
    split <;> rfl
  · rw [offline_send, offline_send, h.offline]
  · intro m
    have hsame : net.arrivals sender other target bytes (group, m) =
        net'.arrivals sender other target bytes (group, m) := by
      unfold arrivals
      rw [h.offline]
    rw [queue?_send, queue?_send, h.queue, hsame]

theorem Alike.subscribe (h : Alike group net net') (m : MemberId) :
    ((net.subscribe m group).1.map fun _ => ()) = (net'.subscribe m group).1.map (fun _ => ()) ∧
      Alike group (net.subscribe m group).2 (net'.subscribe m group).2 := by
  refine ⟨?_, ?_, ?_⟩
  · unfold Network.subscribe
    rw [hasRoute_eq_isSome, hasRoute_eq_isSome, h.queue]
    split <;> rfl
  · rw [offline_subscribe, offline_subscribe, h.offline]
  · intro m'
    rw [queue?_subscribe, queue?_subscribe, h.queue]

theorem Alike.receive (h : Alike group net net') (htidy : net.Tidy) (htidy' : net'.Tidy)
    (ha : net.address? id = some (group, m)) (ha' : net'.address? id' = some (group, m)) :
    (net.receive id).1 = (net'.receive id').1 ∧
      Alike group (net.receive id).2 (net'.receive id').2 := by
  have hpending : net.pending id = net'.pending id' := by
    have hqueue := h.queue m
    rw [htidy.queue?_of_address? ha, htidy'.queue?_of_address? ha'] at hqueue
    exact Option.some.inj hqueue
  refine ⟨?_, ?_, ?_⟩
  · rw [receive_fst_of_address? ha, receive_fst_of_address? ha', hpending]
  · rw [offline_receive, offline_receive, h.offline]
  · intro m'
    rw [htidy.queue?_receive ha, htidy'.queue?_receive ha', h.queue]

theorem Alike.release (h : Alike group net net') (htidy : net.Tidy) (htidy' : net'.Tidy)
    (ha : net.address? id = some (group, m)) (ha' : net'.address? id' = some (group, m)) :
    Alike group (net.release id) (net'.release id') where
  offline := h.offline
  queue := by
    intro m'
    rw [htidy.queue?_release ha, htidy'.queue?_release ha', h.queue]

/-- A change of a network for one group, made with at most one subscription. -/
structure Confined (group : String) (own : Option Nat) (net left : Network) : Prop where
  advances : net.Advances left
  tidy : left.Tidy
  offline : left.offline = net.offline
  queue : ∀ address, address.1 ≠ group → left.queue? address = net.queue? address
  address : ∀ id address, own ≠ some id → net.address? id = some address →
    left.address? id = some address

theorem Tidy.confined_refl (h : net.Tidy) (group : String) (own : Option Nat) :
    Confined group own net net :=
  ⟨.refl net, h, rfl, fun _ _ => rfl, fun _ _ _ ha => ha⟩

theorem Confined.trans (h : Confined group own net mid) (h' : Confined group own mid left) :
    Confined group own net left where
  advances := h.advances.trans h'.advances
  tidy := h'.tidy
  offline := h'.offline.trans h.offline
  queue := fun address hne => (h'.queue address hne).trans (h.queue address hne)
  address := fun id address hid ha => h'.address id address hid (h.address id address hid ha)

theorem Confined.alike (h : Confined group own net left) (hne : other ≠ group) :
    Alike other left net :=
  ⟨h.offline, fun m => h.queue (other, m) hne⟩

theorem Tidy.confined_send (h : net.Tidy) (sender : MemberId) (group : String) (target : Target)
    (bytes : ByteArray) (own : Option Nat) :
    Confined group own net (net.send sender group target bytes).2 where
  advances := advances_send target bytes
  tidy := h.send target bytes
  offline := offline_send target bytes
  queue := by
    intro address hne
    have hnothing : net.arrivals sender group target bytes address = [] := by
      unfold arrivals
      rw [if_neg fun hreach => hne hreach.2.1]
    rw [queue?_send, hnothing]
    simp
  address := fun id address _ ha => (address?_send target bytes).trans ha

theorem Tidy.confined_subscribe (h : net.Tidy) (m : MemberId) (group : String)
    (own : Option Nat) : Confined group own net (net.subscribe m group).2 where
  advances := advances_subscribe
  tidy := h.subscribe
  offline := offline_subscribe
  queue := by
    intro address hne
    rw [queue?_subscribe, if_neg fun he => hne (congrArg Prod.fst he)]
  address := fun id address _ ha => address?_subscribe_of_address? ha

theorem Tidy.confined_receive (h : net.Tidy) (ha : net.address? id = some (group, m)) :
    Confined group (some id) net (net.receive id).2 where
  advances := advances_receive net id
  tidy := h.receive id
  offline := offline_receive
  queue := by
    intro address hne
    rw [h.queue?_receive ha, if_neg fun he => hne (congrArg Prod.fst he)]
  address := fun other address _ ha' => (address?_receive net other id).trans ha'

theorem Tidy.confined_release (h : net.Tidy) (ha : net.address? id = some (group, m)) :
    Confined group (some id) net (net.release id) where
  advances := advances_release
  tidy := h.release id
  offline := rfl
  queue := by
    intro address hne
    rw [h.queue?_release ha, if_neg fun he => hne (congrArg Prod.fst he)]
  address := by
    intro other address hother ha'
    rw [address?_release_other fun he => hother (congrArg some he.symm)]
    exact ha'

end Network

inductive Answer
  | impossible
  | done
  | subscribed (result : Except TransportError Unit)
  | connected (result : Except Error Unit)
  | received (arrival : Arrival)
  | sent (result : Except TransportError Unit)
  | published (result : Except Error Unit)
  /-- Nothing came in, or something did and left an event where it was discarded. -/
  | dispatched (event : Option (Option Event))
  | read (message : Option ProtocolMessage)
  | heeded (signal : Option Signal)

namespace Bridge

variable {τ : Type} {b b' : Bridge} {net net' left : Network} {m : MemberId} {deed : Deed}
  {answer : Answer}

/-- The same bridge where its subscription is known by another number. -/
def relabel (b : Bridge) (n : Nat) : Bridge := { b with subscription := n }

/-- The subscription that a bridge holds until it is closed. -/
def own? (b : Bridge) : Option Nat := if b.isOpen then some b.subscription else none

def act (b : Bridge) (net : Network) : Deed → Answer × Bridge × Network
  | .send payload target =>
    let (result, left) := b.send (Network.transport b.group.localMember) payload target net
    (.published result, b, left)
  | .join =>
    let (result, left) := b.broadcastJoin (Network.transport b.group.localMember) net
    (.published result, b, left)
  | .dispatch =>
    match b.step (Network.transport b.group.localMember) net with
    | none => (.dispatched none, b, net)
    | some (event, b, left) => (.dispatched (some event), b, left)
  | .read =>
    match b.messages with
    | [] => (.read none, b, net)
    | m :: messages => (.read (some m), { b with messages := messages }, net)
  | .heed =>
    match b.signals with
    | [] => (.heeded none, b, net)
    | signal :: signals => (.heeded (some signal), { b with signals := signals }, net)
  | .close =>
    let (b, left) := b.close (Network.transport b.group.localMember) net
    (.done, b, left)

/-- An open bridge has its subscription for its group and its local member. -/
def Bound (b : Bridge) (net : Network) : Prop :=
  ∀ id, b.own? = some id → net.address? id = some (b.group.id, b.group.localMember)

theorem signal_relabel (b : Bridge) (n : Nat) (signal : Signal) :
    (b.relabel n).signal signal = (b.signal signal).relabel n := by
  by_cases hroom : b.signals.length < signalCapacity <;> simp [Bridge.signal, relabel, hroom]

theorem dispatch_relabel (b : Bridge) (n : Nat) (t : Transport τ) (inbound : Inbound) (s : τ) :
    (b.relabel n).dispatch t inbound s =
      ((b.dispatch t inbound s).1, (b.dispatch t inbound s).2.1.relabel n,
        (b.dispatch t inbound s).2.2) := by
  have hscreen : (b.relabel n).screen inbound = b.screen inbound := rfl
  unfold dispatch
  rw [hscreen]
  cases b.screen inbound with
  | error e => rfl
  | ok e =>
    cases e with
    | protocol m => rfl
    | join sender => simp only [accept, signal_relabel]; rfl
    | announce sender => simp only [accept, signal_relabel]

theorem alike_publish {group : String} (h : Network.Alike group net net') (b : Bridge)
    (m : MemberId) (e : Envelope) (target : Target) :
    (b.publish (Network.transport m) e target net).1 =
        (b.publish (Network.transport m) e target net').1 ∧
      Network.Alike group (b.publish (Network.transport m) e target net).2
        (b.publish (Network.transport m) e target net').2 := by
  cases he : e.encode with
  | error error => simpa only [publish, he, true_and] using h
  | ok bytes =>
    obtain ⟨hresult, hleft⟩ := h.send m b.group.id target bytes
    simp only [publish, he, Network.transport]
    rcases hs : net.send m b.group.id target bytes with ⟨result, left⟩
    rcases hs' : net'.send m b.group.id target bytes with ⟨result', left'⟩
    rw [hs, hs'] at hresult hleft
    cases hresult
    cases result with
    | error error => exact ⟨rfl, hleft⟩
    | ok _ => exact ⟨rfl, hleft⟩

theorem alike_send {group : String} (h : Network.Alike group net net') (b : Bridge)
    (m : MemberId) (payload : ByteArray) (target : Target) :
    (b.send (Network.transport m) payload target net).1 =
        (b.send (Network.transport m) payload target net').1 ∧
      Network.Alike group (b.send (Network.transport m) payload target net).2
        (b.send (Network.transport m) payload target net').2 := by
  unfold send
  cases b.refusal? target with
  | some rejection => exact ⟨rfl, h⟩
  | none => exact alike_publish h b m _ target

theorem alike_dispatch {group : String} (h : Network.Alike group net net') (b : Bridge)
    (m : MemberId) (inbound : Inbound) :
    (b.dispatch (Network.transport m) inbound net).1 =
        (b.dispatch (Network.transport m) inbound net').1 ∧
      (b.dispatch (Network.transport m) inbound net).2.1 =
        (b.dispatch (Network.transport m) inbound net').2.1 ∧
      Network.Alike group (b.dispatch (Network.transport m) inbound net).2.2
        (b.dispatch (Network.transport m) inbound net').2.2 := by
  unfold dispatch
  cases b.screen inbound with
  | error e => exact ⟨rfl, rfl, h⟩
  | ok e =>
    cases e with
    | protocol m => exact ⟨rfl, rfl, h⟩
    | join sender => exact ⟨rfl, rfl, (h.send m b.group.id .everyone b.announce).2⟩
    | announce sender => exact ⟨rfl, rfl, h⟩

theorem confined_publish (h : net.Tidy) (b : Bridge) (m : MemberId) (e : Envelope)
    (target : Target) (own : Option Nat) :
    Network.Confined b.group.id own net (b.publish (Network.transport m) e target net).2 := by
  rcases publish_network b m e target net with ⟨error, hp⟩ | ⟨bytes, -, -, hp⟩
  · rw [hp]
    exact h.confined_refl _ _
  · rw [hp]
    exact h.confined_send _ _ _ _ _

theorem confined_send (h : net.Tidy) (b : Bridge) (m : MemberId) (payload : ByteArray)
    (target : Target) (own : Option Nat) :
    Network.Confined b.group.id own net (b.send (Network.transport m) payload target net).2 := by
  rcases send_network b m payload target net with ⟨error, hp⟩ | ⟨bytes, -, -, hp⟩
  · rw [hp]
    exact h.confined_refl _ _
  · rw [hp]
    exact h.confined_send _ _ _ _ _

theorem confined_dispatch (h : net.Tidy) (b : Bridge) (m : MemberId) (inbound : Inbound)
    (own : Option Nat) :
    Network.Confined b.group.id own net (b.dispatch (Network.transport m) inbound net).2.2 := by
  rcases dispatch_state_eq b (Network.transport m) inbound net with hs | hs
  · rw [hs]
    exact h.confined_refl _ _
  · rw [hs]
    exact h.confined_send _ _ _ _ _

theorem confined_connect (h : net.Tidy) (g : Group) (m : MemberId) :
    Network.Confined g.id none net (connect g (Network.transport m) net).2 := by
  have hsubscribed := h.confined_subscribe m g.id none
  rcases connect_state_eq g (Network.transport m) net with hs | hs | ⟨id, left, hsubscribe, hs⟩
  · rw [hs]
    exact h.confined_refl _ _
  · rw [hs]
    exact hsubscribed
  · have hcall : net.subscribe m g.id = (.ok id, left) := hsubscribe
    obtain ⟨hid, -, haddress, -⟩ := Network.subscribe_eq_ok h.numbered hcall
    rw [hcall] at hsubscribed
    rw [hs]
    have hrelease := hsubscribed.tidy.confined_release haddress
    refine ⟨hsubscribed.advances.trans hrelease.advances, hrelease.tidy,
      hrelease.offline.trans hsubscribed.offline,
      fun address hne => (hrelease.queue address hne).trans (hsubscribed.queue address hne), ?_⟩
    -- The released number is new, so that no older subscription goes with it.
    intro other address _ ha
    refine hrelease.address other address ?_ (hsubscribed.address other address (by simp) ha)
    rintro ⟨⟩
    exact absurd hid (Nat.ne_of_lt (h.numbered.lt_nextId ha))

theorem alike_act (h : Network.Alike b.group.id net net') (htidy : net.Tidy)
    (htidy' : net'.Tidy) {n : Nat} (hb : b.Bound net) (hb' : (b.relabel n).Bound net')
    (deed : Deed) :
    (b.act net deed).1 = ((b.relabel n).act net' deed).1 ∧
      ((b.relabel n).act net' deed).2.1 = (b.act net deed).2.1.relabel n ∧
      Network.Alike b.group.id (b.act net deed).2.2 ((b.relabel n).act net' deed).2.2 := by
  cases deed with
  | send payload target =>
    obtain ⟨hresult, hleft⟩ := alike_send h b b.group.localMember payload target
    exact ⟨congrArg Answer.published hresult, rfl, hleft⟩
  | join =>
    obtain ⟨hresult, hleft⟩ :=
      alike_publish h b b.group.localMember (.join b.group.localMember) .everyone
    exact ⟨congrArg Answer.published hresult, rfl, hleft⟩
  | dispatch =>
    by_cases hopen : b.isOpen = true
    · have ha := hb b.subscription (if_pos hopen)
      have ha' := hb' n (if_pos hopen)
      obtain ⟨harrival, hleft⟩ := h.receive htidy htidy' ha ha'
      rcases Network.receive_of_address? ha with ⟨-, hr⟩ | ⟨inbound, left, hr, -, -⟩
      · have hr' : net'.receive n = (.nothing, (net'.receive n).2) := by
          rw [Prod.ext_iff, ← harrival, hr]
          exact ⟨rfl, rfl⟩
        have hstep := step_of_nothing (t := Network.transport b.group.localMember) hopen hr
        have hstep' := step_of_nothing (b := b.relabel n)
          (t := Network.transport b.group.localMember) hopen hr'
        have hgroup : (b.relabel n).group = b.group := rfl
        simpa only [act, hgroup, hstep, hstep', true_and] using h
      · have hr' : net'.receive n = (.envelope inbound, (net'.receive n).2) := by
          rw [Prod.ext_iff, ← harrival, hr]
          exact ⟨rfl, rfl⟩
        have hstep := step_of_envelope (t := Network.transport b.group.localMember) hopen hr
        have hstep' := step_of_envelope (b := b.relabel n)
          (t := Network.transport b.group.localMember) hopen hr'
        rw [hr] at hleft
        obtain ⟨hevent, hbridge, hafter⟩ :=
          alike_dispatch hleft b b.group.localMember inbound
        have hgroup : (b.relabel n).group = b.group := rfl
        simp only [act, hgroup, hstep, hstep', dispatch_relabel]
        exact ⟨congrArg (fun e => Answer.dispatched (some e)) hevent,
          congrArg (Bridge.relabel · n) hbridge.symm, hafter⟩
    · have hclosed : b.isOpen = false := by simpa using hopen
      have hstep := step_of_closed (t := Network.transport b.group.localMember) (s := net) hclosed
      have hstep' := step_of_closed (b := b.relabel n)
        (t := Network.transport b.group.localMember) (s := net') hclosed
      have hgroup : (b.relabel n).group = b.group := rfl
      simpa only [act, hgroup, hstep, hstep', true_and] using h
  | read =>
    cases hm : b.messages with
    | nil => simpa only [act, hm, relabel, true_and] using h
    | cons m messages => simpa only [act, hm, relabel, true_and] using h
  | heed =>
    cases hs : b.signals with
    | nil => simpa only [act, hs, relabel, true_and] using h
    | cons signal signals => simpa only [act, hs, relabel, true_and] using h
  | close =>
    by_cases hopen : b.isOpen = true
    · have ha := hb b.subscription (if_pos hopen)
      have ha' := hb' n (if_pos hopen)
      have hleft := h.release htidy htidy' ha ha'
      simp only [act, close, hopen, relabel, if_true, true_and]
      exact hleft
    · simpa [act, close, hopen, relabel] using h

theorem confined_act (h : net.Tidy) (hb : b.Bound net) (deed : Deed) :
    Network.Confined b.group.id b.own? net (b.act net deed).2.2 := by
  cases deed with
  | send payload target => exact confined_send h b _ payload target _
  | join => exact confined_publish h b _ _ _ _
  | dispatch =>
    by_cases hopen : b.isOpen = true
    · have howns : b.own? = some b.subscription := if_pos hopen
      have ha := hb b.subscription howns
      rcases Network.receive_of_address? ha with ⟨-, hr⟩ | ⟨inbound, left, hr, -, -⟩
      · have hstep := step_of_nothing (t := Network.transport b.group.localMember) hopen hr
        simp only [act, hstep]
        exact h.confined_refl _ _
      · have hstep := step_of_envelope (t := Network.transport b.group.localMember) hopen hr
        have hreceive := h.confined_receive ha
        simp only [act, hstep]
        rw [hr, ← howns] at hreceive
        exact hreceive.trans (confined_dispatch hreceive.tidy b _ inbound _)
    · have hclosed : b.isOpen = false := by simpa using hopen
      have hstep := step_of_closed (t := Network.transport b.group.localMember) (s := net) hclosed
      simp only [act, hstep]
      exact h.confined_refl _ _
  | read =>
    cases hm : b.messages with
    | nil => simpa only [act, hm] using h.confined_refl _ _
    | cons m messages => simpa only [act, hm] using h.confined_refl _ _
  | heed =>
    cases hs : b.signals with
    | nil => simpa only [act, hs] using h.confined_refl _ _
    | cons signal signals => simpa only [act, hs] using h.confined_refl _ _
  | close =>
    by_cases hopen : b.isOpen = true
    · have howns : b.own? = some b.subscription := if_pos hopen
      have hrelease := h.confined_release (hb b.subscription howns)
      rw [← howns] at hrelease
      simp only [act, close, hopen, if_true]
      exact hrelease
    · simp only [act, close, hopen]
      exact h.confined_refl _ _

theorem act_keeps (b : Bridge) (net : Network) (deed : Deed) :
    (b.act net deed).2.1.group = b.group ∧
      ((b.act net deed).2.1.own? = none ∨ (b.act net deed).2.1.own? = b.own? ∧
        ∀ id, (b.act net deed).2.2.address? id = net.address? id) := by
  cases deed with
  | send payload target =>
    refine ⟨rfl, Or.inr ⟨rfl, fun id => ?_⟩⟩
    simp only [act]
    rcases b.send_network b.group.localMember payload target net with
      ⟨error, hp⟩ | ⟨bytes, -, -, hp⟩
    · rw [hp]
    · rw [hp]
      exact Network.address?_send _ _
  | join =>
    refine ⟨rfl, Or.inr ⟨rfl, fun id => ?_⟩⟩
    simp only [act, broadcastJoin]
    rcases b.publish_network b.group.localMember (.join b.group.localMember) .everyone net with
      ⟨error, hp⟩ | ⟨bytes, -, -, hp⟩
    · rw [hp]
    · rw [hp]
      exact Network.address?_send _ _
  | dispatch =>
    by_cases hopen : b.isOpen = true
    · have hreceive (id : Nat) := Network.address?_receive net id b.subscription
      rcases hr : net.receive b.subscription with ⟨arrival, left⟩
      rw [hr] at hreceive
      cases arrival with
      | envelope inbound =>
        have hstep := step_of_envelope (t := Network.transport b.group.localMember) hopen hr
        obtain ⟨signals, he⟩ :=
          dispatch_bridge_eq b (Network.transport b.group.localMember) inbound left
        simp only [act, hstep, he]
        refine ⟨trivial, Or.inr ⟨rfl, fun id => ?_⟩⟩
        rcases dispatch_state_eq b (Network.transport b.group.localMember) inbound left with
          hs | hs
        · rw [hs, hreceive]
        · rw [hs]
          exact (Network.address?_send _ _).trans (hreceive id)
      | nothing =>
        have hstep := step_of_nothing (t := Network.transport b.group.localMember) hopen hr
        simp only [act, hstep]
        exact ⟨trivial, Or.inr ⟨trivial, fun _ => trivial⟩⟩
      | closed =>
        have hstep := step_of_end (t := Network.transport b.group.localMember) hopen hr
        simp only [act, hstep, close_eq]
        exact ⟨trivial, Or.inl rfl⟩
    · have hclosed : b.isOpen = false := by simpa using hopen
      have hstep := step_of_closed (t := Network.transport b.group.localMember) (s := net) hclosed
      simp only [act, hstep]
      exact ⟨trivial, Or.inr ⟨trivial, fun _ => trivial⟩⟩
  | read =>
    cases hm : b.messages with
    | nil => simp [act, hm]
    | cons m messages => simp [act, hm, own?]
  | heed =>
    cases hs : b.signals with
    | nil => simp [act, hs]
    | cons signal signals => simp [act, hs, own?]
  | close =>
    simp only [act, close_eq]
    exact ⟨trivial, Or.inl rfl⟩

theorem Bound.act (h : b.Bound net) (deed : Deed) :
    (b.act net deed).2.1.group = b.group ∧ (b.act net deed).2.1.Bound (b.act net deed).2.2 ∧
      ∀ id, (b.act net deed).2.1.own? = some id → b.own? = some id := by
  obtain ⟨hgroup, hnone | ⟨hsame, haddress⟩⟩ := b.act_keeps net deed
  · refine ⟨hgroup, ?_, ?_⟩
    · intro id hid
      rw [hnone] at hid
      cases hid
    · intro id hid
      rw [hnone] at hid
      cases hid
  · rw [hsame]
    refine ⟨hgroup, ?_, fun _ hid => hid⟩
    intro id hid
    rw [haddress, hgroup]
    exact h id (hsame ▸ hid)

theorem alike_connect {g : Group} (h : Network.Alike g.id net net') (htidy : net.Tidy)
    (htidy' : net'.Tidy) (m : MemberId) :
    ((connect g (Network.transport m) net).1.map fun b => b.relabel 0) =
        (connect g (Network.transport m) net').1.map (fun b => b.relabel 0) ∧
      Network.Alike g.id (connect g (Network.transport m) net).2
        (connect g (Network.transport m) net').2 := by
  obtain ⟨hresult, hleft⟩ := h.subscribe m
  have hsubscribed : (net.subscribe m g.id).2.Tidy := htidy.subscribe
  have hsubscribed' : (net'.subscribe m g.id).2.Tidy := htidy'.subscribe
  have hcall : (Network.transport m).subscribe g.id net = net.subscribe m g.id := rfl
  have hcall' : (Network.transport m).subscribe g.id net' = net'.subscribe m g.id := rfl
  unfold connect
  split
  next => exact ⟨rfl, h⟩
  next =>
    rw [hcall, hcall']
    rcases hr : net.subscribe m g.id with ⟨result, left⟩
    rcases hr' : net'.subscribe m g.id with ⟨result', left'⟩
    rw [hr, hr'] at hresult hleft
    rw [hr] at hsubscribed
    rw [hr'] at hsubscribed'
    cases result with
    | error e =>
      cases result' with
      | error e' =>
        cases hresult
        exact ⟨rfl, hleft⟩
      | ok id' => cases hresult
    | ok id =>
      cases result' with
      | error e' => cases hresult
      | ok id' =>
        cases (Envelope.announce g.localMember).encode with
        | ok announce => exact ⟨rfl, hleft⟩
        | error e =>
          obtain ⟨-, -, ha, -⟩ := Network.subscribe_eq_ok htidy.numbered hr
          obtain ⟨-, -, ha', -⟩ := Network.subscribe_eq_ok htidy'.numbered hr'
          exact ⟨rfl, hleft.release hsubscribed hsubscribed' ha ha'⟩

end Bridge

inductive Held
  | subscription (m : MemberId) (id : Nat)
  | bridge (b : Bridge)

namespace Held

def own? : Held → Option Nat
  | subscription _ id => some id
  | bridge b => b.own?

def number : Held → Nat
  | subscription _ id => id
  | bridge b => b.subscription

def relabel (n : Nat) : Held → Held
  | subscription m _ => subscription m n
  | bridge b => bridge (b.relabel n)

def Bound (group : String) (net : Network) : Held → Prop
  | subscription m id => net.address? id = some (group, m)
  | bridge b => b.group.id = group ∧ b.Bound net

variable {k k' : Held} {net left : Network} {group : String}

theorem eq_relabel_of_relabel_eq (h : k.relabel 0 = k'.relabel 0) : k' = k.relabel k'.number := by
  cases k with
  | subscription m id =>
    cases k' with
    | subscription m' id' =>
      cases h
      rfl
    | bridge b' => cases h
  | bridge b =>
    cases k' with
    | subscription m' id' => cases h
    | bridge b' =>
      cases b
      cases b'
      simp only [relabel, Bridge.relabel, bridge.injEq, Bridge.mk.injEq, true_and] at h
      obtain ⟨rfl, rfl, rfl, rfl, rfl, rfl⟩ := h
      rfl

theorem Bound.exists_address? (h : k.Bound group net) {id : Nat} (hid : k.own? = some id) :
    ∃ m, net.address? id = some (group, m) := by
  cases k with
  | subscription m id' =>
    cases hid
    exact ⟨m, h⟩
  | bridge b =>
    obtain ⟨rfl, hb⟩ := h
    exact ⟨_, hb id hid⟩

theorem Bound.of_confined {other : String} {own : Option Nat} (h : k.Bound group net)
    (hconfined : Network.Confined other own net left)
    (hown : ∀ id, k.own? = some id → own ≠ some id) : k.Bound group left := by
  cases k with
  | subscription m id => exact hconfined.address id _ (hown id rfl) h
  | bridge b => exact ⟨h.1, fun id hid => hconfined.address id _ (hown id hid) (h.2 id hid)⟩

end Held

inductive Use
  | subscribe (m : MemberId)
  | connect (m : MemberId) (g : Group)
  | drop
  | receive
  | act (deed : Deed)

namespace Use

/-- A handle for a group stands for at most one thing. A use that does not fit it is impossible. -/
def apply (u : Use) (group : String) (held : Option Held) (net : Network) :
    Answer × Option Held × Network :=
  match held, u with
  | none, .subscribe m =>
    let (result, left) := net.subscribe m group
    (.subscribed (result.map fun _ => ()), result.toOption.map (.subscription m), left)
  | none, .connect m g =>
    if g.id = group then
      let (result, left) := Bridge.connect g (Network.transport m) net
      (.connected (result.map fun _ => ()), result.toOption.map .bridge, left)
    else (.impossible, none, net)
  | some (.subscription _ id), .drop => (.done, none, net.release id)
  | some (.subscription m id), .receive =>
    let (arrival, left) := net.receive id
    (.received arrival, some (.subscription m id), left)
  | some (.bridge b), .act deed =>
    let (answer, b, left) := b.act net deed
    (answer, some (.bridge b), left)
  | held, _ => (.impossible, held, net)

variable {net net' : Network} {group : String} {held held' : Option Held}

theorem confined_apply (h : net.Tidy) (hb : ∀ k ∈ held, k.Bound group net) (u : Use) :
    Network.Confined group (held.bind Held.own?) net (u.apply group held net).2.2 := by
  unfold apply
  split
  next m => exact h.confined_subscribe m group _
  next m g =>
    split
    next hg =>
      subst hg
      exact Bridge.confined_connect h g m
    next => exact h.confined_refl _ _
  next m id => exact h.confined_release (hb _ rfl)
  next m id => exact h.confined_receive (hb _ rfl)
  next b deed =>
    obtain ⟨rfl, hbound⟩ := hb _ rfl
    exact Bridge.confined_act h hbound deed
  next => exact h.confined_refl _ _

/-- What is held after a use is bound, by the subscription from before or by a new one. -/
theorem bound_apply (h : net.Tidy) (hb : ∀ k ∈ held, k.Bound group net) (u : Use) :
    ∀ k ∈ (u.apply group held net).2.1, k.Bound group (u.apply group held net).2.2 ∧
      ∀ id, k.own? = some id → held.bind Held.own? = some id ∨ id = net.nextId := by
  unfold apply
  split
  next m =>
    rcases hr : net.subscribe m group with ⟨result, left⟩
    cases result with
    | error e => rintro k ⟨⟩
    | ok id =>
      obtain ⟨hid, -, ha, -⟩ := Network.subscribe_eq_ok h.numbered hr
      rintro k ⟨⟩
      refine ⟨ha, ?_⟩
      rintro _ ⟨⟩
      exact Or.inr hid
  next m g =>
    split
    next hg =>
      subst hg
      rcases hr : Bridge.connect g (Network.transport m) net with ⟨result, left⟩
      cases result with
      | error e => rintro k ⟨⟩
      | ok b =>
        obtain ⟨hlocal, he, hsubscribe, -⟩ := Bridge.connect_eq_ok hr
        obtain ⟨hid, -, ha, -⟩ := Network.subscribe_eq_ok h.numbered hsubscribe
        have hm : m = g.localMember := hlocal
        have hgroup : b.group = g := by rw [he]; rfl
        have howns : b.own? = some b.subscription := by rw [he]; rfl
        rintro k ⟨⟩
        refine ⟨⟨congrArg Group.id hgroup, ?_⟩, ?_⟩
        · intro id hown
          rw [howns] at hown
          cases hown
          rw [hgroup, ← hm]
          exact ha
        · intro id hown
          have hown' : b.own? = some id := hown
          rw [howns] at hown'
          cases hown'
          exact Or.inr hid
    next => rintro k ⟨⟩
  next m id => rintro k ⟨⟩
  next m id =>
    rintro k ⟨⟩
    exact ⟨(Network.address?_receive net id id).trans (hb _ rfl), fun _ hid => Or.inl hid⟩
  next b deed =>
    obtain ⟨rfl, hbound⟩ := hb _ rfl
    obtain ⟨hgroup, hafter, hown⟩ := hbound.act deed
    rcases ha : b.act net deed with ⟨answer, b', left⟩
    rw [ha] at hgroup hafter hown
    rintro k ⟨⟩
    exact ⟨⟨congrArg Group.id hgroup, hafter⟩, fun id hid => Or.inl (hown id hid)⟩
  next =>
    rintro k ⟨⟩
    exact ⟨hb k rfl, fun id hid => Or.inl hid⟩

/-- The same answer, the same in hand but for its number, and networks that are alike. -/
structure Matches (group : String) (r r' : Answer × Option Held × Network) : Prop where
  answer : r.1 = r'.1
  held : r.2.1.map (Held.relabel 0) = r'.2.1.map (Held.relabel 0)
  network : Network.Alike group r.2.2 r'.2.2

theorem alike_apply_connect (h : Network.Alike group net net') (htidy : net.Tidy)
    (htidy' : net'.Tidy) (m : MemberId) (g : Group) :
    Matches group ((connect m g).apply group none net) ((connect m g).apply group none net') := by
  simp only [apply]
  split
  next hg =>
    subst hg
    obtain ⟨hresult, hleft⟩ := Bridge.alike_connect h htidy htidy' m
    rcases hr : Bridge.connect g (Network.transport m) net with ⟨result, left⟩
    rcases hr' : Bridge.connect g (Network.transport m) net' with ⟨result', left'⟩
    rw [hr, hr'] at hresult hleft
    cases result with
    | error e =>
      cases result' with
      | error e' =>
        cases hresult
        exact ⟨rfl, rfl, hleft⟩
      | ok b' => cases hresult
    | ok b =>
      cases result' with
      | error e' => cases hresult
      | ok b' =>
        have hlabel : b.relabel 0 = b'.relabel 0 := Except.ok.inj hresult
        exact ⟨rfl, congrArg (fun b => some (Held.bridge b)) hlabel, hleft⟩
  next => exact ⟨rfl, rfl, h⟩

/-- A handle that holds nothing can only be made to hold something. -/
theorem alike_apply_none (h : Network.Alike group net net') (htidy : net.Tidy) (htidy' : net'.Tidy)
    (u : Use) : Matches group (u.apply group none net) (u.apply group none net') := by
  cases u with
  | subscribe m =>
    obtain ⟨hresult, hleft⟩ := h.subscribe m
    simp only [apply]
    rcases hr : net.subscribe m group with ⟨result, left⟩
    rcases hr' : net'.subscribe m group with ⟨result', left'⟩
    rw [hr, hr'] at hresult hleft
    refine ⟨congrArg Answer.subscribed hresult, ?_, hleft⟩
    cases result <;> cases result' <;> cases hresult <;> rfl
  | connect m g => exact alike_apply_connect h htidy htidy' m g
  | drop => exact ⟨rfl, rfl, h⟩
  | receive => exact ⟨rfl, rfl, h⟩
  | act deed => exact ⟨rfl, rfl, h⟩

theorem alike_apply_subscription {m : MemberId} {id n : Nat} (h : Network.Alike group net net')
    (htidy : net.Tidy) (htidy' : net'.Tidy) (hb : (Held.subscription m id).Bound group net)
    (hb' : ((Held.subscription m id).relabel n).Bound group net') (u : Use) :
    Matches group (u.apply group (some (.subscription m id)) net)
      (u.apply group (some ((Held.subscription m id).relabel n)) net') := by
  cases u with
  | subscribe m => exact ⟨rfl, rfl, h⟩
  | connect m g => exact ⟨rfl, rfl, h⟩
  | drop => exact ⟨rfl, rfl, h.release htidy htidy' hb hb'⟩
  | receive =>
    obtain ⟨harrival, hleft⟩ := h.receive htidy htidy' hb hb'
    exact ⟨congrArg Answer.received harrival, rfl, hleft⟩
  | act deed => exact ⟨rfl, rfl, h⟩

theorem alike_apply_bridge {b : Bridge} {n : Nat} (h : Network.Alike group net net')
    (htidy : net.Tidy) (htidy' : net'.Tidy) (hb : (Held.bridge b).Bound group net)
    (hb' : ((Held.bridge b).relabel n).Bound group net') (u : Use) :
    Matches group (u.apply group (some (.bridge b)) net)
      (u.apply group (some ((Held.bridge b).relabel n)) net') := by
  cases u with
  | subscribe m => exact ⟨rfl, rfl, h⟩
  | connect m g => exact ⟨rfl, rfl, h⟩
  | drop => exact ⟨rfl, rfl, h⟩
  | receive => exact ⟨rfl, rfl, h⟩
  | act deed =>
    obtain ⟨rfl, hown⟩ := hb
    obtain ⟨hanswer, hbridge, hleft⟩ := Bridge.alike_act h htidy htidy' hown hb'.2 deed
    refine ⟨hanswer, ?_, hleft⟩
    simp only [apply, Held.relabel, Option.map_some, hbridge]
    rfl

theorem alike_apply (h : Network.Alike group net net') (htidy : net.Tidy) (htidy' : net'.Tidy)
    (hb : ∀ k ∈ held, k.Bound group net) (hb' : ∀ k ∈ held', k.Bound group net')
    (hsame : held.map (Held.relabel 0) = held'.map (Held.relabel 0)) (u : Use) :
    (u.apply group held net).1 = (u.apply group held' net').1 ∧
      (u.apply group held net).2.1.map (Held.relabel 0) =
        (u.apply group held' net').2.1.map (Held.relabel 0) ∧
      Network.Alike group (u.apply group held net).2.2 (u.apply group held' net').2.2 := by
  cases held with
  | none =>
    have hnone : held' = none := Option.map_eq_none_iff.mp hsame.symm
    subst hnone
    obtain ⟨hanswer, hheld, hleft⟩ := alike_apply_none h htidy htidy' u
    exact ⟨hanswer, hheld, hleft⟩
  | some k =>
    obtain ⟨k', rfl, hk⟩ := Option.map_eq_some_iff.mp hsame.symm
    rw [Held.eq_relabel_of_relabel_eq hk.symm] at hb' ⊢
    generalize k'.number = n at hb'
    have hbound := hb k rfl
    have hbound' := hb' (k.relabel n) rfl
    cases k with
    | subscription m id =>
      obtain ⟨hanswer, hheld, hleft⟩ := alike_apply_subscription h htidy htidy' hbound hbound' u
      exact ⟨hanswer, hheld, hleft⟩
    | bridge b =>
      obtain ⟨hanswer, hheld, hleft⟩ := alike_apply_bridge h htidy htidy' hbound hbound' u
      exact ⟨hanswer, hheld, hleft⟩

end Use

/-- If one owner's number stays as it was, or becomes the next new one, then still no two owners
have one number. -/
theorem apart_of_next {ι : Type} {own own' : ι → Option Nat} {i : ι} {next : Nat}
    (hapart : ∀ j k n, own j = some n → own k = some n → j = k)
    (hlt : ∀ j n, own j = some n → n < next)
    (hself : ∀ n, own' i = some n → own i = some n ∨ n = next)
    (hother : ∀ j, j ≠ i → own' j = own j) (j k : ι) (n : Nat) (hj : own' j = some n)
    (hk : own' k = some n) : j = k := by
  have horigin (j : ι) (hj : own' j = some n) : own j = some n ∨ j = i ∧ n = next := by
    by_cases hji : j = i
    · subst hji
      exact (hself n hj).imp_right fun hnew => ⟨rfl, hnew⟩
    · rw [hother j hji] at hj
      exact .inl hj
  rcases horigin j hj with hj | ⟨rfl, hj⟩
  · rcases horigin k hk with hk | ⟨-, hk⟩
    · exact hapart j k n hj hk
    · exact absurd hk (Nat.ne_of_lt (hlt j n hj))
  · rcases horigin k hk with hk | ⟨rfl, -⟩
    · exact absurd hj (Nat.ne_of_lt (hlt k n hk))
    · rfl

/-- The name under which a caller keeps what it has for a group. -/
structure Handle where
  group : String
  name : Nat
deriving DecidableEq

inductive Operation
  | setOffline (m : MemberId) (offline : Bool)
  | send (m : MemberId) (group : String) (target : Target) (bytes : ByteArray)
  | use (h : Handle) (u : Use)

namespace Operation

/-- Members go offline for all groups; everything else is for one. -/
def group? : Operation → Option String
  | .setOffline _ _ => none
  | .send _ group _ _ => some group
  | .use h _ => some h.group

def concerns (group : String) (o : Operation) : Bool := o.group?.all (· = group)

end Operation

structure Exchange where
  network : Network
  held : Handle → Option Held

namespace Exchange

def empty : Exchange := ⟨.empty, fun _ => none⟩

def put (x : Exchange) (h : Handle) (held : Option Held) (left : Network) : Exchange :=
  ⟨left, Function.update x.held h held⟩

def step (x : Exchange) : Operation → Answer × Exchange
  | .setOffline m offline => (.done, { x with network := x.network.setOffline m offline })
  | .send m group target bytes =>
    let (result, left) := x.network.send m group target bytes
    (.sent result, { x with network := left })
  | .use h u =>
    let (answer, held, left) := u.apply h.group (x.held h) x.network
    (answer, x.put h held left)

def trace (x : Exchange) : List Operation → List (Operation × Answer)
  | [] => []
  | o :: os => (o, (x.step o).1) :: (x.step o).2.trace os

def run (x : Exchange) (os : List Operation) : Exchange := os.foldl (fun x o => (x.step o).2) x

/-- What is held for a handle, without the number of its subscription. -/
def view (x : Exchange) (h : Handle) : Option Held := (x.held h).map (Held.relabel 0)

structure Sound (x : Exchange) : Prop where
  tidy : x.network.Tidy
  bound : ∀ h, ∀ k ∈ x.held h, k.Bound h.group x.network
  apart : ∀ h h' id, (x.held h).bind Held.own? = some id →
    (x.held h').bind Held.own? = some id → h = h'

/-- Two exchanges that are the same for a group. -/
structure Alike (group : String) (x y : Exchange) : Prop where
  network : Network.Alike group x.network y.network
  view : ∀ name, x.view ⟨group, name⟩ = y.view ⟨group, name⟩

variable {x y : Exchange} {group : String} {o : Operation}

@[simp]
theorem held_put_self (x : Exchange) (h : Handle) (held : Option Held) (left : Network) :
    (x.put h held left).held h = held :=
  Function.update_self ..

@[simp]
theorem held_put_other (x : Exchange) {h h' : Handle} (held : Option Held) (left : Network)
    (hne : h' ≠ h) : (x.put h held left).held h' = x.held h' :=
  Function.update_of_ne hne ..

theorem sound_empty : empty.Sound where
  tidy := ⟨(by intro r hr; cases hr), List.nodup_nil, List.nodup_nil⟩
  bound := by
    rintro h k ⟨⟩
  apart := by
    rintro h h' id ⟨⟩

theorem Sound.lt_nextId (hx : x.Sound) {h : Handle} {id : Nat}
    (hid : (x.held h).bind Held.own? = some id) : id < x.network.nextId := by
  obtain ⟨k, hk, hown⟩ := Option.bind_eq_some_iff.mp hid
  obtain ⟨m, ha⟩ := (hx.bound h k hk).exists_address? hown
  exact hx.tidy.numbered.lt_nextId ha

theorem Sound.of_confined {left : Network} {other : String} (hx : x.Sound)
    (h : Network.Confined other none x.network left) :
    ({ x with network := left } : Exchange).Sound where
  tidy := h.tidy
  bound := fun handle k hk => (hx.bound handle k hk).of_confined h fun _ _ => by simp
  apart := hx.apart

theorem Sound.use (hx : x.Sound) (h : Handle) (u : Use) : (x.step (.use h u)).2.Sound := by
  have hconfined := u.confined_apply hx.tidy (hx.bound h)
  have hbound := u.bound_apply hx.tidy (hx.bound h)
  simp only [step]
  rcases hu : u.apply h.group (x.held h) x.network with ⟨answer, held, left⟩
  rw [hu] at hconfined hbound
  refine ⟨hconfined.tidy, ?_, ?_⟩
  · intro h' k hk
    by_cases he : h' = h
    · subst he
      rw [held_put_self] at hk
      exact (hbound k hk).1
    · rw [held_put_other x held left he] at hk
      refine (hx.bound h' k hk).of_confined hconfined fun id hid hown => he ?_
      exact hx.apart h' h id (by rw [hk, Option.bind_some, hid]) hown
  · refine apart_of_next hx.apart (fun _ _ => hx.lt_nextId) ?_
      fun h' he => congrArg (Option.bind · Held.own?) (held_put_other x held left he)
    intro id hid
    rw [held_put_self] at hid
    obtain ⟨k, hk, hown⟩ := Option.bind_eq_some_iff.mp hid
    exact (hbound k hk).2 id hown

theorem Sound.step (hx : x.Sound) (o : Operation) : (x.step o).2.Sound := by
  cases o with
  | setOffline m offline => exact ⟨hx.tidy.setOffline offline, hx.bound, hx.apart⟩
  | send m group target bytes =>
    exact hx.of_confined (hx.tidy.confined_send m group target bytes none)
  | use h u => exact hx.use h u

theorem trace_append_singleton (x : Exchange) (os : List Operation) (o : Operation) :
    x.trace (os ++ [o]) = x.trace os ++ [(o, ((x.run os).step o).1)] := by
  induction os generalizing x with
  | nil => rfl
  | cons first os ih =>
    rw [List.cons_append, trace, ih]
    rfl

theorem run_append_singleton (x : Exchange) (os : List Operation) (o : Operation) :
    x.run (os ++ [o]) = ((x.run os).step o).2 := by
  simp [run, List.foldl_append]

theorem sound_run (hx : x.Sound) (os : List Operation) : (x.run os).Sound := by
  induction os using List.reverseRecOn with
  | nil => exact hx
  | append_singleton os o ih =>
    rw [run_append_singleton]
    exact ih.step o

/-- A subscription is made of a handle that holds nothing, and nothing waits on it at first. -/
theorem Sound.held_of_subscribed (hx : x.Sound) {h : Handle} {m : MemberId}
    (hs : (x.step (.use h (.subscribe m))).1 = .subscribed (.ok ())) :
    ∃ id, (x.step (.use h (.subscribe m))).2.held h = some (.subscription m id) ∧
      (x.step (.use h (.subscribe m))).2.network.pending id = [] := by
  simp only [Exchange.step] at hs ⊢
  cases hheld : x.held h with
  | some k =>
    rw [hheld] at hs
    simp [Use.apply] at hs
  | none =>
    rw [hheld] at hs
    simp only [Use.apply] at hs ⊢
    rcases hsub : x.network.subscribe m h.group with ⟨result, left⟩
    rw [hsub] at hs
    cases result with
    | error e => simp [Except.map] at hs
    | ok id =>
      obtain ⟨-, -, -, hpending⟩ := Network.subscribe_eq_ok hx.tidy.numbered hsub
      exact ⟨id, held_put_self .., hpending⟩

theorem alike_step_other (hx : x.Sound) (ho : o.concerns group = false) :
    Alike group (x.step o).2 x := by
  cases o with
  | setOffline m offline => cases ho
  | send m other target bytes =>
    have hne : group ≠ other := by
      rintro rfl
      simp [Operation.concerns, Operation.group?] at ho
    exact ⟨(hx.tidy.confined_send m other target bytes none).alike hne, fun _ => rfl⟩
  | use h u =>
    have hne : group ≠ h.group := by
      rintro rfl
      simp [Operation.concerns, Operation.group?] at ho
    refine ⟨(u.confined_apply hx.tidy (hx.bound h)).alike hne, fun name => ?_⟩
    have hother : (⟨group, name⟩ : Handle) ≠ h := fun he => hne (congrArg Handle.group he)
    simp only [view, Exchange.step, held_put_other x _ _ hother]

theorem Alike.step (h : Alike group x y) (hx : x.Sound) (hy : y.Sound)
    (ho : o.concerns group = true) :
    (x.step o).1 = (y.step o).1 ∧ Alike group (x.step o).2 (y.step o).2 := by
  cases o with
  | setOffline m offline => exact ⟨rfl, h.network.setOffline m offline, h.view⟩
  | send m other target bytes =>
    obtain ⟨hresult, hleft⟩ := h.network.send m other target bytes
    exact ⟨congrArg Answer.sent hresult, hleft, h.view⟩
  | use handle u =>
    have hgroup : handle.group = group := by
      simpa [Operation.concerns, Operation.group?] using ho
    subst hgroup
    obtain ⟨hanswer, hheld, hleft⟩ := u.alike_apply h.network hx.tidy hy.tidy (hx.bound handle)
      (hy.bound handle) (h.view handle.name)
    refine ⟨hanswer, hleft, fun name => ?_⟩
    simp only [Exchange.step, Exchange.view]
    by_cases he : (⟨handle.group, name⟩ : Handle) = handle
    · rw [he, held_put_self, held_put_self]
      exact hheld
    · rw [held_put_other x _ _ he, held_put_other y _ _ he]
      exact h.view name

theorem Alike.trace (h : Alike group x y) (hx : x.Sound) (hy : y.Sound) (os : List Operation) :
    (x.trace os).filter (·.1.concerns group) = y.trace (os.filter (·.concerns group)) ∧
      Alike group (x.run os) (y.run (os.filter (·.concerns group))) := by
  induction os generalizing x y with
  | nil => exact ⟨rfl, h⟩
  | cons o os ih =>
    cases ho : o.concerns group with
    | false =>
      have hother := alike_step_other hx ho
      have hnext : Alike group (x.step o).2 y :=
        ⟨hother.network.trans h.network, fun name => (hother.view name).trans (h.view name)⟩
      obtain ⟨htrace, hrun⟩ := ih hnext (hx.step o) hy
      rw [List.filter_cons_of_neg (by simp [ho])]
      refine ⟨?_, hrun⟩
      rw [Exchange.trace, List.filter_cons_of_neg (by simp [ho]), htrace]
    | true =>
      obtain ⟨hanswer, hnext⟩ := h.step hx hy ho
      obtain ⟨htrace, hrun⟩ := ih hnext (hx.step o) (hy.step o)
      rw [List.filter_cons_of_pos ho]
      refine ⟨?_, hrun⟩
      rw [Exchange.trace, List.filter_cons_of_pos (by simpa using ho), htrace, hanswer,
        Exchange.trace]

/-- Erasing all that is done for other groups leaves a group every answer to its own operations,
everything that waits at its routes, and all that its members hold. -/
theorem trace_filter_concerns (os : List Operation) (group : String) :
    (empty.trace os).filter (·.1.concerns group) = empty.trace (os.filter (·.concerns group)) ∧
      (∀ m, (empty.run os).network.queue? (group, m) =
        (empty.run (os.filter (·.concerns group))).network.queue? (group, m)) ∧
      (∀ name, (empty.run os).view ⟨group, name⟩ =
        (empty.run (os.filter (·.concerns group))).view ⟨group, name⟩) ∧
      (empty.run os).network.offline =
        (empty.run (os.filter (·.concerns group))).network.offline := by
  have hempty : Alike group empty empty := ⟨⟨rfl, fun _ => rfl⟩, fun _ => rfl⟩
  obtain ⟨htrace, hrun⟩ := hempty.trace sound_empty sound_empty os
  exact ⟨htrace, hrun.network.queue, hrun.view, hrun.network.offline⟩

end Exchange

end ThresholdSigning
