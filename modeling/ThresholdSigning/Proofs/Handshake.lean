import Mathlib.Data.List.Infix
import ThresholdSigning.Proofs.Progress
import ThresholdSigning.Proofs.Vouching

namespace ThresholdSigning

variable {σ α : Type} {p : Party σ α}

namespace Seat

variable {a b s s' : Seat σ α} {r left : Recorded} {act : Act}

structure Mutual (a b : Seat σ α) : Prop where
  id : a.group.id = b.group.id
  peer : a.group.isPeer b.group.localMember = true
  peer' : b.group.isPeer a.group.localMember = true

theorem Mutual.symm (h : a.Mutual b) : b.Mutual a := ⟨h.id.symm, h.peer', h.peer⟩

theorem Mutual.of_group {a' b' : Seat σ α} (h : a.Mutual b) (ha : a'.group = a.group)
    (hb : b'.group = b.group) : a'.Mutual b' := by
  obtain ⟨hid, hpeer, hpeer'⟩ := h
  rw [← ha, ← hb] at hid hpeer hpeer'
  exact ⟨hid, hpeer, hpeer'⟩

/-- An execution that has its bridge, on the network. -/
structure Present (s : Seat σ α) (r : Recorded) : Prop where
  attached : s.Attached r.network
  connected : s.execution.bridge?.isSome = true

structure Mindful (s : Seat σ α) : Prop where
  waits : s.execution.Waits
  peers : ∀ signal ∈ s.accepted, s.group.isPeer signal.sender = true
  minds : ∀ signal ∈ s.accepted, s.execution.Minds signal

/-- What an act does to the traffic of the handshake. -/
inductive Shakes (s : Seat σ α) (r : Recorded) (s' : Seat σ α) : Recorded → Prop
  | hold {left : Recorded} (haccepted : s'.accepted = s.accepted) (howed : s'.owed = s.owed)
      (hjoined : s'.execution.HasJoined → s.execution.HasJoined)
      (hsends : s.transport.Sends s.group.id r left) : s.Shakes r s' left
  | hear {inbound : Inbound} {left : Recorded} (howed : s.owed = [])
      (hreceive : r.receive s.subscription = (.envelope inbound, left))
      (haccepted : s.accepted ⊆ s'.accepted)
      (hheard : ∀ signal, s.group.Hears inbound signal → signal ∈ s'.accepted)
      (hanswer : ∀ sender, s.group.Hears inbound (.join sender) → s'.owed ≠ [])
      (hjoined : s'.execution.HasJoined → s.execution.HasJoined) : s.Shakes r s' left
  | say {signal : Signal} {bytes : ByteArray}
      (hdecode : Envelope.decode bytes = .ok signal.envelope)
      (hsender : signal.sender = s.group.localMember) (haccepted : s'.accepted = s.accepted)
      (hjoined : s'.execution.HasJoined →
        s.execution.HasJoined ∨ signal = .join s.group.localMember) :
      s.Shakes r s' (r.send s.group.localMember s.group.id .everyone bytes).2

theorem Attached.shakes (h : s.Attached r.network)
    (hroom : s.execution.signals.length < signalCapacity)
    (hconnected : s'.execution.bridge?.isSome = true) (hacts : s.Acts p r act s' left) :
    s.Shakes r s' left := by
  cases hacts with
  | idle => exact .hold rfl rfl id .nothing
  | @take b b' inbound left owed howed hbridge hreceive hdispatches =>
    obtain ⟨heard, hsignals, -, hqueued⟩ := hdispatches.heard
    have hgroup := (h.bridge b hbridge).group
    rw [Execution.signals_of_bridge? hbridge] at hroom
    refine .hear howed hreceive (List.subset_append_left _ _) ?_ ?_ ?_
    · intro signal hears
      rw [hsignals, List.drop_left]
      exact List.mem_append_right _ (hqueued hroom signal (hgroup ▸ hears))
    · intro sender hears
      rw [← hgroup] at hears
      rcases hdispatches.drafts.2 with ⟨-, rfl⟩ | ⟨hdeaf, -⟩
      · exact List.cons_ne_nil _ _
      · exact absurd hears (hdeaf sender)
    · exact (Execution.hasJoined_setBridge _ _).mp
  | @answer d owed howed =>
    obtain ⟨hgroup, htarget, hencode⟩ := h.owed d (by rw [howed]; exact List.mem_cons_self)
    have hdecode : Envelope.decode d.bytes =
        .ok (Signal.announce s.group.localMember).envelope := Envelope.decode_of_encode hencode
    rw [hgroup, htarget]
    exact .say hdecode rfl rfl Or.inl
  | join hjoins =>
    rcases (hjoins.proceeds hconnected).sends with ⟨rfl, hjoined⟩ | ⟨b, hb, hsend⟩
    · exact .hold rfl rfl hjoined .nothing
    · obtain ⟨bytes, hencode, rfl⟩ := Bridge.broadcastJoin_eq_ok hsend
      rw [(h.bridge b hb).group] at hencode ⊢
      have hdecode : Envelope.decode bytes = .ok (Signal.join s.group.localMember).envelope :=
        Envelope.decode_of_encode hencode
      exact .say hdecode rfl rfl fun _ => Or.inr rfl
  | round hturns =>
    have hjoined := (hturns.hasJoined hconnected).1
    cases hturns.effect with
    | live hbridge _ _ hsends =>
      rw [(h.bridge _ hbridge).group] at hsends
      exact .hold rfl rfl (fun _ => hjoined) hsends
    | ends _ hgone _ _ =>
      rw [hgone] at hconnected
      cases hconnected
    | ended _ _ => exact .hold rfl rfl (fun _ => hjoined) .nothing
  | tick _ => exact .hold rfl rfl id .nothing

theorem Mindful.of_acts (hmindful : s.Mindful) (h : s.Attached r.network)
    (hconnected : s'.execution.bridge?.isSome = true) (hacts : s.Acts p r act s' left) :
    s'.Mindful := by
  obtain ⟨hwaits, hpeers, hminds⟩ := hmindful
  have hgroup := hacts.kept.1
  cases hacts with
  | idle => exact ⟨hwaits, hpeers, hminds⟩
  | @take b b' inbound left owed howed hbridge hreceive hdispatches =>
    obtain ⟨heard, hsignals, hears, -⟩ := hdispatches.heard
    have hbridge' := Execution.bridge?_setBridge hbridge b'
    have hlist : (s.execution.setBridge b').signals = s.execution.signals ++ heard := by
      rw [Execution.signals_of_bridge? hbridge', Execution.signals_of_bridge? hbridge, hsignals]
    have hmem {signal : Signal} (hs : signal ∈ s.accepted ++ b'.signals.drop b.signals.length) :
        signal ∈ s.accepted ∨ signal ∈ heard := by
      rw [hsignals, List.drop_left] at hs
      exact List.mem_append.mp hs
    refine ⟨hwaits.setBridge b', ?_, ?_⟩
    · intro signal hs
      rw [hgroup]
      rcases hmem hs with hold | hnew
      · exact hpeers signal hold
      · have hheard := hears signal hnew
        rw [(h.bridge b hbridge).group] at hheard
        rw [hheard.sender]
        exact hheard.peer
    · intro signal hs
      rcases hmem hs with hold | hnew
      · refine (hminds signal hold).setBridge ?_
        rw [hlist]
        exact List.subset_append_left _ _
      · refine Or.inr (Or.inr ?_)
        rw [hlist]
        exact List.mem_append_right _ hnew
  | answer _ => exact ⟨hwaits, hpeers, hminds⟩
  | join hjoins =>
    have hproceeds := hjoins.proceeds hconnected
    refine ⟨hjoins.waits, ?_, ?_⟩
    · rw [hgroup]
      exact hpeers
    · intro signal hs
      refine hproceeds.minds (fun b hb => ?_) (hminds signal hs)
      rw [(h.bridge b hb).group]
      exact hpeers signal hs
  | round hturns =>
    refine ⟨hturns.waits, ?_, fun _ _ => Or.inl (hturns.hasJoined hconnected).2⟩
    rw [hgroup]
    exact hpeers
  | tick now => exact ⟨hwaits, hpeers, hminds⟩

theorem pending_subset_of_sends {group : String} (h : s.transport.Sends group r left) (id : Nat) :
    r.network.pending id ⊆ left.network.pending id := by
  cases h with
  | nothing => exact List.Subset.refl _
  | one target bytes =>
    have hleft : (s.transport.send group target bytes r).2.network =
        (r.network.send s.group.localMember group target bytes).2 :=
      r.network_send s.group.localMember group target bytes
    rw [hleft]
    exact Network.subset_pending_send _ _

theorem Shakes.pending_subset (h : s.Shakes r s' left) {id : Nat} (hother : id ≠ s.subscription) :
    r.network.pending id ⊆ left.network.pending id := by
  cases h with
  | hold _ _ _ hsends => exact pending_subset_of_sends hsends _
  | hear _ hreceive _ _ _ _ =>
    have hleft : (r.network.receive s.subscription).2 = left.network :=
      congrArg Prod.snd (Recorded.network_receive hreceive)
    rw [← hleft, Network.pending_receive_other _ hother]
    exact List.Subset.refl _
  | say _ _ _ _ =>
    rw [Recorded.network_send]
    exact Network.subset_pending_send _ _

/-- `a` knows that `b` is there, or will learn it from what is on its way. -/
inductive Learns (a b : Seat σ α) (r : Recorded) : Prop
  | known {signal : Signal} (haccepted : signal ∈ a.accepted)
      (hsender : signal.sender = b.group.localMember)
  | coming {inbound : Inbound} {signal : Signal}
      (hpending : inbound ∈ r.network.pending a.subscription) (hears : a.group.Hears inbound signal)
      (hsender : signal.sender = b.group.localMember)
  | answering (howed : b.owed ≠ [])
  | asked {inbound : Inbound} {sender : MemberId}
      (hpending : inbound ∈ r.network.pending b.subscription)
      (hears : b.group.Hears inbound (.join sender))

theorem Present.hears_of_send {m : MemberId} {signal : Signal} {bytes : ByteArray}
    (h : s.Present r) (honline : r.network.offline = []) (hpeer : s.group.isPeer m = true)
    (hdecode : Envelope.decode bytes = .ok signal.envelope) (hsender : signal.sender = m) :
    ∃ inbound ∈ (r.send m s.group.id .everyone bytes).2.network.pending s.subscription,
      s.group.Hears inbound signal := by
  obtain ⟨bridge, hb⟩ := Option.isSome_iff_exists.mp h.connected
  have hother : s.group.localMember ≠ m := by
    rintro rfl
    rw [Group.isPeer_localMember] at hpeer
    cases hpeer
  have harrives : r.network.arrivals m s.group.id .everyone bytes
      (s.group.id, s.group.localMember) = [⟨s.group.id, m, bytes⟩] := by
    simp [Network.arrivals, honline, hother]
  refine ⟨⟨s.group.id, m, bytes⟩, ?_, rfl, hpeer, hdecode, hsender⟩
  rw [Recorded.network_send, Network.pending_send (h.attached.address bridge hb), harrives]
  exact List.mem_append_right _ (List.mem_singleton_self _)

variable {a' b' : Seat σ α}

theorem Learns.mono (h : a.Learns b r)
    (ha : a'.group = a.group ∧ a'.subscription = a.subscription)
    (hb : b'.group = b.group ∧ b'.subscription = b.subscription)
    (haccepted : a.accepted ⊆ a'.accepted) (howed : b.owed ≠ [] → b'.owed ≠ [])
    (hpending : r.network.pending a.subscription ⊆ left.network.pending a.subscription)
    (hpending' : r.network.pending b.subscription ⊆ left.network.pending b.subscription) :
    a'.Learns b' left := by
  obtain ⟨hgroup, hsubscription⟩ := ha
  obtain ⟨hgroup', hsubscription'⟩ := hb
  cases h with
  | known hmem hsender => exact .known (haccepted hmem) (hgroup' ▸ hsender)
  | coming hmem hears hsender =>
    exact .coming (hsubscription ▸ hpending hmem) (hgroup ▸ hears) (hgroup' ▸ hsender)
  | answering hne => exact .answering (howed hne)
  | asked hmem hears => exact .asked (hsubscription' ▸ hpending' hmem) (hgroup' ▸ hears)

/-- One of two acts: it learns of the other as before, or asks by its join. -/
theorem Shakes.learns (hshakes : s.Shakes r s' left) (hother : b.subscription ≠ s.subscription)
    (hkept : s'.group = s.group ∧ s'.subscription = s.subscription) (hmutual : s.Mutual b)
    (hs : s.Present r) (hb : b.Present r) (honline : r.network.offline = [])
    (hjoined : s'.execution.HasJoined) (h : s.execution.HasJoined → s.Learns b r) :
    s'.Learns b left := by
  have hpending' := hshakes.pending_subset hother
  cases hshakes with
  | hold haccepted _ hbefore hsends =>
    refine (h (hbefore hjoined)).mono hkept ⟨rfl, rfl⟩ ?_ id (pending_subset_of_sends hsends _)
      hpending'
    rw [haccepted]
    exact List.Subset.refl _
  | @hear inbound left _ hreceive haccepted hheard _ hbefore =>
    have hpending := hs.attached.pending_of_receive hs.connected hreceive
    cases h (hbefore hjoined) with
    | known hmem hsender => exact .known (haccepted hmem) hsender
    | coming hmem hears hsender =>
      rw [hpending] at hmem
      rcases List.mem_cons.mp hmem with rfl | hrest
      · exact .known (hheard _ hears) hsender
      · exact .coming (hkept.2 ▸ hrest) (hkept.1 ▸ hears) hsender
    | answering hne => exact .answering hne
    | asked hmem hears => exact .asked (hpending' hmem) hears
  | say hdecode hsender haccepted hbefore =>
    rcases hbefore hjoined with hbefore | rfl
    · refine (h hbefore).mono hkept ⟨rfl, rfl⟩ ?_ id ?_ hpending'
      · rw [haccepted]
        exact List.Subset.refl _
      · rw [Recorded.network_send]
        exact Network.subset_pending_send _ _
    · obtain ⟨inbound, hmem, hears⟩ := hb.hears_of_send honline hmutual.peer' hdecode hsender
      rw [← hmutual.id] at hmem
      exact .asked hmem hears

/-- One of two acts: the other learns of it as before, or hears it now. -/
theorem Shakes.learns_other (hshakes : s.Shakes r s' left)
    (hother : a.subscription ≠ s.subscription)
    (hkept : s'.group = s.group ∧ s'.subscription = s.subscription) (hmutual : a.Mutual s)
    (hs : s.Present r) (ha : a.Present r) (honline : r.network.offline = [])
    (hjoined : s'.execution.HasJoined) (h : s.execution.HasJoined → a.Learns s r) :
    a.Learns s' left := by
  have hpending' := hshakes.pending_subset hother
  cases hshakes with
  | hold _ howed hbefore hsends =>
    exact (h (hbefore hjoined)).mono ⟨rfl, rfl⟩ hkept (List.Subset.refl _)
      (fun hne => howed ▸ hne) hpending' (pending_subset_of_sends hsends _)
  | @hear inbound left howed hreceive _ _ hanswer hbefore =>
    have hpending := hs.attached.pending_of_receive hs.connected hreceive
    cases h (hbefore hjoined) with
    | known hmem hsender => exact .known hmem (hkept.1 ▸ hsender)
    | coming hmem hears hsender => exact .coming (hpending' hmem) hears (hkept.1 ▸ hsender)
    | answering hne => exact absurd howed hne
    | asked hmem hears =>
      rw [hpending] at hmem
      rcases List.mem_cons.mp hmem with rfl | hrest
      · exact .answering (hanswer _ hears)
      · exact .asked (hkept.2 ▸ hrest) (hkept.1 ▸ hears)
  | say hdecode hsender _ _ =>
    obtain ⟨inbound, hmem, hears⟩ := ha.hears_of_send honline hmutual.peer hdecode hsender
    rw [hmutual.id] at hmem
    exact .coming hmem hears (hkept.1 ▸ hsender)

/-- The barrier has let the execution pass; or it has a signal of every peer, seen or waiting, and
gets ready at any time without anything more being sent. -/
def Converges (s : Seat σ α) (r : Recorded) : Prop :=
  s.execution.rounds?.isSome = true ∨
    ∃ bridge barrier party seen, s.execution.phase = .joining bridge barrier party ∧
      barrier.state = .waiting seen ∧
      (∀ m ∈ s.group.peers, m ∈ seen ∨ ∃ signal ∈ bridge.signals, signal.sender = m) ∧
      ∀ now fuel, bridge.signals.length < fuel → ∃ barrier' bridge',
        barrier.advance bridge s.transport s.execution.deadline now r fuel =
            (barrier', bridge', r) ∧
          barrier'.state = .ready ∧ barrier'.result = some (.ok ())

theorem Mindful.converges (h : s.Mindful) (hattached : s.Attached r.network)
    (hlive : s.execution.deadline.isExpired = false) (hjoined : s.execution.HasJoined)
    (hheard : ∀ m ∈ s.group.peers, ∃ signal ∈ s.accepted, signal.sender = m) : s.Converges r := by
  cases hphase : s.execution.phase with
  | joining bridge barrier party =>
    obtain ⟨seen, hstate⟩ : ∃ seen, barrier.state = .waiting seen := by
      simpa only [Execution.HasJoined, hphase] using hjoined
    have hbridge := Execution.bridge?_of_joining hphase
    have hcovered : ∀ m ∈ s.group.peers,
        m ∈ seen ∨ ∃ signal ∈ bridge.signals, signal.sender = m := by
      intro m hm
      obtain ⟨signal, hs, rfl⟩ := hheard m hm
      rcases h.minds signal hs with hrounds | hseen | hwaits
      · rw [Execution.rounds?, hphase] at hrounds
        cases hrounds
      · rw [Execution.seen_of_joining hphase, Barrier.seen_of_waiting hstate] at hseen
        exact Or.inl hseen
      · rw [Execution.signals_of_bridge? hbridge] at hwaits
        exact Or.inr ⟨signal, hwaits, rfl⟩
    refine Or.inr ⟨bridge, barrier, party, seen, hphase, hstate, hcovered, fun now fuel hfuel => ?_⟩
    rw [← (hattached.bridge bridge hbridge).group] at hcovered
    exact h.waits.advance hphase hstate hlive s.transport r hcovered hfuel
  | rounds bridge rounds =>
    refine Or.inl ?_
    rw [Execution.rounds?, hphase]
    rfl
  | ended result rest => simp only [Execution.HasJoined, hphase] at hjoined

end Seat

namespace Assembly

variable {w w' : Assembly σ α} {left : Recorded}

/-- All members are online, all bridges are connected and no queue of signals is full. -/
structure Calm (w : Assembly σ α) : Prop where
  online : w.net.network.offline = []
  connected : ∀ s ∈ w.seats, s.execution.bridge?.isSome = true
  room : ∀ s ∈ w.seats, s.execution.signals.length < signalCapacity

/-- Any two that have joined know of each other, or will. -/
structure Convergent (w : Assembly σ α) : Prop where
  mindful : ∀ s ∈ w.seats, s.Mindful
  learns : ∀ a ∈ w.seats, ∀ b ∈ w.seats, a.Mutual b → a.execution.HasJoined →
    b.execution.HasJoined → a.Learns b w.net

theorem Convergent.of_subset (h : w.Convergent)
    (hpending : ∀ s ∈ w.seats, w.net.network.pending s.subscription ⊆
      left.network.pending s.subscription) :
    ({ w with net := left } : Assembly σ α).Convergent where
  mindful := h.mindful
  learns := fun a ha b hb hmutual hjoined hjoined' =>
    (h.learns a ha b hb hmutual hjoined hjoined').mono ⟨rfl, rfl⟩ ⟨rfl, rfl⟩ (List.Subset.refl _)
      id (hpending a ha) (hpending b hb)

/-- A new execution has not joined, so that it makes no pair. -/
theorem Convergent.concat (h : w.Convergent) {new : Seat σ α} (hmindful : new.Mindful)
    (hnot : ¬ new.execution.HasJoined) :
    ({ w with seats := w.seats ++ [new] } : Assembly σ α).Convergent := by
  have hseat (s : Seat σ α) (hs : s ∈ w.seats ++ [new]) : s ∈ w.seats ∨ s = new :=
    (List.mem_append.mp hs).imp_right List.mem_singleton.mp
  refine ⟨?_, ?_⟩
  · intro s hs
    rcases hseat s hs with hold | rfl
    · exact h.mindful s hold
    · exact hmindful
  · intro a ha b hb hmutual hjoined hjoined'
    rcases hseat a ha with hold | rfl
    · rcases hseat b hb with hold' | rfl
      · exact h.learns a hold b hold' hmutual hjoined hjoined'
      · exact absurd hjoined' hnot
    · exact absurd hjoined hnot

theorem mindful_begun {plan : Plan} {deadline : Deadline} {party : σ} {now id interval : Nat}
    {b : Bridge} :
    (⟨⟨plan, now, deadline, .joining b (.create interval) party⟩, id, [], []⟩ :
      Seat σ α).Mindful := by
  refine ⟨?_, nofun, nofun⟩
  rintro _ _ _ ⟨⟩
  rfl

/-- The one that acts can be either of a pair, or a third. -/
theorem Convergent.act {act : Seat.Act} {s s' : Seat σ α} (h : w.Convergent)
    (hattached : w.Attached) (hcalm : w.Calm) (hs : s ∈ w.seats)
    (hafter : s'.execution.bridge?.isSome = true) (hacts : s.Acts p w.net act s' left) :
    (⟨left, w.seats.map fun x => if x.subscription = s.subscription then s' else x⟩ :
      Assembly σ α).Convergent := by
  have hseat := hattached.seats s hs
  have hkept := hacts.kept
  have hshakes := hseat.shakes (hcalm.room s hs) hafter hacts
  have hmindful := (h.mindful s hs).of_acts hseat hafter hacts
  have hpresent {x : Seat σ α} (hx : x ∈ w.seats) : x.Present w.net :=
    ⟨hattached.seats x hx, hcalm.connected x hx⟩
  have himage (x : Seat σ α)
      (hx : x ∈ w.seats.map fun x => if x.subscription = s.subscription then s' else x) :
      x = s' ∨ x ∈ w.seats ∧ x.subscription ≠ s.subscription := by
    obtain ⟨y, hy, rfl⟩ := List.mem_map.mp hx
    by_cases hsame : y.subscription = s.subscription
    · exact Or.inl (if_pos hsame)
    · rw [if_neg hsame]
      exact Or.inr ⟨hy, hsame⟩
  refine ⟨?_, ?_⟩
  · intro x hx
    rcases himage x hx with rfl | ⟨hx, -⟩
    · exact hmindful
    · exact h.mindful x hx
  · intro a ha b hb hmutual hjoined hjoined'
    rcases himage a ha with rfl | ⟨hold, hother⟩ <;>
      rcases himage b hb with rfl | ⟨hold', hother'⟩
    · have hself := hmutual.peer
      rw [Group.isPeer_localMember] at hself
      cases hself
    · have hbefore : s.Mutual b := hmutual.of_group hkept.1.symm rfl
      exact hshakes.learns hother' hkept hbefore (hpresent hs) (hpresent hold') hcalm.online
        hjoined fun hj => h.learns s hs b hold' hbefore hj hjoined'
    · have hbefore : a.Mutual s := hmutual.of_group rfl hkept.1.symm
      exact hshakes.learns_other hother hkept hbefore (hpresent hs) (hpresent hold) hcalm.online
        hjoined' fun hj => h.learns a hold s hs hbefore hjoined hj
    · exact (h.learns a hold b hold' hmutual hjoined hjoined').mono ⟨rfl, rfl⟩ ⟨rfl, rfl⟩
        (List.Subset.refl _) id (hshakes.pending_subset hother) (hshakes.pending_subset hother')

theorem Convergent.abandon (h : w.Convergent) (subscription : Nat) :
    (⟨w.net.release subscription, w.seats.filter (·.subscription ≠ subscription)⟩ :
      Assembly σ α).Convergent := by
  have hkept {s : Seat σ α} (hs : s ∈ w.seats.filter (·.subscription ≠ subscription)) :
      s ∈ w.seats ∧ w.net.network.pending s.subscription ⊆
        (w.net.release subscription).network.pending s.subscription := by
    obtain ⟨hmem, hother⟩ := List.mem_filter.mp hs
    have hsame : (w.net.release subscription).network.pending s.subscription =
        w.net.network.pending s.subscription :=
      Network.pending_release_other (of_decide_eq_true hother)
    rw [hsame]
    exact ⟨hmem, List.Subset.refl _⟩
  refine ⟨fun s hs => h.mindful s (hkept hs).1, fun a ha b hb hmutual hjoined hjoined' => ?_⟩
  exact (h.learns a (hkept ha).1 b (hkept hb).1 hmutual hjoined hjoined').mono ⟨rfl, rfl⟩
    ⟨rfl, rfl⟩ (List.Subset.refl _) id (hkept ha).2 (hkept hb).2

theorem Convergent.step {move : Move σ} (h : w.Convergent) (hattached : w.Attached) (hcalm : w.Calm)
    (hcalm' : w'.Calm) (hstep : w.Steps p move w') : w'.Convergent := by
  have hquieted {left : Recorded} (hquiet : w.Quiet left) :
      ({ w with net := left } : Assembly σ α).Convergent := by
    refine h.of_subset fun s hs => ?_
    rw [hquiet.pending s hs (hcalm.connected s hs)]
    exact List.Subset.refl _
  cases hstep with
  | quiet hquiet => exact hquieted hquiet
  | post m group target bytes =>
    refine h.of_subset fun s _ => ?_
    rw [Recorded.network_send]
    exact Network.subset_pending_send _ _
  | connect _ hquiet =>
    refine (hquieted hquiet).concat mindful_begun ?_
    rintro ⟨seen, ⟨⟩⟩
  | @act act s s' left hs hacts =>
    have hafter := hcalm'.connected s' (List.mem_map.mpr ⟨s, hs, if_pos rfl⟩)
    exact h.act hattached hcalm hs hafter hacts
  | abandon subscription => exact h.abandon subscription

theorem convergent_run {moves : List (Move σ)}
    (calm : ∀ before, before <+: moves → (run p before).Calm) : (run p moves).Convergent := by
  induction moves using List.reverseRecOn with
  | nil =>
    refine ⟨?_, ?_⟩
    · rintro s ⟨⟩
    · rintro a ⟨⟩
  | append_singleton moves move ih =>
    have hbefore := ih fun before hbegins => calm before (hbegins.trans (List.prefix_append _ _))
    have hafter := calm _ List.prefix_rfl
    have hattached := attached_run p moves
    rw [run_append_singleton] at hafter ⊢
    exact hbefore.step hattached (calm moves (List.prefix_append _ _)) hafter
      (steps_step p hattached move)

/-- Whoever connects when, and in whatever order joins are broadcast, received and answered: once
everything is received and answered, any two members that have joined have heard each other, and a
member all of whose peers have joined gets ready without anyone's join being sent again. -/
theorem converges_of_drained {moves : List (Move σ)}
    (calm : ∀ before, before <+: moves → (run p before).Calm)
    (drained : ∀ s ∈ (run p moves).seats, (run p moves).net.network.pending s.subscription = [])
    (answered : ∀ s ∈ (run p moves).seats, s.owed = []) :
    (∀ a ∈ (run p moves).seats, ∀ b ∈ (run p moves).seats, a.Mutual b → a.execution.HasJoined →
        b.execution.HasJoined →
          (∃ signal ∈ a.accepted, signal.sender = b.group.localMember) ∧
            ∃ signal ∈ b.accepted, signal.sender = a.group.localMember) ∧
      ∀ s ∈ (run p moves).seats, s.execution.deadline.isExpired = false → s.execution.HasJoined →
        (∀ m ∈ s.group.peers, ∃ b ∈ (run p moves).seats,
          b.group.localMember = m ∧ s.Mutual b ∧ b.execution.HasJoined) →
        s.Converges (run p moves).net := by
  obtain ⟨hmindful, hlearns⟩ := convergent_run calm
  have hheard : ∀ a ∈ (run p moves).seats, ∀ b ∈ (run p moves).seats, a.Mutual b →
      a.execution.HasJoined → b.execution.HasJoined →
        ∃ signal ∈ a.accepted, signal.sender = b.group.localMember := by
    intro a ha b hb hmutual hjoined hjoined'
    cases hlearns a ha b hb hmutual hjoined hjoined' with
    | known hmem hsender => exact ⟨_, hmem, hsender⟩
    | coming hmem _ _ =>
      rw [drained a ha] at hmem
      cases hmem
    | answering hne => exact absurd (answered b hb) hne
    | asked hmem _ =>
      rw [drained b hb] at hmem
      cases hmem
  refine ⟨fun a ha b hb hmutual hjoined hjoined' => ⟨hheard a ha b hb hmutual hjoined hjoined',
    hheard b hb a ha hmutual.symm hjoined' hjoined⟩, ?_⟩
  intro s hs hlive hjoined hpeers
  refine (hmindful s hs).converges ((attached_run p moves).seats s hs) hlive hjoined fun m hm => ?_
  obtain ⟨b, hb, rfl, hmutual, hjoined'⟩ := hpeers m hm
  exact hheard s hs b hb hmutual hjoined hjoined'

/-- `b` connects after `a` has joined, so that `a` is not heard before it answers. -/
def greeting : List (Move Unit) :=
  [.connect Screening.a (planFor groupOfA) second () 0, .act 0 (.join 0), .act 0 (.join 0),
    .connect Screening.b (planFor groupOfB) second () 0, .act 1 (.join 0), .act 1 (.join 0),
    .act 0 .take, .act 0 .answer, .act 1 .take]

theorem calm_greeting : ∀ before ∈ greeting.inits,
    (run mute before).net.network.offline = [] ∧ ∀ s ∈ (run mute before).seats,
      s.execution.bridge?.isSome = true ∧ s.execution.signals.length < signalCapacity := by
  decide +kernel

theorem drained_greeting : ∀ s ∈ (run mute greeting).seats,
    (run mute greeting).net.network.pending s.subscription = [] ∧ s.owed = [] := by
  decide +kernel

theorem seats_greeting : (run mute greeting).seats.map (fun s =>
    (s.group, s.execution.deadline.isExpired, match s.execution.phase with
      | .joining _ barrier _ => some barrier.state
      | _ => none)) =
    [(groupOfA, false, some (.waiting [])), (groupOfB, false, some (.waiting []))] := by
  decide +kernel

theorem converges_greeting :
    ∃ a ∈ (run mute greeting).seats, ∃ b ∈ (run mute greeting).seats,
      a.group = groupOfA ∧ b.group = groupOfB ∧
        (∃ signal ∈ a.accepted, signal.sender = Screening.b) ∧
        (∃ signal ∈ b.accepted, signal.sender = Screening.a) ∧
        a.Converges (run mute greeting).net ∧ b.Converges (run mute greeting).net := by
  have calm : ∀ before, before <+: greeting → (run mute before).Calm := by
    intro before hbegins
    obtain ⟨honline, hseats⟩ := calm_greeting before ((List.mem_inits _ _).mpr hbegins)
    exact ⟨honline, fun s hs => (hseats s hs).1, fun s hs => (hseats s hs).2⟩
  obtain ⟨hheard, hconverges⟩ := converges_of_drained calm
    (fun s hs => (drained_greeting s hs).1) fun s hs => (drained_greeting s hs).2
  obtain ⟨a, rest, hseats, ha, hrest⟩ := List.map_eq_cons_iff.mp seats_greeting
  obtain ⟨b, none', rfl, hb, -⟩ := List.map_eq_cons_iff.mp hrest
  rw [hseats] at hheard hconverges ⊢
  simp only [Prod.mk.injEq] at ha hb
  have hjoined {s : Seat Unit Unit} (hstate : (match s.execution.phase with
      | .joining _ barrier _ => some barrier.state
      | _ => none) = some (.waiting [])) : s.execution.HasJoined := by
    unfold Execution.HasJoined
    split at hstate
    next hphase =>
      rw [hphase]
      exact ⟨[], Option.some.inj hstate⟩
    next => cases hstate
  have hmutual : a.Mutual b := by
    refine ⟨?_, ?_, ?_⟩ <;> rw [ha.1, hb.1] <;> decide
  have hja := hjoined ha.2.2
  have hjb := hjoined hb.2.2
  have hmem : a ∈ a :: b :: none' := List.mem_cons_self
  have hmem' : b ∈ a :: b :: none' := List.mem_cons_of_mem _ List.mem_cons_self
  obtain ⟨hsignal, hsignal'⟩ := hheard a hmem b hmem' hmutual hja hjb
  have hpeers : a.group.peers = [Screening.b] := by
    rw [ha.1]
    decide
  have hpeers' : b.group.peers = [Screening.a] := by
    rw [hb.1]
    decide
  have hlocal : a.group.localMember = Screening.a := by
    rw [ha.1]
    rfl
  have hlocal' : b.group.localMember = Screening.b := by
    rw [hb.1]
    rfl
  refine ⟨a, hmem, b, hmem', ha.1, hb.1, hlocal' ▸ hsignal, hlocal ▸ hsignal', ?_, ?_⟩
  · refine hconverges a hmem ha.2.1 hja fun m hm => ⟨b, hmem', ?_, hmutual, hjb⟩
    rw [hpeers] at hm
    rw [hlocal', List.mem_singleton.mp hm]
  · refine hconverges b hmem' hb.2.1 hjb fun m hm => ⟨a, hmem, ?_, hmutual.symm, hja⟩
    rw [hpeers'] at hm
    rw [hlocal, List.mem_singleton.mp hm]

end Assembly

end ThresholdSigning
