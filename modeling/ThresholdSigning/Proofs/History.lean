import ThresholdSigning.Proofs.Network
import ThresholdSigning.Proofs.Signals

namespace ThresholdSigning

/-- Bytes that were sent with success, and the subscriptions at which they arrived. -/
structure Post where
  sender : MemberId
  group : String
  target : Target
  bytes : ByteArray
  reached : List Nat

/-- The post is a join or an announce in the name of the member that published it. -/
def Post.IsSignal (post : Post) : Prop :=
  ∃ signal : Signal, Envelope.decode post.bytes = .ok signal.envelope ∧ signal.sender = post.sender

inductive Record
  | subscribed (m : MemberId) (group : String) (id : Nat)
  | published (post : Post)

/-- A network with all that was subscribed and published, the oldest first. -/
structure Recorded where
  network : Network
  log : List Record

namespace Recorded

def empty : Recorded := ⟨.empty, []⟩

def subscribe (r : Recorded) (m : MemberId) (group : String) :
    Except TransportError Nat × Recorded :=
  match r.network.subscribe m group with
  | (.error e, left) => (.error e, { r with network := left })
  | (.ok id, left) => (.ok id, ⟨left, r.log ++ [.subscribed m group id]⟩)

def post (r : Recorded) (m : MemberId) (group : String) (target : Target) (bytes : ByteArray) :
    Post :=
  ⟨m, group, target, bytes,
    (r.network.routes.filter (r.network.reaches m group target)).map Route.id⟩

def send (r : Recorded) (m : MemberId) (group : String) (target : Target) (bytes : ByteArray) :
    Except TransportError Unit × Recorded :=
  match r.network.send m group target bytes with
  | (.error e, left) => (.error e, { r with network := left })
  | (.ok _, left) => (.ok (), ⟨left, r.log ++ [.published (r.post m group target bytes)]⟩)

def receive (r : Recorded) (id : Nat) : Arrival × Recorded :=
  ((r.network.receive id).1, { r with network := (r.network.receive id).2 })

def release (r : Recorded) (id : Nat) : Recorded := { r with network := r.network.release id }

def transport (m : MemberId) : Transport Recorded where
  localMember := m
  subscribe group r := r.subscribe m group
  receive id r := r.receive id
  release id r := r.release id
  send group target bytes r := r.send m group target bytes

variable {r r' left mid : Recorded} {m other : MemberId} {group : String} {target : Target}
  {bytes : ByteArray} {id own : Nat}

theorem send_eq (r : Recorded) (m : MemberId) (group : String) (target : Target)
    (bytes : ByteArray) :
    m ∈ r.network.offline ∧ r.send m group target bytes = (.error (.notConnected m), r) ∨
      m ∉ r.network.offline ∧ r.send m group target bytes =
        (.ok (), ⟨(r.network.send m group target bytes).2,
          r.log ++ [.published (r.post m group target bytes)]⟩) := by
  by_cases hoff : m ∈ r.network.offline
  · refine Or.inl ⟨hoff, ?_⟩
    simp only [send, Network.send, hoff, if_true]
  · refine Or.inr ⟨hoff, ?_⟩
    simp only [send, Network.send, hoff, if_false]

theorem network_send (r : Recorded) (m : MemberId) (group : String) (target : Target)
    (bytes : ByteArray) :
    (r.send m group target bytes).2.network = (r.network.send m group target bytes).2 := by
  unfold send
  split <;> rename_i h <;> rw [h]

theorem network_subscribe (r : Recorded) (m : MemberId) (group : String) :
    (r.subscribe m group).2.network = (r.network.subscribe m group).2 := by
  unfold subscribe
  split <;> rename_i h <;> rw [h]

theorem subscribe_eq_ok (h : r.subscribe m group = (.ok id, left)) :
    r.network.subscribe m group = (.ok id, left.network) ∧
      left.log = r.log ++ [.subscribed m group id] := by
  unfold subscribe at h
  split at h
  next => cases h
  next id' left' hr =>
    cases h
    exact ⟨hr, rfl⟩

theorem network_receive {arrival : Arrival} (h : r.receive id = (arrival, left)) :
    r.network.receive id = (arrival, left.network) := by
  cases h
  rfl

/-- All that waits was published by the member that it names, and has arrived where it waits. -/
def Traced (r : Recorded) : Prop :=
  ∀ id, ∀ inbound ∈ r.network.pending id, ∃ post, .published post ∈ r.log ∧
    post.sender = inbound.sender ∧ post.group = inbound.group ∧ post.bytes = inbound.bytes ∧
      id ∈ post.reached

theorem Traced.of_mem (h : r.Traced) (hlog : r.log <+: left.log)
    (hpending : ∀ id, ∀ inbound ∈ left.network.pending id, inbound ∈ r.network.pending id) :
    left.Traced := by
  intro id inbound hmem
  obtain ⟨post, hpost, hrest⟩ := h id inbound (hpending id inbound hmem)
  exact ⟨post, hlog.subset hpost, hrest⟩

theorem Traced.send (h : r.Traced) (m : MemberId) (group : String) (target : Target)
    (bytes : ByteArray) : (r.send m group target bytes).2.Traced := by
  rcases r.send_eq m group target bytes with ⟨-, hsend⟩ | ⟨-, hsend⟩
  · rw [hsend]
    exact h
  · rw [hsend]
    intro id inbound hmem
    rcases Network.mem_pending_of_send target bytes hmem with
      hold | ⟨rfl, -, route, hroute, hreach, hid⟩
    · obtain ⟨post, hpost, hrest⟩ := h id inbound hold
      exact ⟨post, List.mem_append_left _ hpost, hrest⟩
    · refine ⟨r.post m group target bytes, List.mem_append_right _ (List.mem_singleton_self _),
        rfl, rfl, rfl, ?_⟩
      exact List.mem_map.mpr ⟨route, List.mem_filter.mpr ⟨hroute, hreach⟩, hid⟩

/-- A signal of a member was published to a group and has arrived at a subscription. -/
def Vouched (r : Recorded) (m : MemberId) (group : String) (id : Nat) : Prop :=
  ∃ post, .published post ∈ r.log ∧ post.sender = m ∧ post.group = group ∧ id ∈ post.reached ∧
    post.IsSignal

theorem Vouched.mono (h : r.Vouched m group id) (hlog : r.log <+: left.log) :
    left.Vouched m group id := by
  obtain ⟨post, hpost, hrest⟩ := h
  exact ⟨post, hlog.subset hpost, hrest⟩

theorem Traced.vouched {g : Group} {inbound : Inbound} {signal : Signal} (h : r.Traced)
    (hpending : inbound ∈ r.network.pending id) (hears : g.Hears inbound signal) :
    r.Vouched signal.sender g.id id := by
  obtain ⟨post, hpost, hsender, hgroup, hbytes, hreached⟩ := h id inbound hpending
  refine ⟨post, hpost, hsender.trans hears.sender.symm, hgroup.trans hears.group, hreached,
    signal, ?_, hears.sender.trans hsender.symm⟩
  rw [hbytes]
  exact hears.decode

/-- Whenever a member has published a signal to a group, it had subscribed for the group before. -/
def Introduced (r : Recorded) (m : MemberId) (group : String) : Prop :=
  ∀ before post after, r.log = before ++ .published post :: after → post.sender = m →
    post.group = group → post.IsSignal → ∃ id, .subscribed m group id ∈ before

theorem Introduced.append (h : r.Introduced m group) {record : Record} {left : Recorded}
    (hlog : left.log = r.log ++ [record])
    (hrecord : ∀ post, record = .published post → post.sender = m → post.group = group →
      post.IsSignal → ∃ id, .subscribed m group id ∈ r.log) : left.Introduced m group := by
  intro before post after heq hsender hgroup hsignal
  rw [hlog] at heq
  -- The post is the new record, or it stands in the old log with the same records before it.
  rcases List.eq_nil_or_concat after with rfl | ⟨rest, last, rfl⟩
  · obtain ⟨rfl, hlast⟩ := List.append_inj' heq rfl
    exact hrecord post (List.singleton_inj.mp hlast) hsender hgroup hsignal
  · rw [List.concat_eq_append, ← List.cons_append, ← List.append_assoc] at heq
    exact h before post rest (List.append_inj' heq rfl).1 hsender hgroup hsignal

theorem Introduced.send (h : r.Introduced m group) {other : MemberId} {group' : String}
    (hknown : other = m → group' = group →
      (∃ id, .subscribed m group id ∈ r.log) ∨ ¬ (r.post other group' target bytes).IsSignal) :
    (r.send other group' target bytes).2.Introduced m group := by
  rcases r.send_eq other group' target bytes with ⟨-, hsend⟩ | ⟨-, hsend⟩
  · rw [hsend]
    exact h
  · rw [hsend]
    refine h.append rfl ?_
    rintro post ⟨⟩ hsender hgroup hsignal
    exact (hknown hsender hgroup).resolve_right fun hno => hno hsignal

/-- What a member does to a network for a group: it sends, and receives from one subscription. -/
inductive Traffic (m : MemberId) (group : String) (own : Nat) (r : Recorded) : Recorded → Prop
  | refl : r.Traffic m group own r
  | send {mid : Recorded} (h : r.Traffic m group own mid) (target : Target) (bytes : ByteArray) :
      r.Traffic m group own (mid.send m group target bytes).2
  | receive {mid : Recorded} (h : r.Traffic m group own mid) :
      r.Traffic m group own (mid.receive own).2

theorem Traffic.advances (h : r.Traffic m group own left) :
    r.network.Advances left.network := by
  induction h with
  | refl => exact .refl _
  | send _ target bytes ih =>
    rw [network_send]
    exact ih.trans (Network.advances_send target bytes)
  | receive _ ih => exact ih.trans (Network.advances_receive _ _)

theorem Traffic.address? (h : r.Traffic m group own left) (id : Nat) :
    left.network.address? id = r.network.address? id := by
  induction h with
  | refl => rfl
  | send _ target bytes ih => rw [network_send, Network.address?_send, ih]
  | receive _ ih => exact (Network.address?_receive _ _ _).trans ih

theorem log_send (r : Recorded) (m : MemberId) (group : String) (target : Target)
    (bytes : ByteArray) : r.log <+: (r.send m group target bytes).2.log := by
  rcases r.send_eq m group target bytes with ⟨-, hsend⟩ | ⟨-, hsend⟩
  · simp only [hsend, List.prefix_rfl]
  · simp only [hsend, List.prefix_append]

theorem log_subscribe (r : Recorded) (m : MemberId) (group : String) :
    r.log <+: (r.subscribe m group).2.log := by
  unfold subscribe
  split
  next => exact List.prefix_rfl
  next => exact List.prefix_append _ _

theorem Traffic.log (h : r.Traffic m group own left) : r.log <+: left.log := by
  induction h with
  | refl => exact List.prefix_rfl
  | send _ target bytes ih => exact ih.trans (log_send _ _ _ _ _)
  | receive _ ih => exact ih

theorem Traffic.traced (h : r.Traffic m group own left) (htraced : r.Traced) : left.Traced := by
  induction h with
  | refl => exact htraced
  | send _ target bytes ih => exact ih.send m group target bytes
  | receive _ ih =>
    exact ih.of_mem List.prefix_rfl fun id inbound => Network.mem_pending_of_receive _ _ _

theorem Traffic.introduced {group' : String} (h : r.Traffic other group' own left)
    (hintroduced : r.Introduced m group)
    (hknown : other = m → group' = group → ∃ id, .subscribed m group id ∈ r.log) :
    left.Introduced m group := by
  induction h with
  | refl => exact hintroduced
  | @send mid h target bytes ih =>
    refine ih.send fun hm hgroup => Or.inl ?_
    obtain ⟨id, hid⟩ := hknown hm hgroup
    exact ⟨id, h.log.subset hid⟩
  | receive _ ih => exact ih

end Recorded

end ThresholdSigning
