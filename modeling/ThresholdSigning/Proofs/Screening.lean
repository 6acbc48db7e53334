import ThresholdSigning.Bridge
import ThresholdSigning.Link
import ThresholdSigning.Proofs.FirstOccurrence
import ThresholdSigning.Proofs.Frame

namespace ThresholdSigning

/-- The round message that inbound bytes stand for in the eyes of a group's local member: published
to the group by a peer, who is also named inside. -/
def Group.roundMessage? (g : Group) (inbound : Inbound) : Option ProtocolMessage :=
  if inbound.group = g.id ∧ inbound.sender ∈ g.members ∧ inbound.sender ≠ g.localMember then
    match Envelope.decode inbound.bytes with
    | .ok (.protocol m) => if m.sender = inbound.sender then some m else none
    | _ => none
  else none

theorem Group.roundMessage?_eq_some_iff {g : Group} {inbound : Inbound} {m : ProtocolMessage} :
    g.roundMessage? inbound = some m ↔
      inbound.group = g.id ∧ inbound.sender ∈ g.members ∧ inbound.sender ≠ g.localMember ∧
        Envelope.decode inbound.bytes = .ok (.protocol m) ∧ m.sender = inbound.sender := by
  unfold roundMessage?
  constructor
  · intro h
    split at h
    next hs =>
      split at h
      next m' hm =>
        split at h
        next hsender =>
          cases h
          exact ⟨hs.1, hs.2.1, hs.2.2, hm, hsender⟩
        next => cases h
      next => cases h
    next => cases h
  · rintro ⟨hgroup, hmember, hlocal, hdecode, hsender⟩
    simp only [hgroup, hmember, ne_eq, hlocal, not_false_eq_true, and_self, if_true, hdecode,
      hsender]

/-- Different messages of a list have different fingerprints. -/
def CollisionFree (ms : List ProtocolMessage) : Prop :=
  ∀ m ∈ ms, ∀ m' ∈ ms, m.fingerprint = m'.fingerprint → m = m'

namespace Bridge

variable {τ : Type} {b : Bridge} {t : Transport τ} {s : τ} {inbound : Inbound}

/-- The message that inbound bytes add to the stream of a bridge. -/
def fresh? (b : Bridge) (inbound : Inbound) : Option ProtocolMessage :=
  (b.group.roundMessage? inbound).filter (·.fingerprint ∉ b.delivered)

theorem screen_eq_protocol_iff {m : ProtocolMessage} :
    b.screen inbound = .ok (.protocol m) ↔ b.fresh? inbound = some m := by
  rw [fresh?, Option.filter_eq_some_iff, Group.roundMessage?_eq_some_iff, decide_eq_true_eq]
  unfold screen Group.isMember
  constructor
  · intro h
    split at h
    next => cases h
    next hgroup =>
      split at h
      next => cases h
      next hmember =>
        split at h
        next => cases h
        next hlocal =>
          split at h
          next => cases h
          next e hdecode =>
            split at h
            next => cases h
            next hsender =>
              split at h
              next m' =>
                split at h
                next => cases h
                next hnew =>
                  cases h
                  exact ⟨⟨not_not.mp hgroup, by simpa using hmember, hlocal, hdecode,
                    not_not.mp hsender⟩, hnew⟩
              next => cases h
              next => cases h
  · rintro ⟨⟨hgroup, hmember, hlocal, hdecode, hsender⟩, hnew⟩
    simp only [hgroup, hmember, hlocal, hdecode, Envelope.sender, hsender, ne_eq,
      not_true_eq_false, decide_true, Bool.not_true, Bool.false_eq_true, if_false, hnew]

theorem signal_eq (b : Bridge) (signal : Signal) :
    ∃ signals, b.signal signal = { b with signals := signals } := by
  unfold Bridge.signal
  split
  next => exact ⟨_, rfl⟩
  next => exact ⟨b.signals, rfl⟩

/-- Inbound bytes can add to the signals, and to the messages only what is fresh. -/
theorem dispatch_bridge_eq (b : Bridge) (t : Transport τ) (inbound : Inbound) (s : τ) :
    ∃ signals, (b.dispatch t inbound s).2.1 =
      { b with
        delivered := (b.fresh? inbound).toList.map ProtocolMessage.fingerprint ++ b.delivered
        messages := b.messages ++ (b.fresh? inbound).toList
        signals := signals } := by
  unfold dispatch
  cases hs : b.screen inbound with
  | error e =>
    have hf : b.fresh? inbound = none := by
      cases hf : b.fresh? inbound with
      | none => rfl
      | some m =>
        rw [screen_eq_protocol_iff.mpr hf] at hs
        cases hs
    exact ⟨b.signals, by simp [hf]⟩
  | ok e =>
    have hne (h : ∀ m, e ≠ .protocol m) : b.fresh? inbound = none := by
      cases hf : b.fresh? inbound with
      | none => rfl
      | some m =>
        rw [screen_eq_protocol_iff.mpr hf] at hs
        cases hs
        exact absurd rfl (h m)
    cases e with
    | protocol m =>
      rw [screen_eq_protocol_iff.mp hs]
      exact ⟨b.signals, rfl⟩
    | join sender =>
      obtain ⟨signals, he⟩ := signal_eq b (.join sender)
      exact ⟨signals, by simp [accept, he, hne (by simp)]⟩
    | announce sender =>
      obtain ⟨signals, he⟩ := signal_eq b (.announce sender)
      exact ⟨signals, by simp [accept, he, hne (by simp)]⟩

/-- What goes out while inbound bytes are handled is at most one announce to the group. -/
theorem dispatch_state_eq (b : Bridge) (t : Transport τ) (inbound : Inbound) (s : τ) :
    (b.dispatch t inbound s).2.2 = s ∨
      (b.dispatch t inbound s).2.2 = (t.send b.group.id .everyone b.announce s).2 := by
  unfold dispatch
  split
  next => exact Or.inl rfl
  next e _ =>
    cases e with
    | protocol m => exact Or.inl rfl
    | join sender => exact Or.inr rfl
    | announce sender => exact Or.inl rfl

theorem step_of_closed (h : b.isOpen = false) : b.step t s = none := by
  simp [step, h]

theorem step_of_nothing {left : τ} (hopen : b.isOpen = true)
    (hr : t.receive b.subscription s = (.nothing, left)) : b.step t s = none := by
  simp [step, hopen, hr]

theorem step_of_envelope {left : τ} (hopen : b.isOpen = true)
    (hr : t.receive b.subscription s = (.envelope inbound, left)) :
    b.step t s = some (b.dispatch t inbound left) := by
  simp [step, hopen, hr]

theorem step_of_end {left : τ} (hopen : b.isOpen = true)
    (hr : t.receive b.subscription s = (.closed, left)) :
    b.step t s = some (none, b.close t left) := by
  simp [step, hopen, hr]

theorem close_of_isOpen (hopen : b.isOpen = true) :
    b.close t s = ({ b with isOpen := false }, t.release b.subscription s) := if_pos hopen

/-- All that one step of a bridge can be. -/
inductive Steps (b : Bridge) (t : Transport τ) (s : τ) : Option Event → Bridge → τ → Prop
  | take {inbound : Inbound} {left s' : τ} {event : Option Event} {b' : Bridge}
      (hopen : b.isOpen = true)
      (hreceive : t.receive b.subscription s = (.envelope inbound, left))
      (hdispatch : b.dispatch t inbound left = (event, b', s')) : b.Steps t s event b' s'
  | shut {left : τ} (hopen : b.isOpen = true)
      (hreceive : t.receive b.subscription s = (.closed, left)) :
      b.Steps t s none { b with isOpen := false } (t.release b.subscription left)

theorem steps_of_step {event : Option Event} {b' : Bridge} {s' : τ}
    (h : b.step t s = some (event, b', s')) : b.Steps t s event b' s' := by
  by_cases hopen : b.isOpen = true
  · rcases hr : t.receive b.subscription s with ⟨arrival, left⟩
    cases arrival with
    | envelope inbound =>
      rw [step_of_envelope hopen hr] at h
      exact .take hopen hr (Option.some.inj h)
    | nothing =>
      rw [step_of_nothing hopen hr] at h
      cases h
    | closed =>
      rw [step_of_end hopen hr, close_of_isOpen hopen] at h
      cases h
      exact .shut hopen hr
  · rw [step_of_closed (by simpa using hopen)] at h
    cases h

/-- The stream of a bridge that has taken some inbound bytes: the first of the round messages among
them, as far as fingerprints tell messages apart. -/
structure Screened (b : Bridge) (taken : List Inbound) (stream : List ProtocolMessage) : Prop where
  stream_eq : stream =
    firstBy ProtocolMessage.fingerprint (taken.filterMap b.group.roundMessage?)
  mem_delivered : ∀ x, x ∈ b.delivered ↔
    x ∈ (taken.filterMap b.group.roundMessage?).map ProtocolMessage.fingerprint

theorem screened_create (group : Group) (subscription : Nat) (announce : ByteArray) :
    (create group subscription announce).Screened [] [] where
  stream_eq := rfl
  mem_delivered := by simp [create]

theorem Screened.dispatch {taken : List Inbound} {stream : List ProtocolMessage}
    (h : b.Screened taken stream) (t : Transport τ) (inbound : Inbound) (s : τ) :
    (b.dispatch t inbound s).2.1.Screened (taken ++ [inbound])
      (stream ++ (b.fresh? inbound).toList) := by
  obtain ⟨signals, he⟩ := dispatch_bridge_eq b t inbound s
  rw [he]
  cases hm : b.group.roundMessage? inbound with
  | none =>
    have hf : b.fresh? inbound = none := by simp [fresh?, hm]
    have htaken : (taken ++ [inbound]).filterMap b.group.roundMessage? =
        taken.filterMap b.group.roundMessage? := by simp [hm]
    exact ⟨by simpa [hf, htaken] using h.stream_eq, by simpa [hf, htaken] using h.mem_delivered⟩
  | some m =>
    have htaken : (taken ++ [inbound]).filterMap b.group.roundMessage? =
        taken.filterMap b.group.roundMessage? ++ [m] := by simp [hm]
    have hknown := h.mem_delivered m.fingerprint
    by_cases hold : m.fingerprint ∈ b.delivered
    · have hf : b.fresh? inbound = none := by simp [fresh?, hm, hold]
      constructor
      · simp only [htaken, firstBy_append_singleton, if_pos (hknown.mp hold)]
        simpa [hf] using h.stream_eq
      · intro x
        simp only [htaken, hf, List.map_append, List.mem_append, ← h.mem_delivered x]
        simp only [Option.toList_none, List.map_nil, List.not_mem_nil, false_or, List.map_cons,
          List.mem_singleton]
        constructor
        · exact Or.inl
        · rintro (hx | rfl)
          · exact hx
          · exact hold
    · have hf : b.fresh? inbound = some m := by simp [fresh?, hm, hold]
      constructor
      · simp only [htaken, firstBy_append_singleton, if_neg (mt hknown.mpr hold)]
        simp [hf, h.stream_eq]
      · intro x
        simp only [htaken, hf, List.map_append, List.mem_append, h.mem_delivered x]
        simp only [Option.toList_some, List.map_cons, List.map_nil, List.mem_singleton]
        exact or_comm

/-- What a bridge takes while it is drained. -/
def intake (b : Bridge) (t : Transport τ) (s : τ) : Nat → List Inbound
  | 0 => []
  | fuel + 1 =>
    if b.isOpen then
      match t.receive b.subscription s with
      | (.envelope inbound, s) =>
        let (_, b, s) := b.dispatch t inbound s
        inbound :: b.intake t s fuel
      | _ => []
    else []

theorem intake_of_closed (h : b.isOpen = false) (fuel : Nat) : b.intake t s fuel = [] := by
  cases fuel with
  | zero => rfl
  | succ fuel => simp [intake, h]

theorem close_eq : (b.close t s).1 = { b with isOpen := false } := by
  unfold close
  split
  next => rfl
  next h =>
    have hclosed : b.isOpen = false := by simpa using h
    rw [← hclosed]

theorem Screened.of_eq {b' : Bridge} {taken : List Inbound} {stream : List ProtocolMessage}
    (h : b.Screened taken stream) (hgroup : b'.group = b.group)
    (hdelivered : b'.delivered = b.delivered) : b'.Screened taken stream := by
  constructor
  · rw [hgroup]
    exact h.stream_eq
  · rw [hgroup, hdelivered]
    exact h.mem_delivered

theorem Screened.drain {taken : List Inbound} (h : b.Screened taken b.messages) (t : Transport τ)
    (s : τ) (fuel : Nat) :
    (b.drain t s fuel).2.1.Screened (taken ++ b.intake t s fuel) (b.drain t s fuel).2.1.messages ∧
      (b.drain t s fuel).2.1.group = b.group := by
  induction fuel generalizing b taken s with
  | zero => simpa [Bridge.drain, intake] using h
  | succ fuel ih =>
    by_cases hopen : b.isOpen
    · cases hr : t.receive b.subscription s with
      | mk arrival left =>
        cases arrival with
        | envelope inbound =>
          have hstep := step_of_envelope hopen hr
          have hnext := h.dispatch t inbound left
          obtain ⟨signals, he⟩ := dispatch_bridge_eq b t inbound left
          have hmessages : (b.dispatch t inbound left).2.1.messages =
              b.messages ++ (b.fresh? inbound).toList := by rw [he]
          have hgroup : (b.dispatch t inbound left).2.1.group = b.group := by rw [he]
          rw [← hmessages] at hnext
          have hrest := ih hnext (b.dispatch t inbound left).2.2
          simp only [Bridge.drain, hstep, intake, hopen, if_true, hr]
          rw [List.append_assoc, List.singleton_append, hgroup] at hrest
          exact hrest
        | nothing =>
          have hstep := step_of_nothing hopen hr
          simpa [Bridge.drain, hstep, intake, hopen, hr] using h
        | closed =>
          have hstep := step_of_end hopen hr
          rw [close_of_isOpen hopen] at hstep
          have hshut : ({ b with isOpen := false } : Bridge).Screened taken b.messages :=
            h.of_eq rfl rfl
          have hrest := ih hshut (t.release b.subscription left)
          rw [intake_of_closed rfl] at hrest
          simp only [Bridge.drain, hstep, intake, hopen, if_true, hr]
          exact hrest
    · have hstep : b.step t s = none := step_of_closed (by simpa using hopen)
      simpa [Bridge.drain, hstep, intake, hopen] using h

theorem connect_eq_ok {g : Group} {left : τ} (h : connect g t s = (.ok b, left)) :
    t.localMember = g.localMember ∧ b = create g b.subscription b.announce ∧
      t.subscribe g.id s = (.ok b.subscription, left) ∧
      (Envelope.announce g.localMember).encode = .ok b.announce := by
  unfold connect at h
  split at h
  next => cases h
  next hlocal =>
    split at h
    next => cases h
    next id s' hid =>
      split at h
      next => cases h
      next announce ha =>
        cases h
        exact ⟨not_not.mp hlocal, rfl, hid, ha⟩

/-- Connecting leaves the transport alone, or subscribes, or subscribes and takes that back. -/
theorem connect_state_eq (g : Group) (t : Transport τ) (s : τ) :
    (connect g t s).2 = s ∨ (connect g t s).2 = (t.subscribe g.id s).2 ∨
      ∃ id left, t.subscribe g.id s = (.ok id, left) ∧
        (connect g t s).2 = t.release id left := by
  unfold connect
  split
  next => exact Or.inl rfl
  next =>
    split
    next hsubscribe => exact Or.inr (Or.inl (by rw [hsubscribe]))
    next id left hsubscribe =>
      split
      next => exact Or.inr (Or.inr ⟨id, left, hsubscribe, rfl⟩)
      next => exact Or.inr (Or.inl (by rw [hsubscribe]))

theorem messages_drain_of_create {g : Group} {subscription : Nat} {announce : ByteArray}
    (he : b = create g subscription announce) (t : Transport τ) (s : τ) (fuel : Nat)
    (apart : CollisionFree ((b.intake t s fuel).filterMap g.roundMessage?)) :
    (b.drain t s fuel).2.1.messages =
      ((b.intake t s fuel).filterMap g.roundMessage?).eraseDups := by
  have hgroup : b.group = g := by rw [he]; rfl
  have hstart : b.Screened [] b.messages := by
    rw [he]
    exact screened_create g subscription announce
  obtain ⟨hscreened, hkept⟩ := hstart.drain t s fuel
  have hstream := hscreened.stream_eq
  rw [hkept, hgroup, List.nil_append] at hstream
  rw [hstream, firstBy_eq_eraseDups apart]

/-- A link hands over its inbox from front to back, so that every list can be what is taken. -/
theorem intake_link (hopen : b.isOpen = true) (m : MemberId) (l : Link) :
    b.intake (Link.transport m) l l.inbox.length = l.inbox := by
  generalize hn : l.inbox.length = n
  induction n generalizing b l with
  | zero => exact (List.length_eq_zero_iff.mp hn).symm
  | succ n ih =>
    obtain ⟨inbound, inbox, hinbox⟩ := List.exists_cons_of_length_eq_add_one hn
    have hr : (Link.transport m).receive b.subscription l =
        (.envelope inbound, { l with inbox := inbox }) := by simp [Link.transport, hinbox]
    obtain ⟨signals, he⟩ := dispatch_bridge_eq b (Link.transport m) inbound
      { l with inbox := inbox }
    have hstill : (b.dispatch (Link.transport m) inbound { l with inbox := inbox }).2.1.isOpen =
        true := by
      rw [he]
      exact hopen
    have hleft : (b.dispatch (Link.transport m) inbound { l with inbox := inbox }).2.2.inbox =
        inbox := by
      rcases dispatch_state_eq b (Link.transport m) inbound { l with inbox := inbox } with hs | hs
      · rw [hs]
      · rw [hs]
        simp only [Link.transport]
        split <;> rfl
    have hlen : inbox.length = n := by simpa [hinbox] using hn
    have hrest := ih hstill _ (by rw [hleft]; exact hlen)
    simp only [intake, hopen, if_true, hr, hrest, hleft, hinbox]

/-- Whatever a transport hands over, the stream of a connected bridge consists of the first
occurrences of the round messages in it, in their order; and it can be handed over any list. -/
theorem messages_drain_eq_eraseDups {g : Group} {left : τ} (h : connect g t s = (.ok b, left)) :
    (∀ fuel, CollisionFree ((b.intake t left fuel).filterMap g.roundMessage?) →
        (b.drain t left fuel).2.1.messages =
          ((b.intake t left fuel).filterMap g.roundMessage?).eraseDups) ∧
      ∀ l : Link, CollisionFree (l.inbox.filterMap g.roundMessage?) →
        (b.drain (Link.transport g.localMember) l l.inbox.length).2.1.messages =
          (l.inbox.filterMap g.roundMessage?).eraseDups := by
  have he := (connect_eq_ok h).2.1
  refine ⟨fun fuel apart => messages_drain_of_create he t left fuel apart, ?_⟩
  intro l apart
  have hopen : b.isOpen = true := by rw [he]; rfl
  have hintake := intake_link hopen g.localMember l
  have hstream := messages_drain_of_create he (Link.transport g.localMember) l l.inbox.length
  rw [hintake] at hstream
  exact hstream apart

end Bridge

namespace Screening

def a : MemberId := ⟨⟨#[97]⟩⟩
def b : MemberId := ⟨⟨#[98]⟩⟩
def c : MemberId := ⟨⟨#[99]⟩⟩

def group : Group := ⟨"g", b, [a, b, c], 1, by decide, by decide, by decide, by decide⟩

def said (sender : MemberId) (payload : List UInt8) : ProtocolMessage := ⟨sender, ⟨⟨payload⟩⟩, true⟩

def frame (sender : MemberId) (payload : List UInt8) : ByteArray :=
  (Envelope.protocol (said sender payload)).framed

/-- An outsider, a forged sender, bytes that are no envelope, another group, the local member, a
repetition, and among them messages of `a` and `c`. -/
def feed : List Inbound :=
  [⟨"g", ⟨⟨#[120]⟩⟩, frame ⟨⟨#[120]⟩⟩ [1]⟩, ⟨"g", a, frame c [2]⟩, ⟨"g", a, ⟨#[0xde, 0xad]⟩⟩,
    ⟨"g", a, frame a [3]⟩, ⟨"h", a, frame a [4]⟩, ⟨"g", b, frame b [5]⟩, ⟨"g", a, frame a [3]⟩,
    ⟨"g", c, frame c [3]⟩, ⟨"g", a, frame a [6]⟩]

def link : Link := { Link.create b none false with inbox := feed }

def bridge : Bridge := Bridge.create group 0 (Envelope.announce b).framed

theorem connect_link : Bridge.connect group (Link.transport b) link = (.ok bridge, link) := rfl

theorem roundMessages_feed : feed.filterMap group.roundMessage? =
    [said a [3], said a [3], said c [3], said a [6]] := by
  decide +kernel

theorem messages_drain_feed :
    Bridge.connect group (Link.transport b) link = (.ok bridge, link) ∧
      CollisionFree (link.inbox.filterMap group.roundMessage?) ∧
      (bridge.drain (Link.transport group.localMember) link link.inbox.length).2.1.messages =
        [said a [3], said c [3], said a [6]] := by
  have hround : link.inbox.filterMap group.roundMessage? =
      [said a [3], said a [3], said c [3], said a [6]] := roundMessages_feed
  have apart : CollisionFree (link.inbox.filterMap group.roundMessage?) := by
    rw [hround]
    unfold CollisionFree
    decide +kernel
  have hstream := (Bridge.messages_drain_eq_eraseDups connect_link).2 link apart
  rw [hround] at hstream
  refine ⟨connect_link, apart, ?_⟩
  rw [hstream]
  decide +kernel

end Screening

end ThresholdSigning
