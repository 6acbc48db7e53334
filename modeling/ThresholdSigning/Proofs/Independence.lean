import ThresholdSigning.Proofs.Screening

namespace ThresholdSigning

namespace Bridge

variable {σ τ : Type} {b b' : Bridge} {t : Transport τ} {u : Transport σ} {s : τ} {v : σ}
  {inbound : Inbound} {c : MemberId}

/-- Handles inbound bytes one after the other, and notes the event that each of them leaves. -/
def takes (b : Bridge) (t : Transport τ) (s : τ) :
    List Inbound → List (Inbound × Option Event) × Bridge
  | [] => ([], b)
  | inbound :: rest =>
    let (event, b, s) := b.dispatch t inbound s
    let (entries, b) := b.takes t s rest
    ((inbound, event) :: entries, b)

/-- What a bridge takes while it is drained, with the events. -/
def account (b : Bridge) (t : Transport τ) (s : τ) : Nat → List (Inbound × Option Event)
  | 0 => []
  | fuel + 1 =>
    if b.isOpen then
      match t.receive b.subscription s with
      | (.envelope inbound, s) =>
        let (event, b, s) := b.dispatch t inbound s
        (inbound, event) :: b.account t s fuel
      | _ => []
    else []

theorem drain_of_closed (h : b.isOpen = false) (fuel : Nat) : b.drain t s fuel = ([], b, s) := by
  cases fuel with
  | zero => rfl
  | succ fuel => rw [Bridge.drain, step_of_closed h]

/-- At the end of what comes in a bridge closes. -/
theorem drain_of_ended {left : τ} (hopen : b.isOpen = true)
    (hr : t.receive b.subscription s = (.closed, left)) (fuel : Nat) :
    b.drain t s (fuel + 1) = ([], b.close t left) := by
  have hshut : (b.close t left).1.isOpen = false := by rw [close_eq]
  simp only [Bridge.drain, step_of_end hopen hr, drain_of_closed hshut, Option.toList_none,
    List.nil_append]

/-- Bridges to the same group that have delivered the same messages of a sender. -/
structure AlikeFor (c : MemberId) (b b' : Bridge) : Prop where
  group : b.group = b'.group
  delivered : ∀ x : Fingerprint, x.sender = c → (x ∈ b.delivered ↔ x ∈ b'.delivered)
  messages : b.messages.filter (·.sender = c) = b'.messages.filter (·.sender = c)

theorem AlikeFor.refl (c : MemberId) (b : Bridge) : AlikeFor c b b := ⟨rfl, fun _ _ => Iff.rfl, rfl⟩

theorem fresh?_sender {m : ProtocolMessage} (h : b.fresh? inbound = some m) :
    m.sender = inbound.sender := by
  obtain ⟨hround, -⟩ := Option.filter_eq_some_iff.mp h
  exact (Group.roundMessage?_eq_some_iff.mp hround).2.2.2.2

theorem AlikeFor.fresh?_eq (h : AlikeFor c b b') (hsender : inbound.sender = c) :
    b.fresh? inbound = b'.fresh? inbound := by
  unfold Bridge.fresh?
  rw [h.group]
  cases hm : b'.group.roundMessage? inbound with
  | none => rfl
  | some m =>
    have hclaim := (Group.roundMessage?_eq_some_iff.mp hm).2.2.2.2
    have hknown := h.delivered m.fingerprint (hclaim.trans hsender)
    simp only [Option.filter_some, hknown]

/-- Whether bytes are discarded, and why, depends on what their sender has sent before, and on
nothing that others have sent. -/
theorem AlikeFor.screen_eq (h : AlikeFor c b b') (hsender : inbound.sender = c) :
    b.screen inbound = b'.screen inbound := by
  unfold Bridge.screen
  rw [h.group]
  cases hdecode : Envelope.decode inbound.bytes with
  | error e => rfl
  | ok e =>
    by_cases hclaim : e.sender = inbound.sender
    · cases e with
      | protocol m =>
        have hknown := h.delivered m.fingerprint (hclaim.trans hsender)
        simp only [hknown]
      | join sender => rfl
      | announce sender => rfl
    · simp only [ne_eq, hclaim, not_false_eq_true, if_true]

theorem AlikeFor.event_eq (h : AlikeFor c b b') (hsender : inbound.sender = c) :
    (b.dispatch t inbound s).1 = (b'.dispatch u inbound v).1 := by
  unfold Bridge.dispatch
  rw [h.screen_eq hsender]
  cases b'.screen inbound with
  | error e => simp only [dropped, h.group]
  | ok e => rfl

theorem AlikeFor.dispatch (h : AlikeFor c b b') (hsender : inbound.sender = c) :
    AlikeFor c (b.dispatch t inbound s).2.1 (b'.dispatch u inbound v).2.1 := by
  obtain ⟨signals, he⟩ := dispatch_bridge_eq b t inbound s
  obtain ⟨signals', he'⟩ := dispatch_bridge_eq b' u inbound v
  rw [he, he', h.fresh?_eq hsender]
  refine ⟨h.group, ?_, ?_⟩
  · intro x hx
    simp only [List.mem_append, h.delivered x hx]
  · simp only [List.filter_append, h.messages]

/-- What comes from elsewhere is not seen, whatever sender it claims. -/
theorem AlikeFor.dispatch_other (h : AlikeFor c b b') (hsender : inbound.sender ≠ c) :
    AlikeFor c (b.dispatch t inbound s).2.1 b' := by
  obtain ⟨signals, he⟩ := dispatch_bridge_eq b t inbound s
  have hforeign : ∀ m ∈ (b.fresh? inbound).toList, m.sender ≠ c := by
    intro m hm
    rw [fresh?_sender (Option.mem_toList.mp hm)]
    exact hsender
  rw [he]
  refine ⟨h.group, ?_, ?_⟩
  · intro x hx
    have hnew : x ∉ (b.fresh? inbound).toList.map ProtocolMessage.fingerprint := by
      intro hmem
      obtain ⟨m, hm, rfl⟩ := List.mem_map.mp hmem
      exact hforeign m hm hx
    simp only [List.mem_append, hnew, false_or, h.delivered x hx]
  · have hnone : (b.fresh? inbound).toList.filter (·.sender = c) = [] :=
      List.filter_eq_nil_iff.mpr fun m hm => by simpa using hforeign m hm
    simp only [List.filter_append, hnone, List.append_nil, h.messages]

theorem AlikeFor.of_eq {b'' : Bridge} (h : AlikeFor c b b') (hgroup : b''.group = b.group)
    (hdelivered : b''.delivered = b.delivered) (hmessages : b''.messages = b.messages) :
    AlikeFor c b'' b' where
  group := hgroup.trans h.group
  delivered := by
    rw [hdelivered]
    exact h.delivered
  messages := by
    rw [hmessages]
    exact h.messages

/-- What is noted of a sender while a bridge is drained is what is noted where nobody else sends. -/
theorem AlikeFor.drain (h : AlikeFor c b b') (t : Transport τ) (s : τ) (u : Transport σ) (v : σ)
    (fuel : Nat) :
    (b.account t s fuel).filter (·.1.sender = c) =
        (b'.takes u v ((b.intake t s fuel).filter (·.sender = c))).1 ∧
      AlikeFor c (b.drain t s fuel).2.1
        (b'.takes u v ((b.intake t s fuel).filter (·.sender = c))).2 := by
  induction fuel generalizing b b' s v with
  | zero => exact ⟨rfl, h⟩
  | succ fuel ih =>
    by_cases hopen : b.isOpen = true
    · rcases hr : t.receive b.subscription s with ⟨arrival, left⟩
      cases arrival with
      | nothing =>
        rw [Bridge.drain, step_of_nothing hopen hr]
        simpa [account, intake, hopen, hr, takes] using h
      | closed =>
        rw [drain_of_ended hopen hr]
        simp only [account, intake, hopen, if_true, hr, List.filter_nil, takes, true_and]
        rw [close_eq]
        exact h.of_eq rfl rfl rfl
      | envelope inbound =>
        have hstep := step_of_envelope hopen hr
        by_cases hsender : inbound.sender = c
        · obtain ⟨hentries, halike⟩ := ih
            (h.dispatch hsender (t := t) (s := left) (u := u) (v := v))
            (b.dispatch t inbound left).2.2 (b'.dispatch u inbound v).2.2
          simp only [account, intake, hopen, if_true, hr, Bridge.drain, hstep]
          simp only [List.filter_cons, hsender, decide_true, if_true, takes]
          rw [hentries, h.event_eq hsender]
          exact ⟨rfl, halike⟩
        · obtain ⟨hentries, halike⟩ := ih
            (h.dispatch_other hsender (t := t) (s := left)) (b.dispatch t inbound left).2.2 v
          simp only [account, intake, hopen, if_true, hr, Bridge.drain, hstep]
          simp only [List.filter_cons, hsender, decide_false, Bool.false_eq_true, if_false]
          exact ⟨hentries, halike⟩
    · have hclosed : b.isOpen = false := by simpa using hopen
      rw [drain_of_closed hclosed]
      simpa [account, intake, hclosed, takes] using h

/-- The account lists what was taken. -/
theorem map_fst_account (b : Bridge) (t : Transport τ) (s : τ) (fuel : Nat) :
    (b.account t s fuel).map Prod.fst = b.intake t s fuel := by
  induction fuel generalizing b s with
  | zero => rfl
  | succ fuel ih =>
    by_cases hopen : b.isOpen = true
    · rcases hr : t.receive b.subscription s with ⟨arrival, left⟩
      cases arrival with
      | nothing => simp [account, intake, hopen, hr]
      | closed => simp [account, intake, hopen, hr]
      | envelope inbound => simp [account, intake, hopen, hr, ih]
    · simp [account, intake, hopen]

/-- The events of a drained bridge are those of the account, in its order. -/
theorem filterMap_snd_account (b : Bridge) (t : Transport τ) (s : τ) (fuel : Nat) :
    (b.account t s fuel).filterMap Prod.snd = (b.drain t s fuel).1 := by
  induction fuel generalizing b s with
  | zero => rfl
  | succ fuel ih =>
    by_cases hopen : b.isOpen = true
    · rcases hr : t.receive b.subscription s with ⟨arrival, left⟩
      cases arrival with
      | nothing =>
        rw [Bridge.drain, step_of_nothing hopen hr]
        simp [account, hopen, hr]
      | closed =>
        rw [drain_of_ended hopen hr]
        simp [account, hopen, hr]
      | envelope inbound =>
        simp only [account, hopen, if_true, hr, Bridge.drain, step_of_envelope hopen hr]
        cases hevent : (b.dispatch t inbound left).1 with
        | none => simp [ih]
        | some event => simp [ih]
    · have hclosed : b.isOpen = false := by simpa using hopen
      rw [drain_of_closed hclosed]
      simp [account, hclosed]

/-- Bridges that have heard the same of a sender and that take the same of it, one after the other,
deliver the same of its messages and discard the same of its envelopes, each for the same reason,
whatever else they take in between and whatever the transports are. The account has all that was
taken and all the events, and an open bridge can be made to take any list. -/
theorem AlikeFor.drained_alike (h : AlikeFor c b b') :
    (∀ (t : Transport τ) (s : τ) (fuel : Nat) (u : Transport σ) (v : σ) (fuel' : Nat),
      (b.intake t s fuel).filter (·.sender = c) = (b'.intake u v fuel').filter (·.sender = c) →
        (b.drain t s fuel).2.1.messages.filter (·.sender = c) =
            (b'.drain u v fuel').2.1.messages.filter (·.sender = c) ∧
          (b.account t s fuel).filter (·.1.sender = c) =
            (b'.account u v fuel').filter (·.1.sender = c)) ∧
      (∀ (t : Transport τ) (s : τ) (fuel : Nat),
        (b.account t s fuel).map Prod.fst = b.intake t s fuel ∧
          (b.account t s fuel).filterMap Prod.snd = (b.drain t s fuel).1) ∧
      ∀ (m : MemberId) (l : Link), b.isOpen = true →
        b.intake (Link.transport m) l l.inbox.length = l.inbox := by
  refine ⟨?_, fun t s fuel => ⟨map_fst_account b t s fuel, filterMap_snd_account b t s fuel⟩,
    fun m l hopen => intake_link hopen m l⟩
  intro t s fuel u v fuel' hsame
  -- both are compared with a bridge that takes only what the sender sent
  obtain ⟨hentries, halike⟩ := h.drain t s u v fuel
  obtain ⟨hentries', halike'⟩ := (AlikeFor.refl c b').drain u v u v fuel'
  rw [← hsame] at hentries' halike'
  exact ⟨halike.messages.trans halike'.messages.symm, hentries.trans hentries'.symm⟩

end Bridge

namespace Independence

open Screening Bridge

/-- A message of `c`, the same again, one in the name of `a`, and another message. -/
def sent : List Inbound :=
  [⟨"g", c, frame c [3]⟩, ⟨"g", c, frame c [3]⟩, ⟨"g", c, frame a [3]⟩, ⟨"g", c, frame c [7]⟩]

/-- What `a` and an outsider send to get in the way of `c`: its messages in its name and in their
own, and joins. -/
def interference : List Inbound :=
  [⟨"g", a, frame c [3]⟩, ⟨"g", a, frame a [3]⟩, ⟨"g", ⟨⟨#[120]⟩⟩, frame c [7]⟩] ++
    List.replicate 9 ⟨"g", a, (Envelope.join a).framed⟩

def quiet : Link := { Link.create b none false with inbox := sent }

def loud : Link := { Link.create b none false with inbox := interference ++ sent ++ interference }

theorem drained_alike_interference :
    AlikeFor c bridge bridge ∧
      (bridge.intake (Link.transport b) quiet quiet.inbox.length).filter (·.sender = c) =
        (bridge.intake (Link.transport b) loud loud.inbox.length).filter (·.sender = c) ∧
      (bridge.drain (Link.transport b) loud loud.inbox.length).2.1.messages.filter
        (·.sender = c) = [said c [3], said c [7]] ∧
      (bridge.account (Link.transport b) loud loud.inbox.length).filter (·.1.sender = c) =
        (bridge.account (Link.transport b) quiet quiet.inbox.length).filter (·.1.sender = c) := by
  have hopen : bridge.isOpen = true := rfl
  have hquiet := intake_link hopen b quiet
  have hsame : (bridge.intake (Link.transport b) quiet quiet.inbox.length).filter (·.sender = c) =
      (bridge.intake (Link.transport b) loud loud.inbox.length).filter (·.sender = c) := by
    rw [hquiet, intake_link hopen b loud]
    decide +kernel
  obtain ⟨hmessages, haccount⟩ := (AlikeFor.refl c bridge).drained_alike.1 (Link.transport b) quiet
    quiet.inbox.length (Link.transport b) loud loud.inbox.length hsame
  refine ⟨AlikeFor.refl c bridge, hsame, ?_, haccount.symm⟩
  have hround : quiet.inbox.filterMap group.roundMessage? =
      [said c [3], said c [3], said c [7]] := by
    decide +kernel
  have hcreate : bridge = create group 0 (Envelope.announce b).framed := rfl
  have hstream := messages_drain_of_create hcreate (Link.transport b) quiet
    quiet.inbox.length
  rw [hquiet, hround] at hstream
  rw [← hmessages, hstream (by unfold CollisionFree; decide +kernel)]
  decide +kernel

end Independence

end ThresholdSigning
