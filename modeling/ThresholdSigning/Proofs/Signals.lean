import ThresholdSigning.Proofs.Screening

namespace ThresholdSigning

def Signal.envelope : Signal → Envelope
  | join sender => .join sender
  | announce sender => .announce sender

/-- Inbound bytes are a signal in the eyes of a group's local member: published to the group by a
peer, who is also named inside. -/
structure Group.Hears (g : Group) (inbound : Inbound) (signal : Signal) : Prop where
  group : inbound.group = g.id
  peer : g.isPeer inbound.sender = true
  decode : Envelope.decode inbound.bytes = .ok signal.envelope
  sender : signal.sender = inbound.sender

theorem Group.Hears.unique {g : Group} {inbound : Inbound} {signal signal' : Signal}
    (h : g.Hears inbound signal) (h' : g.Hears inbound signal') : signal' = signal := by
  have hdecode := h.decode.symm.trans h'.decode
  cases signal <;> cases signal' <;> cases hdecode <;> rfl

/-- A send that is held back. -/
structure Draft where
  group : String
  target : Target
  bytes : ByteArray
deriving DecidableEq

namespace Transport

variable {τ : Type}

/-- The same transport where sends are held back. -/
def drafting (t : Transport τ) : Transport (τ × List Draft) where
  localMember := t.localMember
  subscribe group s := ((t.subscribe group s.1).1, (t.subscribe group s.1).2, s.2)
  receive id s := ((t.receive id s.1).1, (t.receive id s.1).2, s.2)
  release id s := (t.release id s.1, s.2)
  send group target bytes s := (.ok (), s.1, s.2 ++ [⟨group, target, bytes⟩])

/-- Sends what was held back, and does not care whether it can be sent. -/
def post (t : Transport τ) (d : Draft) (s : τ) : τ := (t.send d.group d.target d.bytes s).2

end Transport

namespace Bridge

variable {τ : Type} {b b' : Bridge} {t : Transport τ} {s s' : τ} {inbound : Inbound}
  {signal : Signal}

theorem screen_of_hears (h : b.group.Hears inbound signal) :
    b.screen inbound = .ok signal.envelope := by
  obtain ⟨hgroup, hpeer, hdecode, hsender⟩ := h
  obtain ⟨hmember, hlocal⟩ : b.group.isMember inbound.sender = true ∧
      inbound.sender ≠ b.group.localMember := by simpa [Group.isPeer] using hpeer
  have hclaim : signal.envelope.sender = inbound.sender := by
    rw [← hsender]
    cases signal <;> rfl
  simp only [screen, hgroup, hmember, hlocal, hdecode, hclaim, ne_eq, not_true_eq_false,
    Bool.not_true, Bool.false_eq_true, if_false]
  cases signal <;> rfl

theorem hears_of_screen (h : b.screen inbound = .ok signal.envelope) :
    b.group.Hears inbound signal := by
  unfold screen at h
  split at h
  next => cases h
  next hgroup =>
    split at h
    next => cases h
    next hmember =>
      split at h
      next => cases h
      next hlocal =>
        split at h
        next => cases h
        next e hdecode =>
          split at h
          next => cases h
          next hsender =>
            have hpeer : b.group.isPeer inbound.sender = true := by
              simpa [Group.isPeer, hlocal] using hmember
            have he : e = signal.envelope := by
              split at h
              next m =>
                split at h
                next => cases h
                next => exact Except.ok.inj h
              next => exact Except.ok.inj h
              next => exact Except.ok.inj h
            subst he
            refine ⟨not_not.mp hgroup, hpeer, hdecode, ?_⟩
            rw [← not_not.mp hsender]
            cases signal <;> rfl

inductive Dispatches (b : Bridge) (t : Transport τ) (inbound : Inbound) (s : τ) :
    Bridge → τ → Prop
  | discard (deaf : ∀ signal, ¬ b.group.Hears inbound signal) : b.Dispatches t inbound s b s
  | message (m : ProtocolMessage) (deaf : ∀ signal, ¬ b.group.Hears inbound signal) :
      b.Dispatches t inbound s
        { b with delivered := m.fingerprint :: b.delivered, messages := b.messages ++ [m] } s
  | join {sender : MemberId} (hears : b.group.Hears inbound (.join sender)) :
      b.Dispatches t inbound s (b.signal (.join sender))
        (t.send b.group.id .everyone b.announce s).2
  | announce {sender : MemberId} (hears : b.group.Hears inbound (.announce sender)) :
      b.Dispatches t inbound s (b.signal (.announce sender)) s

theorem dispatches (b : Bridge) (t : Transport τ) (inbound : Inbound) (s : τ) :
    b.Dispatches t inbound s (b.dispatch t inbound s).2.1 (b.dispatch t inbound s).2.2 := by
  unfold dispatch
  cases hscreen : b.screen inbound with
  | error e =>
    refine .discard fun signal h => ?_
    rw [screen_of_hears h] at hscreen
    cases hscreen
  | ok e =>
    cases e with
    | protocol m =>
      refine .message m fun signal h => ?_
      rw [screen_of_hears h] at hscreen
      cases signal <;> cases hscreen
    | join sender => exact .join (hears_of_screen hscreen)
    | announce sender => exact .announce (hears_of_screen hscreen)

theorem Dispatches.kept (h : b.Dispatches t inbound s b' s') :
    b'.group = b.group ∧ b'.subscription = b.subscription ∧ b'.announce = b.announce ∧
      b'.isOpen = b.isOpen := by
  have hsignal (signal : Signal) : (b.signal signal).group = b.group ∧
      (b.signal signal).subscription = b.subscription ∧
      (b.signal signal).announce = b.announce ∧ (b.signal signal).isOpen = b.isOpen := by
    obtain ⟨signals, he⟩ := signal_eq b signal
    rw [he]
    exact ⟨rfl, rfl, rfl, rfl⟩
  cases h with
  | discard _ => exact ⟨rfl, rfl, rfl, rfl⟩
  | message _ _ => exact ⟨rfl, rfl, rfl, rfl⟩
  | join _ => exact hsignal _
  | announce _ => exact hsignal _

theorem Dispatches.signals (h : b.Dispatches t inbound s b' s') :
    (∃ signal, b.group.Hears inbound signal ∧ b'.signals = b.signals ++ [signal]) ∨
      b'.signals = b.signals ∧
        ((∀ signal, ¬ b.group.Hears inbound signal) ∨ signalCapacity ≤ b.signals.length) := by
  have hsignal {signal : Signal} (hears : b.group.Hears inbound signal) :
      (∃ signal', b.group.Hears inbound signal' ∧
          (b.signal signal).signals = b.signals ++ [signal']) ∨
        (b.signal signal).signals = b.signals ∧
          ((∀ signal', ¬ b.group.Hears inbound signal') ∨ signalCapacity ≤ b.signals.length) := by
    unfold Bridge.signal
    split
    next => exact Or.inl ⟨signal, hears, rfl⟩
    next hfull => exact Or.inr ⟨rfl, Or.inr (Nat.not_lt.mp hfull)⟩
  cases h with
  | discard deaf => exact Or.inr ⟨rfl, Or.inl deaf⟩
  | message _ deaf => exact Or.inr ⟨rfl, Or.inl deaf⟩
  | join hears => exact hsignal hears
  | announce hears => exact hsignal hears

/-- What is queued was heard, and where there is room, what was heard is queued. -/
theorem Dispatches.heard (h : b.Dispatches t inbound s b' s') :
    ∃ heard, b'.signals = b.signals ++ heard ∧
      (∀ signal ∈ heard, b.group.Hears inbound signal) ∧
      (b.signals.length < signalCapacity →
        ∀ signal, b.group.Hears inbound signal → signal ∈ heard) := by
  rcases h.signals with ⟨signal, hears, he⟩ | ⟨he, hwhy⟩
  · refine ⟨[signal], he, ?_, ?_⟩
    · intro signal' hs
      rwa [List.mem_singleton.mp hs]
    · intro _ signal' hears'
      rw [hears.unique hears']
      exact List.mem_singleton_self _
  · refine ⟨[], by rw [he, List.append_nil], nofun, ?_⟩
    intro hroom signal hears
    rcases hwhy with hdeaf | hfull
    · exact absurd hears (hdeaf signal)
    · exact absurd hroom (Nat.not_lt.mpr hfull)

theorem Dispatches.drafts {owed : List Draft}
    (h : b.Dispatches t.drafting inbound (s, []) b' (s', owed)) :
    s' = s ∧ ((∃ sender, b.group.Hears inbound (.join sender)) ∧
        owed = [⟨b.group.id, .everyone, b.announce⟩] ∨
      (∀ sender, ¬ b.group.Hears inbound (.join sender)) ∧ owed = []) := by
  generalize hstart : ((s, []) : τ × List Draft) = start at h
  generalize hfinish : ((s', owed) : τ × List Draft) = finish at h
  cases h with
  | discard deaf =>
    cases hstart.trans hfinish.symm
    exact ⟨rfl, Or.inr ⟨fun _ => deaf _, rfl⟩⟩
  | message _ deaf =>
    cases hstart.trans hfinish.symm
    exact ⟨rfl, Or.inr ⟨fun _ => deaf _, rfl⟩⟩
  | @join sender hears =>
    subst hstart
    cases hfinish
    exact ⟨rfl, Or.inl ⟨⟨sender, hears⟩, rfl⟩⟩
  | announce hears =>
    cases hstart.trans hfinish.symm
    refine ⟨rfl, Or.inr ⟨fun sender hjoin => ?_, rfl⟩⟩
    cases hears.unique hjoin

/-- What is not published by a peer under its own name comes to nothing. -/
theorem dispatch_of_stranger
    (h : b.group.isPeer inbound.sender = false ∨
      ∀ e, Envelope.decode inbound.bytes = .ok e → e.sender ≠ inbound.sender) :
    (b.dispatch t inbound s).2 = (b, s) := by
  have hscreen : ∃ e, b.screen inbound = .error e := by
    unfold screen
    by_cases hgroup : inbound.group = b.group.id
    · by_cases hpeer : b.group.isPeer inbound.sender = true
      · obtain ⟨hmember, hlocal⟩ : b.group.isMember inbound.sender = true ∧
            inbound.sender ≠ b.group.localMember := by simpa [Group.isPeer] using hpeer
        have hclaim := h.resolve_left (by simp [hpeer])
        simp only [hgroup, hmember, hlocal, ne_eq, not_true_eq_false, Bool.not_true,
          Bool.false_eq_true, if_false]
        cases hdecode : Envelope.decode inbound.bytes with
        | error e => exact ⟨e, rfl⟩
        | ok e => simp [hclaim e hdecode]
      · by_cases hmember : b.group.isMember inbound.sender = true
        · have hlocal : inbound.sender = b.group.localMember := by
            simpa [Group.isPeer, hmember] using hpeer
          have hown : b.group.isMember b.group.localMember = true := hlocal ▸ hmember
          simp [hgroup, hlocal, hown]
        · simp [hgroup, hmember]
    · simp [hgroup]
  obtain ⟨e, he⟩ := hscreen
  simp only [dispatch, he]

/-- A bridge does the same where sends are held back, and nothing is lost if they follow. -/
theorem dispatch_drafting (b : Bridge) (t : Transport τ) (inbound : Inbound) (s : τ) :
    ∃ drafts, b.dispatch t.drafting inbound (s, []) =
        ((b.dispatch t inbound s).1, (b.dispatch t inbound s).2.1, s, drafts) ∧
      (b.dispatch t inbound s).2.2 = drafts.foldl (fun s d => t.post d s) s ∧
      (drafts = [] ∨ drafts = [⟨b.group.id, .everyone, b.announce⟩]) := by
  unfold dispatch
  cases b.screen inbound with
  | error e => exact ⟨[], rfl, rfl, Or.inl rfl⟩
  | ok e =>
    cases e with
    | protocol m => exact ⟨[], rfl, rfl, Or.inl rfl⟩
    | join sender => exact ⟨[⟨b.group.id, .everyone, b.announce⟩], rfl, rfl, Or.inr rfl⟩
    | announce sender => exact ⟨[], rfl, rfl, Or.inl rfl⟩

end Bridge

end ThresholdSigning
