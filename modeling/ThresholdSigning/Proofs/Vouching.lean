import ThresholdSigning.Proofs.Assembly

namespace ThresholdSigning

variable {σ α : Type} {p : Party σ α}

namespace Seat

/-- Whom an execution has heard from, or is about to hear from, was there: it has published a signal
that has arrived at the subscription of the execution. -/
structure Vouched (s : Seat σ α) (r : Recorded) : Prop where
  signals : ∀ signal ∈ s.execution.signals, r.Vouched signal.sender s.group.id s.subscription
  seen : ∀ m ∈ s.execution.seen, r.Vouched m s.group.id s.subscription
  rounds : s.execution.rounds?.isSome = true →
    ∀ m ∈ s.group.peers, r.Vouched m s.group.id s.subscription
  subscribed : .subscribed s.group.localMember s.group.id s.subscription ∈ r.log

variable {s s' : Seat σ α} {r left : Recorded} {act : Act}

theorem Vouched.mono (h : s.Vouched r) (hlog : r.log <+: left.log) : s.Vouched left where
  signals := fun signal hs => (h.signals signal hs).mono hlog
  seen := fun m hm => (h.seen m hm).mono hlog
  rounds := fun hr m hm => (h.rounds hr m hm).mono hlog
  subscribed := hlog.subset h.subscribed

theorem Vouched.of_take {b b' : Bridge} {inbound : Inbound} {owed : List Draft} (h : s.Vouched r)
    (hattached : s.Attached r.network) (htraced : r.Traced)
    (hbridge : s.execution.bridge? = some b)
    (hreceive : r.receive s.subscription = (.envelope inbound, left))
    (hdispatches : b.Dispatches s.transport.drafting inbound (left, []) b' (left, owed)) :
    ∀ signal ∈ b'.signals, r.Vouched signal.sender s.group.id s.subscription := by
  have hold := h.signals
  rw [Execution.signals_of_bridge? hbridge] at hold
  have hconnected : s.execution.bridge?.isSome = true := by
    rw [hbridge]
    rfl
  have hpending : inbound ∈ r.network.pending s.subscription := by
    rw [hattached.pending_of_receive hconnected hreceive]
    exact List.mem_cons_self
  rcases hdispatches.signals with ⟨signal, hears, he⟩ | ⟨he, -⟩
  · intro signal' hs
    rw [he] at hs
    rcases List.mem_append.mp hs with hs | hs
    · exact hold signal' hs
    · rw [(hattached.bridge b hbridge).group] at hears
      rw [List.mem_singleton.mp hs]
      exact htraced.vouched hpending hears
  · rw [he]
    exact hold

theorem Vouched.of_acts (h : s.Vouched r) (hattached : s.Attached r.network) (htraced : r.Traced)
    (hacts : s.Acts p r act s' left) : s'.Vouched left := by
  have hlog := (hattached.leaves hacts).log
  have hkept := h.mono hlog
  cases hacts with
  | idle => exact hkept
  | @take b b' inbound left owed howed hbridge hreceive hdispatches =>
    have hgroup : (s.execution.setBridge b').plan.group = s.execution.plan.group := by
      rw [Execution.plan_setBridge]
    refine ⟨?_, ?_, ?_, ?_⟩
    · intro signal hs
      rw [Execution.signals_of_bridge? (Execution.bridge?_setBridge hbridge b')] at hs
      simp only [group, hgroup]
      exact (h.of_take hattached htraced hbridge hreceive hdispatches signal hs).mono hlog
    · simpa only [group, hgroup, Execution.seen_setBridge] using hkept.seen
    · simpa only [group, hgroup, Execution.rounds?_setBridge] using hkept.rounds
    · simpa only [group, hgroup] using hkept.subscribed
  | answer _ => exact ⟨hkept.signals, hkept.seen, hkept.rounds, hkept.subscribed⟩
  | @join now events x left hjoins =>
    have hgroup : x.plan.group = s.execution.plan.group := by rw [hjoins.plan_eq]
    refine ⟨?_, ?_, ?_, ?_⟩
    · simp only [group, hgroup]
      exact fun signal hs => hkept.signals signal (hjoins.effect.signals hs)
    · simp only [group, hgroup]
      intro m hm
      rcases hjoins.seen m hm with hold | ⟨signal, hs, rfl⟩
      · exact hkept.seen m hold
      · exact hkept.signals signal hs
    · simp only [group, hgroup]
      intro hrounds m hm
      cases hbridge : s.execution.bridge? with
      | none =>
        cases hjoins with
        | wait _ _ _ _ => cases hrounds
        | pass hphase _ _ _ => cases hbridge.symm.trans (Execution.bridge?_of_joining hphase)
        | fail _ _ _ _ => cases hrounds
      | some b =>
        have hpeers := hjoins.rounds hbridge hrounds
        rw [(hattached.bridge b hbridge).group] at hpeers
        exact hkept.seen m (hpeers m hm)
    · simpa only [group, hgroup] using hkept.subscribed
  | @round now move events x left hturns =>
    have hgroup : x.plan.group = s.execution.plan.group := by rw [hturns.plan_eq]
    refine ⟨?_, ?_, ?_, ?_⟩
    · simp only [group, hgroup]
      exact fun signal hs => hkept.signals signal (hturns.effect.signals hs)
    · rw [hturns.seen]
      rintro m ⟨⟩
    · simp only [group, hgroup]
      exact fun _ => hkept.rounds hturns.rounds
    · simpa only [group, hgroup] using hkept.subscribed
  | tick _ => exact ⟨hkept.signals, hkept.seen, hkept.rounds, hkept.subscribed⟩

/-- The barrier gets ready in its next step, or it has let the execution pass to the rounds. -/
def Passes (s : Seat σ α) (r : Recorded) : Prop :=
  s.execution.rounds?.isSome = true ∨
    ∃ bridge barrier party now barrier' bridge' left,
      s.execution.phase = .joining bridge barrier party ∧
        barrier.step bridge s.transport s.execution.deadline now r =
          some (barrier', bridge', left) ∧
        barrier'.state = .ready

theorem Vouched.of_passes (h : s.Vouched r) (hattached : s.Attached r.network)
    (hpasses : s.Passes r) : ∀ m ∈ s.group.peers, r.Vouched m s.group.id s.subscription := by
  rcases hpasses with
    hrounds | ⟨bridge, barrier, party, now, barrier', bridge', left, hphase, hstep, hready⟩
  · exact h.rounds hrounds
  · intro m hm
    have hbridge := Execution.bridge?_of_joining hphase
    have hpeers := (Barrier.steps_of_step hstep).2.ready hready
    rw [(hattached.bridge bridge hbridge).group] at hpeers
    refine h.seen m ?_
    rw [Execution.seen_of_joining hphase]
    exact hpeers m hm

theorem Leaves.introduced {m : MemberId} {group : String} (h : s.Leaves s' r left)
    (hvouched : s.Vouched r) (hintroduced : r.Introduced m group) : left.Introduced m group := by
  have hknown : s.group.localMember = m → s.group.id = group →
      ∃ id, .subscribed m group id ∈ r.log := by
    rintro rfl rfl
    exact ⟨s.subscription, hvouched.subscribed⟩
  cases h with
  | traffic h => exact h.introduced hintroduced hknown
  | release h _ => exact h.introduced hintroduced hknown

end Seat

namespace Assembly

structure Safe (w : Assembly σ α) : Prop where
  traced : w.net.Traced
  seats : ∀ s ∈ w.seats, s.Vouched w.net

variable {w w' : Assembly σ α} {m : MemberId} {group : String}

theorem Safe.step {move : Move σ} (h : w.Safe) (hattached : w.Attached)
    (hstep : w.Steps p move w') : w'.Safe := by
  cases hstep with
  | quiet hquiet => exact ⟨hquiet.traced h.traced, fun s hs => (h.seats s hs).mono hquiet.log⟩
  | post m group target bytes =>
    exact ⟨h.traced.send m group target bytes, fun s hs =>
      (h.seats s hs).mono (Recorded.log_send _ _ _ _ _)⟩
  | @connect m plan deadline party now b left hconnect hquiet =>
    refine ⟨hquiet.traced h.traced, ?_⟩
    intro s hs
    rcases List.mem_append.mp hs with hold | hnew
    · exact (h.seats s hold).mono hquiet.log
    · obtain ⟨hlocal, hb, hsubscribe, -⟩ := Bridge.connect_eq_ok hconnect
      have hm : m = plan.group.localMember := hlocal
      have hlog := (Recorded.subscribe_eq_ok hsubscribe).2
      have hsignals : b.signals = [] := by
        rw [hb]
        rfl
      rw [List.mem_singleton.mp hnew]
      refine ⟨?_, by rintro m ⟨⟩, by rintro ⟨⟩, ?_⟩
      · intro signal hs
        have hmem : signal ∈ b.signals := hs
        rw [hsignals] at hmem
        cases hmem
      · subst hm
        rw [hlog]
        exact List.mem_append_right _ (List.mem_singleton_self _)
  | @act act s s' left hs hacts =>
    have hleaves := (hattached.seats s hs).leaves hacts
    refine ⟨hleaves.traced h.traced, ?_⟩
    intro x hx
    obtain ⟨y, hy, rfl⟩ := List.mem_map.mp hx
    dsimp only
    by_cases hsame : y.subscription = s.subscription
    · rw [if_pos hsame]
      exact (h.seats s hs).of_acts (hattached.seats s hs) h.traced hacts
    · rw [if_neg hsame]
      exact (h.seats y hy).mono hleaves.log
  | abandon subscription =>
    refine ⟨?_, fun s hs => ?_⟩
    · exact h.traced.of_mem List.prefix_rfl fun _ _ => Network.mem_pending_of_release _ _ _
    · exact (h.seats s (List.mem_filter.mp hs).1).mono List.prefix_rfl

theorem safe_run (p : Party σ α) (moves : List (Move σ)) : (run p moves).Safe := by
  induction moves using List.reverseRecOn with
  | nil =>
    refine ⟨?_, by rintro s ⟨⟩⟩
    rintro id inbound ⟨⟩
  | append_singleton moves move ih =>
    have hattached := attached_run p moves
    rw [run_append_singleton]
    exact ih.step hattached (steps_step p hattached move)

/-- A member publishes signals to a group through its executions only. -/
def Honest (moves : List (Move σ)) (m : MemberId) (group : String) : Prop :=
  ∀ target bytes, Move.post m group target bytes ∈ moves →
    ∀ signal : Signal, Envelope.decode bytes = .ok signal.envelope → signal.sender ≠ m

theorem introduced_step {move : Move σ} (h : w.net.Introduced m group) (hsafe : w.Safe)
    (hattached : w.Attached) (honest : Honest [move] m group) (hstep : w.Steps p move w') :
    w'.net.Introduced m group := by
  cases hstep with
  | quiet hquiet => exact hquiet.introduced m group h
  | post other group' target bytes =>
    refine h.send fun hm hgroup => Or.inr ?_
    subst hm hgroup
    rintro ⟨signal, hdecode, hsender⟩
    exact honest target bytes (List.mem_singleton_self _) signal hdecode hsender
  | connect _ hquiet => exact hquiet.introduced m group h
  | act hs hacts => exact ((hattached.seats _ hs).leaves hacts).introduced (hsafe.seats _ hs) h
  | abandon subscription => exact h

theorem introduced_run {moves : List (Move σ)} (honest : Honest moves m group) :
    (run p moves).net.Introduced m group := by
  induction moves using List.reverseRecOn with
  | nil =>
    intro before post after heq
    cases before <;> cases heq
  | append_singleton moves move ih =>
    have hbefore := ih fun target bytes hmem => honest target bytes (List.mem_append_left _ hmem)
    have hmove : Honest [move] m group := fun target bytes hmem =>
      honest target bytes (List.mem_append_right _ hmem)
    have hattached := attached_run p moves
    rw [run_append_singleton]
    exact introduced_step hbefore (safe_run p moves) hattached hmove (steps_step p hattached move)

/-- Whatever happens on the network: when the barrier of an execution gets ready, each peer has sent
a signal in its own name, with success, that has arrived at the subscription of the execution; and a
peer that sends signals through executions only had subscribed before. What anyone else publishes,
or publishes under another name, changes nothing at all. -/
theorem vouched_of_passes {moves : List (Move σ)} {s : Seat σ α}
    (present : s ∈ (run p moves).seats) :
    (s.Passes (run p moves).net → ∀ m ∈ s.group.peers,
        (run p moves).net.Vouched m s.group.id s.subscription ∧
          (Honest moves m s.group.id → ∃ before post after id,
            (run p moves).net.log = before ++ .published post :: after ∧ post.sender = m ∧
              post.group = s.group.id ∧ s.subscription ∈ post.reached ∧ post.IsSignal ∧
              .subscribed m s.group.id id ∈ before)) ∧
      ∀ b inbound, s.execution.bridge? = some b →
        (s.group.isPeer inbound.sender = false ∨
          ∀ e, Envelope.decode inbound.bytes = .ok e → e.sender ≠ inbound.sender) →
        (b.dispatch s.transport inbound (run p moves).net).2 = (b, (run p moves).net) := by
  have hattached := (attached_run p moves).seats s present
  have hvouched := (safe_run p moves).seats s present
  refine ⟨?_, ?_⟩
  · intro hpasses m hm
    have hpeer := hvouched.of_passes hattached hpasses m hm
    refine ⟨hpeer, fun honest => ?_⟩
    obtain ⟨post, hpost, hsender, hgroup, hreached, hsignal⟩ := hpeer
    obtain ⟨before, after, heq⟩ := List.append_of_mem hpost
    obtain ⟨id, hid⟩ := introduced_run honest before post after heq hsender hgroup hsignal
    exact ⟨before, post, after, id, heq, hsender, hgroup, hreached, hsignal, hid⟩
  · intro b inbound hbridge hstranger
    rw [← (hattached.bridge b hbridge).group] at hstranger
    exact Bridge.dispatch_of_stranger hstranger

def groupOfA : Group :=
  ⟨"g", Screening.a, [Screening.a, Screening.b], 1, by decide, by decide, by decide, by decide⟩

def groupOfB : Group :=
  ⟨"g", Screening.b, [Screening.a, Screening.b], 1, by decide, by decide, by decide, by decide⟩

def planFor (g : Group) : Plan := ⟨.signing, .ofMillis 1000, .ofMillis 100, g⟩

def second : Deadline := ⟨.ofMillis 1000, Deadline.nanosOf 1000, false⟩

def mute : Party Unit Unit where
  start s := (.ok (), s)
  feed _ s := (.ok (), s)
  drain s := ([], s)
  isComplete _ := false
  result s := (.ok (), s)

/-- `a` joins, and an outsider announces `b` before `b` does. -/
def script : List (Move Unit) :=
  [.connect Screening.a (planFor groupOfA) second () 0,
    .connect Screening.b (planFor groupOfB) second () 0, .act 0 (.join 0), .act 0 (.join 0),
    .post Screening.c "g" .everyone (Envelope.announce Screening.b).framed, .act 1 .take,
    .act 1 .answer, .act 0 .take, .act 0 .take, .act 0 (.join 0), .act 0 (.join 0)]

theorem seat?_script :
    ((run mute script).seat? 0).map (fun s =>
      (s.group, s.subscription, s.execution.rounds?.isSome)) = some (groupOfA, 0, true) := by
  decide +kernel

theorem vouched_script :
    ∃ s ∈ (run mute script).seats, s.Passes (run mute script).net ∧ Screening.b ∈ s.group.peers ∧
      Honest script Screening.b s.group.id ∧ ∃ before post after id,
        (run mute script).net.log = before ++ .published post :: after ∧
          post.sender = Screening.b ∧ 0 ∈ post.reached ∧ post.IsSignal ∧
          .subscribed Screening.b "g" id ∈ before := by
  obtain ⟨s, hs, hview⟩ := Option.map_eq_some_iff.mp seat?_script
  simp only [Prod.mk.injEq] at hview
  obtain ⟨hgroup, hsubscription, hrounds⟩ := hview
  have hmem : s ∈ (run mute script).seats := (mem_of_seat? hs).1
  have hpasses : s.Passes (run mute script).net := Or.inl hrounds
  have hpeer : Screening.b ∈ s.group.peers := by
    rw [hgroup]
    decide
  have hid : s.group.id = "g" := by
    rw [hgroup]
    rfl
  have honest : Honest script Screening.b s.group.id := by
    intro target bytes hpost
    simp [script, Screening.b, Screening.c] at hpost
  obtain ⟨before, post, after, id, hlog, hsender, -, hreached, hsignal, hsubscribed⟩ :=
    ((vouched_of_passes hmem).1 hpasses Screening.b hpeer).2 honest
  rw [hsubscription] at hreached
  rw [hid] at hsubscribed
  exact ⟨s, hmem, hpasses, hpeer, honest, before, post, after, id, hlog, hsender, hreached, hsignal,
    hsubscribed⟩

end Assembly

end ThresholdSigning
