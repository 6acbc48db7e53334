import ThresholdSigning.KeyGeneration
import ThresholdSigning.Proofs.Admission
import ThresholdSigning.Proofs.Chronicle
import ThresholdSigning.Proofs.Deadline
import ThresholdSigning.Signing

namespace ThresholdSigning

variable {σ α τ : Type}

/-- Why an execution that was bound to a transport has no output. -/
inductive Cause
  /-- The time was over while peers were missing. -/
  | joinExpired (missing : List MemberId)
  | joinFailed (e : TransportError)
  | feedEnded
  | roundsExpired
  | partyFailed (e : PartyError)
  | sendFailed (e : Error)

def Plan.errorOf (plan : Plan) : Cause → Error
  | .joinExpired missing => .joinTimeout missing
  | .joinFailed e => .transport e
  | .feedEnded => .transport .channelClosed
  | .roundsExpired =>
    match plan.protocol with
    | .keyGeneration => .keyGenerationTimeout plan.timeout
    | .signing => .signingTimeout plan.timeout
  | .partyFailed (.unexpectedMessage sender reason) =>
    .protocolFailure (.unexpectedMessage sender reason)
  | .partyFailed (.failure reason) => .protocolFailure (.reported reason)
  | .sendFailed e => e

namespace Plan

theorem errorOf_roundsExpired (plan : Plan) : plan.errorOf .roundsExpired = plan.timeoutError := by
  unfold errorOf timeoutError Protocol.timeoutError
  cases plan.protocol <;> rfl

theorem errorOf_partyFailed (plan : Plan) (e : PartyError) :
    plan.errorOf (.partyFailed e) = .protocolFailure e.cause := by
  cases e <;> rfl

theorem errorOf_keyGeneration {plan : Plan} {settings : Settings} {group : Group}
    {preParams : Option PreParams} {events : List Event}
    (h : KeyGeneration.plan settings group preParams = .ok (events, plan)) :
    plan.errorOf .roundsExpired = .keyGenerationTimeout settings.keyGenerationTimeout := by
  have hadmits := KeyGeneration.admits settings group preParams
  rw [h] at hadmits
  cases hadmits with
  | accepted _ _ => rfl

theorem errorOf_signing {plan : Plan} {settings : Settings} {signer : Signer} {digest : ByteArray}
    {participants : List MemberId} {events : List Event}
    (h : Signing.plan settings signer digest participants = .ok (events, plan)) :
    plan.errorOf .roundsExpired = .signingTimeout settings.signingTimeout := by
  have hadmits := Signing.admits settings signer digest participants
  rw [h] at hadmits
  cases hadmits with
  | accepted _ _ _ _ => rfl

end Plan

/-- A join is no longer than the announce of the same member. -/
theorem Envelope.encode_join {m : MemberId} {bytes : ByteArray}
    (h : (announce m).encode = .ok bytes) : (join m).encode = .ok (join m).framed := by
  obtain ⟨hsize, rfl⟩ := encode_eq_ok_iff.mp h
  refine encode_eq_ok_iff.mpr ⟨?_, rfl⟩
  have hbody : (join m).body = (announce m).body := rfl
  have hjoin : Kind.join.tag.toByteArray.size = 18 := by decide
  have hannounce : Kind.announce.tag.toByteArray.size = 22 := by decide
  rw [size_framed] at hsize ⊢
  simp only [kind, hjoin, hannounce, hbody] at hsize ⊢
  omega

theorem Group.exists_mem_peers (g : Group) : ∃ m, m ∈ g.peers := by
  have htwo := g.valid.two_le
  have hnodup := g.valid.nodup
  match hmembers : g.members with
  | [] => simp [hmembers] at htwo
  | [_] => simp [hmembers] at htwo
  | m :: m' :: rest =>
    have hne : m ≠ m' := by
      rintro rfl
      simp [hmembers] at hnodup
    by_cases hlocal : m = g.localMember
    · refine ⟨m', List.mem_filter.mpr ⟨by simp [hmembers], ?_⟩⟩
      simpa [hlocal] using hne.symm
    · exact ⟨m, List.mem_filter.mpr ⟨by simp [hmembers], by simpa using hlocal⟩⟩

namespace Barrier

variable {b b' : Barrier} {bridge bridge' : Bridge} {t : Transport τ} {deadline : Deadline}
  {now : Nat} {s s' : τ}

theorem step_of_steps (hwaits : b.result = none)
    (h : b.Steps bridge t deadline now s b' bridge' s') :
    b.step bridge t deadline now s = some (b', bridge', s') := by
  have hresult : ¬ b.result.isSome = true := by simp [hwaits]
  have hall {seen : List MemberId} (hmissing : ∃ m ∈ bridge.group.peers, m ∉ seen) :
      bridge.group.peers.all (· ∈ seen) = false := by simpa using hmissing
  unfold step
  rw [if_neg hresult]
  cases h with
  | begin hstate => rw [hstate]
  | expireAtOnce hstate hexpired => simp only [hstate, hexpired, if_true]
  | join hstate hlive hsend => simp only [hstate, hlive, hsend, Bool.false_eq_true, if_false]
  | joinFails hstate hlive hsend => simp only [hstate, hlive, hsend, Bool.false_eq_true, if_false]
  | @pass seen hstate hpeers =>
    have hpeers : bridge.group.peers.all (· ∈ seen) = true := by simpa using hpeers
    simp only [hstate, hpeers, if_true]
  | expire hstate hmissing hexpired =>
    simp only [hstate, hall hmissing, hexpired, Bool.false_eq_true, if_false, if_true]
  | hear hstate hmissing hlive hsignals =>
    simp only [hstate, hall hmissing, hlive, hsignals, Bool.false_eq_true, if_false]
  | queueEnds hstate hmissing hlive hsignals hshut =>
    simp only [hstate, hall hmissing, hlive, hsignals, hshut, Bool.false_eq_true, if_false,
      Bool.not_false, if_true]
  | joinAgain hstate hmissing hlive hsignals hopen hdue hsend =>
    simp only [hstate, hall hmissing, hlive, hsignals, hopen, Bool.false_eq_true, if_false,
      Bool.not_true, Nat.not_lt.mpr hdue, hsend]
  | joinAgainFails hstate hmissing hlive hsignals hopen hdue hsend =>
    simp only [hstate, hall hmissing, hlive, hsignals, hopen, Bool.false_eq_true, if_false,
      Bool.not_true, Nat.not_lt.mpr hdue, hsend]

/-- The barrier is at work, and has not heard from every peer. -/
def Misses (b : Barrier) (group : Group) : Prop :=
  b.state = .announcing ∨ ∃ seen, b.state = .waiting seen ∧ ∃ m ∈ group.peers, m ∉ seen

/-- The barrier has nothing left to do but send its join, for the first time or again. -/
def Calls (b : Barrier) (bridge : Bridge) (now : Nat) : Prop :=
  b.state = .announcing ∨ ∃ seen, b.state = .waiting seen ∧
    (∃ m ∈ bridge.group.peers, m ∉ seen) ∧ bridge.signals = [] ∧ bridge.isOpen = true ∧
    b.nextTick ≤ now

/-- The barrier waits in vain for a signal. -/
def Starves (b : Barrier) (bridge : Bridge) : Prop :=
  ∃ seen, b.state = .waiting seen ∧ (∃ m ∈ bridge.group.peers, m ∉ seen) ∧ bridge.signals = [] ∧
    bridge.isOpen = false

/-- All the ways in which a barrier fails. -/
inductive Fails (b : Barrier) (bridge : Bridge) (t : Transport τ) (deadline : Deadline) (now : Nat)
    (s : τ) : Error → Prop
  | expire (hmisses : b.Misses bridge.group) (hexpired : deadline.isExpired = true) :
      b.Fails bridge t deadline now s (.joinTimeout (missing bridge.group b.seen))
  | send {e : Error} {left : τ} (hlive : deadline.isExpired = false) (hcalls : b.Calls bridge now)
      (hsend : bridge.broadcastJoin t s = (.error e, left)) : b.Fails bridge t deadline now s e
  | starve (hlive : deadline.isExpired = false) (hstarves : b.Starves bridge) :
      b.Fails bridge t deadline now s (.transport .channelClosed)

theorem Steps.fails {e : Error} (h : b.Steps bridge t deadline now s b' bridge' s')
    (hwaits : b.result = none) (hresult : b'.result = some (.error e)) :
    b.Fails bridge t deadline now s e := by
  cases h with
  | begin _ => cases hwaits.symm.trans hresult
  | expireAtOnce hstate hexpired =>
    cases hresult
    have hseen : b.seen = [] := by simp only [Barrier.seen, hstate]
    rw [← hseen]
    exact .expire (Or.inl hstate) hexpired
  | join _ _ _ => cases hwaits.symm.trans hresult
  | joinFails hstate hlive hsend =>
    cases hresult
    exact .send hlive (Or.inl hstate) hsend
  | pass _ _ => cases hresult
  | expire hstate hmissing hexpired =>
    cases hresult
    rw [← seen_of_waiting hstate]
    exact .expire (Or.inr ⟨_, hstate, hmissing⟩) hexpired
  | hear _ _ _ _ => cases hwaits.symm.trans hresult
  | queueEnds hstate hmissing hlive hsignals hshut =>
    cases hresult
    exact .starve hlive ⟨_, hstate, hmissing, hsignals, hshut⟩
  | joinAgain _ _ _ _ _ _ _ => cases hwaits.symm.trans hresult
  | joinAgainFails hstate hmissing hlive hsignals hopen hdue hsend =>
    cases hresult
    exact .send hlive (Or.inr ⟨_, hstate, hmissing, hsignals, hopen, hdue⟩) hsend

theorem Misses.exists_missing {group : Group} (h : b.Misses group) :
    ∃ m ∈ group.peers, m ∉ b.seen := by
  rcases h with hstate | ⟨seen, hstate, hmissing⟩
  · obtain ⟨m, hm⟩ := group.exists_mem_peers
    exact ⟨m, hm, by simp [Barrier.seen, hstate]⟩
  · rwa [seen_of_waiting hstate]

/-- After the time a barrier can do no more than begin. -/
theorem Steps.seen_of_late (h : b.Steps bridge t deadline now s b' bridge' s')
    (hexpired : deadline.isExpired = true) (hresult : b'.result = none) :
    b'.seen = b.seen ∧ bridge' = bridge := by
  have hlate : deadline.isExpired ≠ false := by simp [hexpired]
  cases h with
  | begin hstate => exact ⟨by simp only [Barrier.seen, hstate], rfl⟩
  | expireAtOnce _ _ => cases hresult
  | join _ hlive _ => exact absurd hlive hlate
  | joinFails _ hlive _ => exact absurd hlive hlate
  | pass _ _ => cases hresult
  | expire _ _ _ => cases hresult
  | hear _ _ hlive _ => exact absurd hlive hlate
  | queueEnds _ _ hlive _ _ => exact absurd hlive hlate
  | joinAgain _ _ hlive _ _ _ _ => exact absurd hlive hlate
  | joinAgainFails _ _ hlive _ _ _ _ => exact absurd hlive hlate

theorem Fails.misses_of_late {e : Error} (h : b.Fails bridge t deadline now s e)
    (hexpired : deadline.isExpired = true) :
    b.Misses bridge.group ∧ e = .joinTimeout (missing bridge.group b.seen) := by
  have hlate : deadline.isExpired ≠ false := by simp [hexpired]
  cases h with
  | expire hmisses _ => exact ⟨hmisses, rfl⟩
  | send hlive _ _ => exact absurd hlive hlate
  | starve hlive _ => exact absurd hlive hlate

theorem Fails.steps {e : Error} (h : b.Fails bridge t deadline now s e) :
    ∃ b' bridge' s', b.Steps bridge t deadline now s b' bridge' s' ∧
      b'.result = some (.error e) := by
  cases h with
  | expire hmisses hexpired =>
    rcases hmisses with hstate | ⟨seen, hstate, hmissing⟩
    · refine ⟨_, _, _, .expireAtOnce hstate hexpired, ?_⟩
      rw [Barrier.seen, hstate]
      rfl
    · refine ⟨_, _, _, .expire hstate hmissing hexpired, ?_⟩
      rw [seen_of_waiting hstate]
      rfl
  | send hlive hcalls hsend =>
    rcases hcalls with hstate | ⟨seen, hstate, hmissing, hsignals, hopen, hdue⟩
    · exact ⟨_, _, _, .joinFails hstate hlive hsend, rfl⟩
    · exact ⟨_, _, _, .joinAgainFails hstate hmissing hlive hsignals hopen hdue hsend, rfl⟩
  | starve hlive hstarves =>
    obtain ⟨seen, hstate, hmissing, hsignals, hshut⟩ := hstarves
    exact ⟨_, _, _, .queueEnds hstate hmissing hlive hsignals hshut, rfl⟩

end Barrier

namespace Rounds

variable {p : Party σ α} {t : Transport τ} {deadline : Deadline} {move : Move} {r r' : Rounds σ α}
  {b b' : Bridge} {s s' : τ} {result : Except RoundsFault α}

/-- All the ways in which rounds get over. -/
inductive Ends (t : Transport τ) (deadline : Deadline) (r : Rounds σ α) (b : Bridge) (s : τ) :
    Move → Except RoundsFault α → Prop
  | expire {move : Move} (hmove : move ≠ .work) (hexpired : deadline.isExpired = true) :
      r.Ends t deadline b s move (.error .expired)
  | streamEnds (hlive : deadline.isExpired = false) (hwatch : r.watch = .racing)
      (hunread : r.unread = false) (hmessages : b.messages = []) (hshut : b.isOpen = false) :
      r.Ends t deadline b s .take (.error (.network (.transport .channelClosed)))
  | sendFails {m : Outbound} {outbox : List Outbound} {e : Error} {left : τ}
      (hlive : deadline.isExpired = false) (houtbox : r.outbox = m :: outbox)
      (hsend : b.send t m.payload m.target s = (.error e, left)) :
      r.Ends t deadline b s .send (.error (.network e))
  | sentRest {output : α} (hlive : deadline.isExpired = false) (hwatch : r.watch = .sending output)
      (houtbox : r.outbox = []) : r.Ends t deadline b s .send (.ok output)
  | finishFails {fault : RoundsFault} (hlive : deadline.isExpired = false)
      (hwatch : r.watch = .racing) (hworker : r.worker = .finished (.error fault)) :
      r.Ends t deadline b s .finish (.error fault)
  | finish {output : α} (hlive : deadline.isExpired = false) (hwatch : r.watch = .racing)
      (hworker : r.worker = .finished (.ok output)) (hsentAll : r.sentAll = true) :
      r.Ends t deadline b s .finish (.ok output)

theorem Ends.eq_of_late (h : r.Ends t deadline b s move result)
    (hexpired : deadline.isExpired = true) : result = .error .expired := by
  have hlate : deadline.isExpired ≠ false := by simp [hexpired]
  cases h with
  | expire _ _ => rfl
  | streamEnds hlive _ _ _ _ => exact absurd hlive hlate
  | sendFails hlive _ _ => exact absurd hlive hlate
  | sentRest hlive _ _ => exact absurd hlive hlate
  | finishFails hlive _ _ => exact absurd hlive hlate
  | finish hlive _ _ _ => exact absurd hlive hlate

theorem watch_ne_over (hover : r.isOver = false) (result : Except RoundsFault α) :
    r.watch ≠ .over result := by
  intro hwatch
  rw [isOver_of_watch hwatch] at hover
  cases hover

theorem Accounted.racing_of_failure {calls : List (Call α)}
    {handed : List (Outbound × Except Error Unit)} {fault : RoundsFault}
    (h : r.Accounted calls handed) (hover : r.isOver = false)
    (hworker : r.worker = .finished (.error fault)) : r.watch = .racing := by
  match hwatch : r.watch with
  | .racing => rfl
  | .sending output => cases hworker.symm.trans (h.sending output hwatch)
  | .over result => exact absurd hwatch (watch_ne_over hover result)

theorem ends_of_take (hover : r.isOver = false) (hlive : deadline.isExpired = false)
    (h : r.take b = some (r', b')) (hwatch : r'.watch = .over result) :
    r.Ends t deadline b s .take result := by
  unfold take at h
  split at h
  next hracing =>
    split at h
    next => cases h
    next hunread =>
      split at h
      next =>
        split at h
        next =>
          cases h
          exact absurd hwatch (watch_ne_over hover result)
        next =>
          cases h
          exact absurd hwatch (watch_ne_over hover result)
      next hmessages =>
        split at h
        next => cases h
        next hopen =>
          cases h
          cases hwatch
          exact .streamEnds hlive hracing (by simpa using hunread) hmessages (by simpa using hopen)
  next => cases h

theorem ends_of_send (hover : r.isOver = false) (hlive : deadline.isExpired = false)
    (h : r.send b t s = some (r', s')) (hwatch : r'.watch = .over result) :
    r.Ends t deadline b s .send result := by
  cases houtbox : r.outbox with
  | cons m outbox =>
    rw [send_of_cons hover houtbox] at h
    split at h
    next hsend =>
      cases h
      cases hwatch
      exact .sendFails hlive houtbox hsend
    next =>
      cases h
      exact absurd hwatch (watch_ne_over hover result)
  | nil =>
    unfold send at h
    rw [houtbox] at h
    split at h
    next => cases h
    next =>
      split at h
      next =>
        cases h
        exact absurd hwatch (watch_ne_over hover result)
      next => cases h
    next hsending _ =>
      cases h
      cases hwatch
      exact .sentRest hlive hsending houtbox
    next hcons _ => cases hcons

theorem ends_of_finish (hlive : deadline.isExpired = false) (h : r.finish = some r')
    (hwatch : r'.watch = .over result) : r.Ends t deadline b s .finish result := by
  unfold finish at h
  split at h
  next hracing hworker =>
    cases h
    cases hwatch
    exact .finishFails hlive hracing hworker
  next hracing hworker =>
    cases h
    dsimp only at hwatch
    split at hwatch
    next hsentAll =>
      cases hwatch
      exact .finish hlive hracing hworker hsentAll
    next => cases hwatch
  next => cases h

theorem ends_of_step (hover : r.isOver = false)
    (h : r.step p t deadline move b s = some (r', b', s')) (hwatch : r'.watch = .over result) :
    r.Ends t deadline b s move result := by
  by_cases hmove : move = .work
  · subst hmove
    simp only [step, if_true] at h
    obtain ⟨r'', hwork, he⟩ := Option.map_eq_some_iff.mp h
    cases he
    rw [(works_of_work hwork).kept.1] at hwatch
    exact absurd hwatch (watch_ne_over hover result)
  simp only [step, hmove, if_false, hover, Bool.false_eq_true] at h
  by_cases hexpired : deadline.isExpired = true
  · rw [if_pos hexpired] at h
    cases h
    cases hwatch
    exact .expire hmove hexpired
  rw [if_neg hexpired] at h
  have hlive : deadline.isExpired = false := by simpa using hexpired
  cases move with
  | work => exact absurd rfl hmove
  | take =>
    obtain ⟨⟨r'', b''⟩, htake, he⟩ := Option.map_eq_some_iff.mp h
    cases he
    exact ends_of_take hover hlive htake hwatch
  | send =>
    obtain ⟨⟨r'', s''⟩, hsend, he⟩ := Option.map_eq_some_iff.mp h
    cases he
    exact ends_of_send hover hlive hsend hwatch
  | finish =>
    obtain ⟨r'', hfinish, he⟩ := Option.map_eq_some_iff.mp h
    cases he
    exact ends_of_finish hlive hfinish hwatch
  | expire => cases h

theorem Ends.step (hover : r.isOver = false) (h : r.Ends t deadline b s move result) :
    ∃ r' b' s', r.step p t deadline move b s = some (r', b', s') ∧ r'.watch = .over result := by
  cases h with
  | expire hmove hexpired =>
    refine ⟨r.stop .expired, b, s, ?_, rfl⟩
    simp only [Rounds.step, hmove, if_false, hover, Bool.false_eq_true, hexpired, if_true]
  | streamEnds hlive hwatch hunread hmessages hshut =>
    refine ⟨r.stop (.network (.transport .channelClosed)), b, s, ?_, rfl⟩
    simp [Rounds.step, hover, hlive, take, hwatch, hunread, hmessages, hshut]
  | @sendFails m outbox e left hlive houtbox hsend =>
    refine ⟨{ r with outbox := outbox }.stop (.network e), b, left, ?_, rfl⟩
    simp [Rounds.step, hover, hlive, send_of_cons hover houtbox, hsend]
  | @sentRest output hlive hwatch houtbox =>
    refine ⟨{ r with watch := .over (.ok output) }, b, s, ?_, rfl⟩
    simp [Rounds.step, hover, hlive, send, hwatch, houtbox]
  | @finishFails fault hlive hwatch hworker =>
    refine ⟨r.stop fault, b, s, ?_, rfl⟩
    simp [Rounds.step, hover, hlive, Rounds.finish, hwatch, hworker]
  | @finish output hlive hwatch hworker hsentAll =>
    refine ⟨{ r with watch := .over (.ok output) }, b, s, ?_, rfl⟩
    simp [Rounds.step, hover, hlive, Rounds.finish, hwatch, hworker, hsentAll]

end Rounds

namespace Bridge

variable {b b' : Bridge} {t : Transport τ} {s s' left : τ} {event : Option Event}

theorem group_of_step (h : b.step t s = some (event, b', s')) : b'.group = b.group := by
  cases steps_of_step h with
  | @take inbound mid _ _ _ _ _ hdispatch =>
    obtain ⟨signals, he⟩ := dispatch_bridge_eq b t inbound mid
    rw [hdispatch] at he
    dsimp only at he
    rw [he]
  | shut _ _ => rfl

/-- A join that can be encoded fails only where the transport fails. -/
theorem broadcastJoin_eq_error_iff {bytes : ByteArray} {e : Error}
    (hencode : (Envelope.join b.group.localMember).encode = .ok bytes) :
    b.broadcastJoin t s = (.error e, left) ↔
      ∃ fault, t.send b.group.id .everyone bytes s = (.error fault, left) ∧
        e = .transport fault := by
  unfold broadcastJoin publish
  rw [hencode]
  rcases hsend : t.send b.group.id .everyone bytes s with ⟨answer, after⟩
  cases answer with
  | error fault => simp [hsend, and_comm, eq_comm]
  | ok _ => simp [hsend]

end Bridge

namespace Execution

variable {p : Party σ α} {t : Transport τ} {x x' : Execution σ α} {now : Nat} {move : Move}
  {s s' : τ} {events : List Event} {e : Error}

theorem exists_step_of_fails {b : Bridge} {barrier : Barrier} {party : σ}
    (hphase : x.phase = .joining b barrier party) (hwaits : barrier.result = none)
    (h : barrier.Fails b t x.deadline now s e) :
    ∃ events x' s', x.step p t now .join s = some (events, x', s') ∧
      x'.result? = some (.error e) := by
  obtain ⟨barrier', b', left, hsteps, hresult⟩ := h.steps
  have hstep := Barrier.step_of_steps hwaits hsteps
  simp only [step, join, hphase, hstep, Option.map_some, hresult]
  exact ⟨_, _, _, rfl, rfl⟩

theorem fails_of_step {b : Bridge} {barrier : Barrier} {party : σ}
    (hphase : x.phase = .joining b barrier party)
    (hstep : x.step p t now .join s = some (events, x', s'))
    (hresult : x'.result? = some (.error e)) : barrier.Fails b t x.deadline now s e := by
  cases joins_of_join hstep with
  | wait _ _ _ _ => cases hresult
  | pass _ _ _ _ => cases hresult
  | fail hphase' hwaits hsteps hfails =>
    cases hphase.symm.trans hphase'
    cases hresult
    exact hsteps.fails hwaits hfails

theorem exists_step_of_ends (p : Party σ α) (now : Nat) {b : Bridge} {r : Rounds σ α}
    {roundsMove : Rounds.Move} {fault : RoundsFault} (hphase : x.phase = .rounds b r)
    (hover : r.isOver = false) (h : r.Ends t x.deadline b s roundsMove (.error fault)) :
    ∃ events x' s', x.step p t now (.rounds roundsMove) s = some (events, x', s') ∧
      x'.result? = some (.error (x.plan.fault fault)) := by
  obtain ⟨r', b', left, hstep, hwatch⟩ := h.step (p := p) hover
  simp only [step, round, hphase, hstep, Option.map_some, hwatch]
  exact ⟨_, _, _, rfl, rfl⟩

theorem ends_of_step {b : Bridge} {r : Rounds σ α} {roundsMove : Rounds.Move}
    (hphase : x.phase = .rounds b r) (hover : r.isOver = false)
    (hstep : x.step p t now (.rounds roundsMove) s = some (events, x', s'))
    (hresult : x'.result? = some (.error e)) :
    ∃ fault, r.Ends t x.deadline b s roundsMove (.error fault) ∧ e = x.plan.fault fault := by
  cases plays_of_round hstep with
  | goOn _ _ _ => cases hresult
  | @ends _ _ _ _ _ result hphase' hround hwatch =>
    cases hphase.symm.trans hphase'
    cases result with
    | ok output => cases hresult
    | error fault =>
      cases hresult
      exact ⟨fault, Rounds.ends_of_step hover hround hwatch, rfl⟩
  | afterEnd hphase' _ _ => cases hphase.symm.trans hphase'

theorem result?_setBridge (b : Bridge) : (x.setBridge b).result? = x.result? := by
  unfold setBridge
  split
  next hphase => simp only [result?, hphase]
  next hphase => simp only [result?, hphase]
  next => rfl

theorem result?_of_dispatch (h : x.dispatch t s = some (events, x', s')) :
    x'.result? = x.result? := by
  rw [dispatch_eq] at h
  obtain ⟨b, -, hmap⟩ := Option.bind_eq_some_iff.mp h
  obtain ⟨_, -, he⟩ := Option.map_eq_some_iff.mp hmap
  cases he
  exact result?_setBridge _

theorem group_of_step {g : Group} (hgroup : ∀ b, x.bridge? = some b → b.group = g)
    (hstep : x.step p t now move s = some (events, x', s')) :
    ∀ b, x'.bridge? = some b → b.group = g := by
  have heffect (h : x.Effect t s x' s') : ∀ b, x'.bridge? = some b → b.group = g := by
    intro b hb
    cases h with
    | live hbridge hbridge' hspent _ =>
      cases hbridge'.symm.trans hb
      rw [hspent.group]
      exact hgroup _ hbridge
    | ends _ hbridge' _ _ => cases hbridge'.symm.trans hb
    | ended _ hbridge' => cases hbridge'.symm.trans hb
  cases steps_of_step hstep with
  | dispatch hbridge hdispatch =>
    intro b hb
    rw [bridge?_setBridge hbridge] at hb
    cases hb
    rw [Bridge.group_of_step hdispatch]
    exact hgroup _ hbridge
  | join hjoins => exact heffect hjoins.effect
  | round hturns => exact heffect hturns.effect

/-- What an execution gets to hear that goes on after its time. Once every peer was heard from it is
too late for the rounds, and before that for the join. -/
def overdue (x : Execution σ α) : Cause :=
  match x.phase with
  | .joining b barrier _ =>
    if b.group.peers.all (· ∈ barrier.seen) then .roundsExpired
    else .joinExpired (Barrier.missing b.group barrier.seen)
  | _ => .roundsExpired

end Execution

namespace Chronicle

/-- A move of an execution at which it meets a cause to end. -/
inductive Meets (t : Transport τ) (now : Nat) (s : τ) (c : Chronicle σ α) :
    Execution.Move → Cause → Prop
  | joinExpired {b : Bridge} {barrier : Barrier} {party : σ}
      (hphase : c.execution.phase = .joining b barrier party) (hmisses : barrier.Misses b.group)
      (hexpired : c.execution.deadline.isExpired = true) :
      c.Meets t now s .join (.joinExpired (Barrier.missing b.group barrier.seen))
  | joinFailed {b : Bridge} {barrier : Barrier} {party : σ} {bytes : ByteArray}
      {e : TransportError} {left : τ} (hphase : c.execution.phase = .joining b barrier party)
      (hlive : c.execution.deadline.isExpired = false) (hcalls : barrier.Calls b now)
      (hencode : (Envelope.join b.group.localMember).encode = .ok bytes)
      (hsend : t.send b.group.id .everyone bytes s = (.error e, left)) :
      c.Meets t now s .join (.joinFailed e)
  | signalsEnded {b : Bridge} {barrier : Barrier} {party : σ}
      (hphase : c.execution.phase = .joining b barrier party)
      (hlive : c.execution.deadline.isExpired = false) (hstarves : barrier.Starves b) :
      c.Meets t now s .join .feedEnded
  | roundsExpired {b : Bridge} {r : Rounds σ α} {move : Rounds.Move}
      (hphase : c.execution.phase = .rounds b r) (hmove : move ≠ .work)
      (hexpired : c.execution.deadline.isExpired = true) :
      c.Meets t now s (.rounds move) .roundsExpired
  | messagesEnded {b : Bridge} {r : Rounds σ α} (hphase : c.execution.phase = .rounds b r)
      (hlive : c.execution.deadline.isExpired = false) (hwatch : r.watch = .racing)
      (hunread : r.unread = false) (hmessages : b.messages = []) (hshut : b.isOpen = false) :
      c.Meets t now s (.rounds .take) .feedEnded
  | partyFailed {b : Bridge} {r : Rounds σ α} {call : Call α} {e : PartyError}
      (hphase : c.execution.phase = .rounds b r)
      (hlive : c.execution.deadline.isExpired = false) (hlast : c.calls.getLast? = some call)
      (hfails : call.failure? = some e) : c.Meets t now s (.rounds .finish) (.partyFailed e)
  | sendFailed {b : Bridge} {r : Rounds σ α} {m : Outbound} {outbox : List Outbound} {e : Error}
      {left : τ} (hphase : c.execution.phase = .rounds b r)
      (hlive : c.execution.deadline.isExpired = false) (houtbox : r.outbox = m :: outbox)
      (hsend : b.send t m.payload m.target s = (.error e, left)) :
      c.Meets t now s (.rounds .send) (.sendFailed e)

/-- An execution of a plan, whose bridge is for the plan's group. -/
structure Bound (plan : Plan) (c : Chronicle σ α) : Prop where
  carries : c.execution.plan = plan
  group : ∀ b, c.execution.bridge? = some b → b.group = plan.group

variable {p : Party σ α} {t : Transport τ} {plan : Plan}
  {makeParty : Group → Except PartyError σ} {made : Except PartyError σ} {x after : Execution σ α}
  {c d : Chronicle σ α} {now elapsed : Nat} {s s' left : τ} {events : List Event} {e : Error}
  {move : Execution.Move} {bytes : ByteArray}

theorem bound_begun (h : Execution.begin? plan t makeParty now elapsed s = some (events, x, left)) :
    (begun x).Bound plan ∧
      (x.bridge?.isSome → ∃ bytes, (Envelope.join plan.group.localMember).encode = .ok bytes) := by
  cases Execution.begins_of_begin? h with
  | failed hplan hphase => exact ⟨⟨hplan, by simp [begun, Execution.bridge?, hphase]⟩,
      by simp [Execution.bridge?, hphase]⟩
  | refused hplan hphase _ => exact ⟨⟨hplan, by simp [begun, Execution.bridge?, hphase]⟩,
      by simp [Execution.bridge?, hphase]⟩
  | bound hplan _ hconnect hphase =>
    obtain ⟨-, hnew, -, hannounce⟩ := Bridge.connect_eq_ok hconnect
    refine ⟨⟨hplan, ?_⟩, fun _ => ⟨_, Envelope.encode_join hannounce⟩⟩
    intro b hb
    cases (Execution.bridge?_of_joining hphase).symm.trans hb
    rw [hnew]
    rfl

theorem Bound.becomes (h : c.Bound plan) (hbecomes : c.Becomes p t d) : d.Bound plan := by
  induction hbecomes with
  | refl => exact h
  | step _ hstep ih =>
    exact ⟨(Execution.steps_of_step hstep).plan_eq.trans ih.carries,
      Execution.group_of_step ih.group hstep⟩
  | tick _ _ ih => exact ⟨ih.carries, ih.group⟩

/-- Where an execution is that has not ended. -/
theorem Told.cases_of_going (h : c.Told p made) (hgoing : c.execution.result? = none) :
    (∃ b barrier party, c.execution.phase = .joining b barrier party ∧ barrier.result = none) ∨
      ∃ b r party, c.execution.phase = .rounds b r ∧ r.isOver = false ∧
        r.Told p party c.calls c.handed c.stream b.messages := by
  cases h with
  | joining _ hphase hwaits _ _ _ => exact Or.inl ⟨_, _, _, hphase, hwaits⟩
  | rounds _ hphase _ hover htold => exact Or.inr ⟨_, _, _, hphase, hover, htold⟩
  | ended _ hphase _ _ _ => simp [Execution.result?, hphase] at hgoing
  | unstarted hphase _ => simp [Execution.result?, hphase] at hgoing

theorem Meets.ends {cause : Cause} (hmeets : c.Meets t now s move cause) (h : c.Told p made)
    (hbound : c.Bound plan) :
    ∃ events after s', c.execution.step p t now move s = some (events, after, s') ∧
      after.result? = some (.error (plan.errorOf cause)) := by
  have hgoing : c.execution.result? = none := by
    unfold Execution.result?
    cases hmeets <;> simp only [*]
  rcases h.cases_of_going hgoing with ⟨b, barrier, party, hphase, hwaits⟩ |
    ⟨b, r, party, hphase, hover, htold⟩
  · cases hmeets with
    | joinExpired hphase' hmisses hexpired =>
      cases hphase.symm.trans hphase'
      exact Execution.exists_step_of_fails hphase hwaits (.expire hmisses hexpired)
    | joinFailed hphase' hlive hcalls hencode hsend =>
      cases hphase.symm.trans hphase'
      have hfails := (Bridge.broadcastJoin_eq_error_iff hencode).mpr ⟨_, hsend, rfl⟩
      exact Execution.exists_step_of_fails hphase hwaits (.send hlive hcalls hfails)
    | signalsEnded hphase' hlive hstarves =>
      cases hphase.symm.trans hphase'
      exact Execution.exists_step_of_fails hphase hwaits (.starve hlive hstarves)
    | roundsExpired hphase' _ _ => cases hphase.symm.trans hphase'
    | messagesEnded hphase' _ _ _ _ _ => cases hphase.symm.trans hphase'
    | partyFailed hphase' _ _ _ => cases hphase.symm.trans hphase'
    | sendFailed hphase' _ _ _ => cases hphase.symm.trans hphase'
  · have hends {fault : RoundsFault} {move : Rounds.Move}
        (hends : r.Ends t c.execution.deadline b s move (.error fault)) :=
      Execution.exists_step_of_ends p now hphase hover hends
    rw [hbound.carries] at hends
    cases hmeets with
    | joinExpired hphase' _ _ => cases hphase.symm.trans hphase'
    | joinFailed hphase' _ _ _ _ => cases hphase.symm.trans hphase'
    | signalsEnded hphase' _ _ => cases hphase.symm.trans hphase'
    | roundsExpired hphase' hmove hexpired =>
      cases hphase.symm.trans hphase'
      rw [Plan.errorOf_roundsExpired]
      exact hends (.expire hmove hexpired)
    | messagesEnded hphase' hlive hwatch hunread hmessages hshut =>
      cases hphase.symm.trans hphase'
      exact hends (.streamEnds hlive hwatch hunread hmessages hshut)
    | partyFailed hphase' hlive hlast hfails =>
      cases hphase.symm.trans hphase'
      have hworker := htold.accounted.abides.of_failure hlast hfails
      rw [Plan.errorOf_partyFailed]
      exact hends (.finishFails hlive (htold.accounted.racing_of_failure hover hworker) hworker)
    | sendFailed hphase' hlive houtbox hsend =>
      cases hphase.symm.trans hphase'
      exact hends (.sendFails hlive houtbox hsend)

theorem exists_meets (h : c.Told p made) (hbound : c.Bound plan)
    (hencode : (Envelope.join plan.group.localMember).encode = .ok bytes)
    (hgoing : c.execution.result? = none)
    (hstep : c.execution.step p t now move s = some (events, after, s'))
    (hresult : after.result? = some (.error e)) :
    ∃ cause, c.Meets t now s move cause ∧ e = plan.errorOf cause := by
  cases move with
  | dispatch =>
    rw [Execution.result?_of_dispatch hstep, hgoing] at hresult
    cases hresult
  | join =>
    rcases h.cases_of_going hgoing with ⟨b, barrier, party, hphase, hwaits⟩ |
      ⟨b, r, party, hphase, -, -⟩
    · cases Execution.fails_of_step hphase hstep hresult with
      | expire hmisses hexpired => exact ⟨_, .joinExpired hphase hmisses hexpired, rfl⟩
      | send hlive hcalls hsend =>
        rw [← hbound.group b (Execution.bridge?_of_joining hphase)] at hencode
        obtain ⟨fault, hfault, rfl⟩ := (Bridge.broadcastJoin_eq_error_iff hencode).mp hsend
        exact ⟨_, .joinFailed hphase hlive hcalls hencode hfault, rfl⟩
      | starve hlive hstarves => exact ⟨_, .signalsEnded hphase hlive hstarves, rfl⟩
    · simp [Execution.step, Execution.join, hphase] at hstep
  | rounds move =>
    rcases h.cases_of_going hgoing with ⟨b, barrier, party, hphase, -⟩ |
      ⟨b, r, party, hphase, hover, htold⟩
    · simp [Execution.step, Execution.round, hphase] at hstep
    · obtain ⟨fault, hends, rfl⟩ := Execution.ends_of_step hphase hover hstep hresult
      rw [hbound.carries]
      cases hends with
      | expire hmove hexpired =>
        exact ⟨_, .roundsExpired hphase hmove hexpired, plan.errorOf_roundsExpired.symm⟩
      | streamEnds hlive hwatch hunread hmessages hshut =>
        exact ⟨_, .messagesEnded hphase hlive hwatch hunread hmessages hshut, rfl⟩
      | sendFails hlive houtbox hsend => exact ⟨_, .sendFailed hphase hlive houtbox hsend, rfl⟩
      | finishFails hlive hwatch hworker =>
        rcases htold.accounted.abides.of_finished_error hworker with
          hcut | ⟨call, e, hlast, hfails, rfl⟩
        · cases hover.symm.trans hcut.2
        · exact ⟨_, .partyFailed hphase hlive hlast hfails, (plan.errorOf_partyFailed e).symm⟩

theorem overdue_of_joining {b : Bridge} {barrier : Barrier} {party : σ}
    (hphase : x.phase = .joining b barrier party) :
    x.overdue = if b.group.peers.all (· ∈ barrier.seen) then .roundsExpired
      else .joinExpired (Barrier.missing b.group barrier.seen) := by
  simp only [Execution.overdue, hphase]

theorem overdue_of_rounds {b : Bridge} {r : Rounds σ α} (hphase : x.phase = .rounds b r) :
    x.overdue = .roundsExpired := by
  simp only [Execution.overdue, hphase]

theorem overdue_of_missing {b : Bridge} {barrier : Barrier} {party : σ}
    (hphase : x.phase = .joining b barrier party)
    (hmissing : ∃ m ∈ b.group.peers, m ∉ barrier.seen) :
    x.overdue = .joinExpired (Barrier.missing b.group barrier.seen) := by
  have hall : b.group.peers.all (· ∈ barrier.seen) = false := by simpa using hmissing
  rw [overdue_of_joining hphase, hall]
  rfl

theorem overdue_dispatch (h : c.Told p made) (hgoing : c.execution.result? = none)
    (hdispatch : c.execution.dispatch t s = some (events, after, s')) :
    after.deadline = c.execution.deadline ∧ after.result? = none ∧
      after.overdue = c.execution.overdue := by
  rw [Execution.dispatch_eq] at hdispatch
  obtain ⟨b, hbridge, hmap⟩ := Option.bind_eq_some_iff.mp hdispatch
  obtain ⟨⟨event, b', mid⟩, hb, he⟩ := Option.map_eq_some_iff.mp hmap
  cases he
  have hgroup := Bridge.group_of_step hb
  rcases h.cases_of_going hgoing with ⟨b₀, barrier, party, hphase, -⟩ |
    ⟨b₀, r, party, hphase, -, -⟩
  · cases hbridge.symm.trans (Execution.bridge?_of_joining hphase)
    have hnew : (c.execution.setBridge b').phase = .joining b' barrier party := by
      simp only [Execution.setBridge, hphase]
    refine ⟨Execution.deadline_setBridge _ _,
      (Execution.result?_setBridge _).trans hgoing, ?_⟩
    rw [overdue_of_joining hnew, overdue_of_joining hphase, hgroup]
  · have hnew : (c.execution.setBridge b').phase = .rounds b' r := by
      simp only [Execution.setBridge, hphase]
    refine ⟨Execution.deadline_setBridge _ _,
      (Execution.result?_setBridge _).trans hgoing, ?_⟩
    rw [overdue_of_rounds hnew, overdue_of_rounds hphase]

theorem overdue_join (hexpired : x.deadline.isExpired = true)
    (hjoin : x.join t now s = some (events, after, s')) :
    after.deadline = x.deadline ∧ (after.result? = none ∧ after.overdue = x.overdue ∨
      after.result? = some (.error (x.plan.errorOf x.overdue))) := by
  cases Execution.joins_of_join hjoin with
  | wait hphase hwaits hsteps hresult =>
    obtain ⟨hseen, rfl⟩ := hsteps.seen_of_late hexpired hresult
    refine ⟨rfl, Or.inl ⟨rfl, ?_⟩⟩
    rw [overdue_of_joining hphase, overdue_of_joining rfl, hseen]
  | pass hphase hwaits hsteps hresult =>
    refine ⟨rfl, Or.inl ⟨rfl, ?_⟩⟩
    have hall := hsteps.ready (hsteps.ready_of_result hwaits hresult)
    rw [overdue_of_rounds rfl, overdue_of_joining hphase, if_pos (by simpa using hall)]
  | fail hphase hwaits hsteps hresult =>
    obtain ⟨hmisses, rfl⟩ := (hsteps.fails hwaits hresult).misses_of_late hexpired
    refine ⟨rfl, Or.inr ?_⟩
    rw [overdue_of_missing hphase hmisses.exists_missing]
    rfl

theorem overdue_round {b : Bridge} {r : Rounds σ α} {move : Rounds.Move}
    (hphase : x.phase = .rounds b r) (hover : r.isOver = false)
    (hexpired : x.deadline.isExpired = true)
    (hround : x.round p t now move s = some (events, after, s')) :
    after.deadline = x.deadline ∧ (after.result? = none ∧ after.overdue = x.overdue ∨
      after.result? = some (.error (x.plan.errorOf x.overdue))) := by
  rw [overdue_of_rounds hphase]
  cases Execution.plays_of_round hround with
  | goOn _ _ _ => exact ⟨rfl, Or.inl ⟨rfl, rfl⟩⟩
  | ends hphase' hround hwatch =>
    cases hphase.symm.trans hphase'
    rw [(Rounds.ends_of_step hover hround hwatch).eq_of_late hexpired]
    exact ⟨rfl, Or.inr (congrArg some (congrArg Except.error x.plan.errorOf_roundsExpired.symm))⟩
  | afterEnd hphase' _ _ => cases hphase.symm.trans hphase'

/-- After its time an execution goes on as before, or ends as it has to. -/
theorem overdue_step (h : c.Told p made) (hbound : c.Bound plan)
    (hexpired : c.execution.deadline.isExpired = true) (hgoing : c.execution.result? = none)
    (hstep : c.execution.step p t now move s = some (events, after, s')) :
    after.deadline = c.execution.deadline ∧
      (after.result? = none ∧ after.overdue = c.execution.overdue ∨
        after.result? = some (.error (plan.errorOf c.execution.overdue))) := by
  rw [← hbound.carries]
  cases move with
  | dispatch =>
    obtain ⟨hdeadline, hnone, hsame⟩ := overdue_dispatch h hgoing hstep
    exact ⟨hdeadline, Or.inl ⟨hnone, hsame⟩⟩
  | join => exact overdue_join hexpired hstep
  | rounds move =>
    rcases h.cases_of_going hgoing with ⟨b, barrier, party, hphase, -⟩ |
      ⟨b, r, party, hphase, hover, -⟩
    · simp [Execution.step, Execution.round, hphase] at hstep
    · exact overdue_round hphase hover hexpired hstep

/-- An execution that goes on after its time has only one end. -/
theorem result?_of_overdue (h : c.Told p made) (hbound : c.Bound plan)
    (hexpired : c.execution.deadline.isExpired = true) (hgoing : c.execution.result? = none)
    (hbecomes : c.Becomes p t d) :
    d.execution.result? = none ∧ d.execution.deadline.isExpired = true ∧
        d.execution.overdue = c.execution.overdue ∨
      d.execution.result? = some (.error (plan.errorOf c.execution.overdue)) := by
  induction hbecomes with
  | refl => exact Or.inl ⟨hgoing, hexpired, rfl⟩
  | tick _ now ih =>
    rcases ih with ⟨hnone, hlate, hsame⟩ | hended
    · refine Or.inl ⟨hnone, ?_, hsame⟩
      unfold Deadline.isExpired at hlate ⊢
      simp only [Execution.tick, Deadline.tick_eq, hlate, Bool.true_or]
    · exact Or.inr hended
  | @step d now move s s' events after hd hstep ih =>
    have htold := h.becomes hd
    rcases ih with ⟨hnone, hlate, hsame⟩ | hended
    · obtain ⟨hdeadline, hnext⟩ := overdue_step htold (hbound.becomes hd) hlate hnone hstep
      rw [hsame] at hnext
      rcases hnext with ⟨hgoing', hsame'⟩ | hended
      · exact Or.inl ⟨hgoing', by simpa only [add, hdeadline] using hlate, hsame'⟩
      · exact Or.inr hended
    · exact Or.inr (htold.of_ended hended (Becomes.refl.step hstep)).1

/-- Whatever the party, the transport, the traffic and the timing are: an execution that was bound
to its transport ends with an error where it meets a cause, with the error of that cause, and
nowhere else. When its time is over, its end is settled, and is no output. -/
theorem error_iff_meets
    (hbegin : Execution.begin? plan t makeParty now elapsed s = some (events, x, left))
    (hconnected : x.bridge?.isSome) (h : (begun x).Becomes p t c)
    (hgoing : c.execution.result? = none) :
    (∀ moment move s e,
        (∃ events after s', c.execution.step p t moment move s = some (events, after, s') ∧
            after.result? = some (.error e)) ↔
          ∃ cause, c.Meets t moment s move cause ∧ e = plan.errorOf cause) ∧
      (c.execution.deadline.isExpired = true → ∀ d, c.Becomes p t d → ∀ result,
        d.execution.result? = some result →
          result = .error (plan.errorOf c.execution.overdue)) ∧
      (∀ settings group preParams events,
        KeyGeneration.plan settings group preParams = .ok (events, plan) →
          plan.errorOf .roundsExpired = .keyGenerationTimeout settings.keyGenerationTimeout) ∧
      ∀ settings signer digest participants events,
        Signing.plan settings signer digest participants = .ok (events, plan) →
          plan.errorOf .roundsExpired = .signingTimeout settings.signingTimeout := by
  have htold := (told_begun (p := p) hbegin).becomes h
  obtain ⟨hbegun, hencode⟩ := bound_begun hbegin
  have hbound := hbegun.becomes h
  obtain ⟨bytes, hencode⟩ := hencode hconnected
  refine ⟨?_, ?_, fun _ _ _ _ => Plan.errorOf_keyGeneration, fun _ _ _ _ _ => Plan.errorOf_signing⟩
  · intro moment move s e
    constructor
    · rintro ⟨events, after, s', hstep, hresult⟩
      exact exists_meets htold hbound hencode hgoing hstep hresult
    · rintro ⟨cause, hmeets, rfl⟩
      exact hmeets.ends htold hbound
  · intro hexpired d hd result hresult
    rcases result?_of_overdue htold hbound hexpired hgoing hd with ⟨hnone, -, -⟩ | hended
    · cases hnone.symm.trans hresult
    · exact Option.some.inj (hresult.symm.trans hended)

/-- Only `a` is heard from before the time is over. -/
def late : Option (Chronicle Nat Unit) :=
  (Execution.begin? signingPlan (Link.transport Screening.b) (fun _ => .ok 0) 0 0 mailbox).bind
    fun (_, x, l) =>
      (run? picky (Link.transport Screening.b) 0 [.dispatch, .dispatch, .join, .join, .join]
        (begun x) l).map fun c => { c with execution := c.execution.tick 1000 }

def resumed (c : Chronicle Nat Unit) : Option (List Event × Execution Nat Unit × Link) :=
  c.execution.step picky (Link.transport Screening.b) 1000 .join mailbox

theorem view_overdue :
    (Execution.begin? signingPlan (Link.transport Screening.b) (fun _ => .ok 0) 0 0 mailbox).map
      (fun r => (r.2.1 : Execution Nat Unit).bridge?.isSome) = some true := by
  decide +kernel

theorem view_late :
    (late.map fun c => (c.execution.bridge?.isSome, c.execution.deadline.isExpired,
      signingPlan.errorOf c.execution.overdue, (resumed c).map fun r => error? r.2.1)) =
      some (true, true, .joinTimeout [Screening.c], some (some (.joinTimeout [Screening.c]))) := by
  decide +kernel

theorem meets_late :
    ∃ events x left c,
      Execution.begin? signingPlan (Link.transport Screening.b) (fun _ => .ok 0) 0 0 mailbox =
          some (events, x, left) ∧
        x.bridge?.isSome ∧ (begun x).Becomes picky (Link.transport Screening.b) c ∧
        c.execution.result? = none ∧ c.execution.deadline.isExpired = true ∧
        (∀ d, c.Becomes picky (Link.transport Screening.b) d → ∀ result,
          d.execution.result? = some result → result = .error (.joinTimeout [Screening.c])) ∧
        ∃ cause, c.Meets (Link.transport Screening.b) 1000 mailbox .join cause ∧
          signingPlan.errorOf cause = .joinTimeout [Screening.c] := by
  obtain ⟨c, hlate, hview⟩ := Option.map_eq_some_iff.mp view_late
  obtain ⟨⟨events, x, left⟩, hbegin, hrun⟩ := Option.bind_eq_some_iff.mp hlate
  obtain ⟨d, hd, rfl⟩ := Option.map_eq_some_iff.mp hrun
  simp only [Prod.mk.injEq] at hview
  obtain ⟨hbridge, hexpired, hoverdue, hresumed⟩ := hview
  have hbecomes := (Becomes.refl.run? hd).tick 1000
  have hgoing : ({ d with execution := d.execution.tick 1000 } :
      Chronicle Nat Unit).execution.result? = none := by
    obtain ⟨b, hb⟩ := Option.isSome_iff_exists.mp hbridge
    exact Execution.result?_of_bridge? hb
  have hconnected : x.bridge?.isSome := by
    have hview := view_overdue
    rw [hbegin] at hview
    exact Option.some.inj hview
  obtain ⟨hiff, hlast, -, -⟩ := error_iff_meets hbegin hconnected hbecomes hgoing
  obtain ⟨⟨events', after, left'⟩, hstep, herror⟩ := Option.map_eq_some_iff.mp hresumed
  have hresult := result?_of_error? herror
  obtain ⟨cause, hmeets, he⟩ := (hiff 1000 .join mailbox _).mp ⟨_, _, _, hstep, hresult⟩
  refine ⟨events, x, left, _, hbegin, hconnected, hbecomes, hgoing, hexpired, ?_, cause, hmeets,
    he.symm⟩
  intro d' hd' result hresult'
  rw [← hoverdue]
  exact hlast hexpired d' hd' result hresult'

end Chronicle

end ThresholdSigning
