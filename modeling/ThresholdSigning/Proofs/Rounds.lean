import ThresholdSigning.Rounds

namespace ThresholdSigning

variable {σ α τ : Type}

/-- An output that the party's `result` has given in some state of the party. -/
def Party.Gives (p : Party σ α) (output : α) : Prop := ∃ party, (p.result party).1 = .ok output

namespace Rounds

variable {p : Party σ α} {t : Transport τ} {deadline : Deadline} {move : Move} {r r' : Rounds σ α}
  {b b' : Bridge} {s s' : τ}

/-- All that one step of the worker can be. -/
inductive Works (p : Party σ α) (r : Rounds σ α) : Rounds σ α → Prop
  | start {party : σ} (hworker : r.worker = .starting)
      (hstart : p.start r.party = (.ok (), party)) :
      r.Works p (collect p r party)
  | startFails {e : PartyError} {party : σ} (hworker : r.worker = .starting)
      (hstart : p.start r.party = (.error e, party)) :
      r.Works p ({ r with party := party }.quit (.computation e.cause))
  | flushed (hworker : r.worker = .flushing []) : r.Works p { r with worker := .checking }
  | queue {m : Outbound} {produced : List Outbound} (hworker : r.worker = .flushing (m :: produced))
      (hover : r.isOver = false) :
      r.Works p { r with worker := .flushing produced, outbox := r.outbox ++ [m] }
  | queueClosed {m : Outbound} {produced : List Outbound}
      (hworker : r.worker = .flushing (m :: produced)) (hover : r.isOver = true) :
      r.Works p (r.quit .expired)
  | incomplete (hworker : r.worker = .checking) (hcomplete : p.isComplete r.party = false) :
      r.Works p { r with worker := .reading }
  | result {output : α} {party : σ} (hworker : r.worker = .checking)
      (hcomplete : p.isComplete r.party = true) (hresult : p.result r.party = (.ok output, party)) :
      r.Works p { r with party := party, worker := .finished (.ok output) }
  | resultFails {e : PartyError} {party : σ} (hworker : r.worker = .checking)
      (hcomplete : p.isComplete r.party = true) (hresult : p.result r.party = (.error e, party)) :
      r.Works p ({ r with party := party }.quit (.computation e.cause))
  | read {m : ProtocolMessage} {inbox : List ProtocolMessage} (hworker : r.worker = .reading)
      (hinbox : r.inbox = m :: inbox) :
      r.Works p { r with inbox := inbox, worker := .feeding m }
  | inboxClosed (hworker : r.worker = .reading) (hinbox : r.inbox = []) (hover : r.isOver = true) :
      r.Works p (r.quit .expired)
  | feed {m : ProtocolMessage} {answer : Except PartyError Unit} {party : σ}
      (hworker : r.worker = .feeding m) (hfeed : p.feed m r.party = (answer, party))
      (hanswer : ∀ reason, answer ≠ .error (.failure reason)) :
      r.Works p (collect p r party)
  | feedFails {m : ProtocolMessage} {reason : String} {party : σ} (hworker : r.worker = .feeding m)
      (hfeed : p.feed m r.party = (.error (.failure reason), party)) :
      r.Works p ({ r with party := party }.quit (.computation (.reported reason)))

theorem works_of_work (h : r.work p = some r') : r.Works p r' := by
  unfold work at h
  split at h
  next hworker =>
    split at h
    next e party hstart =>
      cases h
      exact .startFails hworker hstart
    next party hstart =>
      cases h
      exact .start hworker hstart
  next hworker =>
    cases h
    exact .flushed hworker
  next m produced hworker =>
    split at h
    next hover =>
      cases h
      exact .queueClosed hworker hover
    next hover =>
      cases h
      exact .queue hworker (by simpa using hover)
  next hworker =>
    split at h
    next hcomplete =>
      split at h
      next e party hresult =>
        cases h
        exact .resultFails hworker hcomplete hresult
      next output party hresult =>
        cases h
        exact .result hworker hcomplete hresult
    next hcomplete =>
      cases h
      exact .incomplete hworker (by simpa using hcomplete)
  next hworker =>
    split at h
    next m inbox hinbox =>
      cases h
      exact .read hworker hinbox
    next hinbox =>
      split at h
      next hover =>
        cases h
        exact .inboxClosed hworker hinbox hover
      next => cases h
  next m hworker =>
    split at h
    next reason party hfeed =>
      cases h
      exact .feedFails hworker hfeed
    next answer party hother hfeed =>
      cases h
      refine .feed hworker hfeed ?_
      rintro reason rfl
      exact hother reason rfl
  next => cases h

/-- All that the side can do that watches the worker. The bridge is only read from and sent
through. -/
inductive Watches (t : Transport τ) (r : Rounds σ α) (b : Bridge) (s : τ) :
    Rounds σ α → Bridge → τ → Prop
  | take {m : ProtocolMessage} {messages : List ProtocolMessage} (hwatch : r.watch = .racing)
      (hunread : r.unread = false) (hmessages : b.messages = m :: messages)
      (hfinished : r.isFinished = false) :
      r.Watches t b s { r with inbox := r.inbox ++ [m] } { b with messages := messages } s
  | takeUnread {m : ProtocolMessage} {messages : List ProtocolMessage} (hwatch : r.watch = .racing)
      (hunread : r.unread = false) (hmessages : b.messages = m :: messages)
      (hfinished : r.isFinished = true) :
      r.Watches t b s { r with unread := true } { b with messages := messages } s
  | streamEnds (hwatch : r.watch = .racing) (hunread : r.unread = false)
      (hmessages : b.messages = []) (hclosed : b.isOpen = false) :
      r.Watches t b s (r.stop (.network (.transport .channelClosed))) b s
  | sentAll (hwatch : r.watch = .racing) (houtbox : r.outbox = []) (hfinished : r.isFinished = true)
      (hsentAll : r.sentAll = false) :
      r.Watches t b s { r with sentAll := true } b s
  | sentRest {output : α} (hwatch : r.watch = .sending output) (houtbox : r.outbox = []) :
      r.Watches t b s { r with watch := .over (.ok output) } b s
  | send {m : Outbound} {outbox : List Outbound} {left : τ} (houtbox : r.outbox = m :: outbox)
      (hsend : b.send t m.payload m.target s = (.ok (), left)) :
      r.Watches t b s { r with outbox := outbox } b left
  | sendFails {m : Outbound} {outbox : List Outbound} {e : Error} {left : τ}
      (houtbox : r.outbox = m :: outbox)
      (hsend : b.send t m.payload m.target s = (.error e, left)) :
      r.Watches t b s ({ r with outbox := outbox }.stop (.network e)) b left
  | finish {output : α} (hwatch : r.watch = .racing) (hworker : r.worker = .finished (.ok output)) :
      r.Watches t b s
        { r with watch := if r.sentAll then .over (.ok output) else .sending output } b s
  | finishFails {fault : RoundsFault} (hwatch : r.watch = .racing)
      (hworker : r.worker = .finished (.error fault)) :
      r.Watches t b s (r.stop fault) b s

theorem watches_of_take (h : r.take b = some (r', b')) : r.Watches t b s r' b' s := by
  unfold take at h
  split at h
  next hwatch =>
    split at h
    next => cases h
    next hunread =>
      have hunread : r.unread = false := by simpa using hunread
      split at h
      next m messages hmessages =>
        split at h
        next hfinished =>
          cases h
          exact .takeUnread hwatch hunread hmessages hfinished
        next hfinished =>
          cases h
          exact .take hwatch hunread hmessages (by simpa using hfinished)
      next hmessages =>
        split at h
        next => cases h
        next hclosed =>
          cases h
          exact .streamEnds hwatch hunread hmessages (by simpa using hclosed)
  next => cases h

theorem watches_of_send (h : r.send b t s = some (r', s')) : r.Watches t b s r' b s' := by
  unfold send at h
  split at h
  next => cases h
  next hwatch houtbox =>
    split at h
    next hfinished =>
      cases h
      obtain ⟨hfinished, hsentAll⟩ : r.isFinished = true ∧ r.sentAll = false := by
        simpa using hfinished
      exact .sentAll hwatch houtbox hfinished hsentAll
    next => cases h
  next output hwatch houtbox =>
    cases h
    exact .sentRest hwatch houtbox
  next m outbox houtbox _ =>
    split at h
    next e left hsend =>
      cases h
      exact .sendFails houtbox hsend
    next left hsend =>
      cases h
      exact .send houtbox hsend

theorem watches_of_finish (h : r.finish = some r') : r.Watches t b s r' b s := by
  unfold finish at h
  split at h
  next fault hwatch hworker =>
    cases h
    exact .finishFails hwatch hworker
  next output hwatch hworker =>
    cases h
    exact .finish hwatch hworker
  next => cases h

inductive Steps (p : Party σ α) (t : Transport τ) (deadline : Deadline) (r : Rounds σ α)
    (b : Bridge) (s : τ) : Rounds σ α → Bridge → τ → Prop
  | work {r' : Rounds σ α} (hworks : r.Works p r') : r.Steps p t deadline b s r' b s
  | expire (hover : r.isOver = false) (hexpired : deadline.isExpired = true) :
      r.Steps p t deadline b s (r.stop .expired) b s
  | watch {r' : Rounds σ α} {b' : Bridge} {s' : τ} (hover : r.isOver = false)
      (hlive : deadline.isExpired = false) (hwatches : r.Watches t b s r' b' s') :
      r.Steps p t deadline b s r' b' s'

theorem steps_of_step (h : r.step p t deadline move b s = some (r', b', s')) :
    r.Steps p t deadline b s r' b' s' := by
  unfold step at h
  split at h
  next =>
    obtain ⟨r'', hwork, he⟩ := Option.map_eq_some_iff.mp h
    cases he
    exact .work (works_of_work hwork)
  next =>
    split at h
    next => cases h
    next hover =>
      have hover : r.isOver = false := by simpa using hover
      split at h
      next hexpired =>
        cases h
        exact .expire hover hexpired
      next hlive =>
        have hlive : deadline.isExpired = false := by simpa using hlive
        cases move with
        | work => cases h
        | take =>
          obtain ⟨⟨r'', b''⟩, htake, he⟩ := Option.map_eq_some_iff.mp h
          cases he
          exact .watch hover hlive (watches_of_take htake)
        | send =>
          obtain ⟨⟨r'', s''⟩, hsend, he⟩ := Option.map_eq_some_iff.mp h
          cases he
          exact .watch hover hlive (watches_of_send hsend)
        | finish =>
          obtain ⟨r'', hfinish, he⟩ := Option.map_eq_some_iff.mp h
          cases he
          exact .watch hover hlive (watches_of_finish hfinish)
        | expire => cases h

/-- Every output that is anywhere in the rounds was given by the party. -/
structure Earned (p : Party σ α) (r : Rounds σ α) : Prop where
  worker : ∀ output, r.worker = .finished (.ok output) → p.Gives output
  sending : ∀ output, r.watch = .sending output → p.Gives output
  ended : ∀ output, r.watch = .over (.ok output) → p.Gives output

theorem earned_create (party : σ) : (create party : Rounds σ α).Earned p :=
  ⟨nofun, nofun, nofun⟩

theorem Earned.work (h : r.Earned p) (hworks : r.Works p r') : r'.Earned p := by
  cases hworks with
  | @result output party _ _ hresult =>
    refine ⟨?_, h.sending, h.ended⟩
    rintro _ ⟨⟩
    exact ⟨r.party, by rw [hresult]⟩
  | start _ _ => exact ⟨nofun, h.sending, h.ended⟩
  | startFails _ _ => exact ⟨nofun, h.sending, h.ended⟩
  | flushed _ => exact ⟨nofun, h.sending, h.ended⟩
  | queue _ _ => exact ⟨nofun, h.sending, h.ended⟩
  | queueClosed _ _ => exact ⟨nofun, h.sending, h.ended⟩
  | incomplete _ _ => exact ⟨nofun, h.sending, h.ended⟩
  | resultFails _ _ _ => exact ⟨nofun, h.sending, h.ended⟩
  | read _ _ => exact ⟨nofun, h.sending, h.ended⟩
  | inboxClosed _ _ _ => exact ⟨nofun, h.sending, h.ended⟩
  | feed _ _ _ => exact ⟨nofun, h.sending, h.ended⟩
  | feedFails _ _ => exact ⟨nofun, h.sending, h.ended⟩

theorem Earned.stop (h : r.Earned p) (fault : RoundsFault) : (r.stop fault).Earned p :=
  ⟨h.worker, nofun, nofun⟩

theorem Earned.watch (h : r.Earned p) (hwatches : r.Watches t b s r' b' s') : r'.Earned p := by
  cases hwatches with
  | take _ _ _ _ => exact ⟨h.worker, h.sending, h.ended⟩
  | takeUnread _ _ _ _ => exact ⟨h.worker, h.sending, h.ended⟩
  | streamEnds _ _ _ _ => exact h.stop _
  | sentAll _ _ _ _ => exact ⟨h.worker, h.sending, h.ended⟩
  | @sentRest output hwatch _ =>
    refine ⟨h.worker, nofun, ?_⟩
    rintro _ ⟨⟩
    exact h.sending output hwatch
  | send _ _ => exact ⟨h.worker, h.sending, h.ended⟩
  | @sendFails m outbox e left _ _ =>
    have hkept : ({ r with outbox := outbox } : Rounds σ α).Earned p :=
      ⟨h.worker, h.sending, h.ended⟩
    exact hkept.stop (.network e)
  | @finish output _ hworker =>
    have hgives := h.worker output hworker
    refine ⟨h.worker, ?_, ?_⟩
    · intro other hother
      dsimp only at hother
      split at hother <;> cases hother
      exact hgives
    · intro other hother
      dsimp only at hother
      split at hother <;> cases hother
      exact hgives
  | finishFails _ _ => exact h.stop _

theorem Earned.step (h : r.Earned p) (hsteps : r.Steps p t deadline b s r' b' s') :
    r'.Earned p := by
  cases hsteps with
  | work hworks => exact h.work hworks
  | expire _ _ => exact h.stop _
  | watch _ _ hwatches => exact h.watch hwatches

end Rounds

end ThresholdSigning
