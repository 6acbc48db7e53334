import ThresholdSigning.Proofs.Outcome

namespace ThresholdSigning

variable {σ α τ : Type}

namespace Party

/-- Drained, and then fed and drained in turn, the party comes to the output with the messages, or
with the first of them. -/
inductive Finishes (p : Party σ α) (output : α) : σ → List ProtocolMessage → Prop
  | complete {party : σ} {ms : List ProtocolMessage} (hcomplete : p.isComplete party = true)
      (hresult : (p.result party).1 = .ok output) : p.Finishes output party ms
  | feed {party : σ} {m : ProtocolMessage} {ms : List ProtocolMessage}
      (hincomplete : p.isComplete party = false)
      (haccepted : ∀ reason, (p.feed m party).1 ≠ .error (.failure reason))
      (hrest : p.Finishes output (p.drain (p.feed m party).2).2 ms) :
      p.Finishes output party (m :: ms)

/-- From its start on the party comes to the output with the messages, or with the first of them. -/
def Succeeds (p : Party σ α) (output : α) (party : σ) (ms : List ProtocolMessage) : Prop :=
  (p.start party).1 = .ok () ∧ p.Finishes output (p.drain (p.start party).2).2 ms

variable {p : Party σ α} {output : α} {party : σ} {m : ProtocolMessage}
  {ms : List ProtocolMessage}

theorem Finishes.result (h : p.Finishes output party ms) (hcomplete : p.isComplete party = true) :
    (p.result party).1 = .ok output := by
  cases h with
  | complete _ hresult => exact hresult
  | feed hincomplete _ _ => cases hcomplete.symm.trans hincomplete

theorem Finishes.next (h : p.Finishes output party (m :: ms))
    (hincomplete : p.isComplete party = false) :
    (∀ reason, (p.feed m party).1 ≠ .error (.failure reason)) ∧
      p.Finishes output (p.drain (p.feed m party).2).2 ms := by
  cases h with
  | complete hcomplete _ => cases hcomplete.symm.trans hincomplete
  | feed _ haccepted hrest => exact ⟨haccepted, hrest⟩

theorem Finishes.ne_nil (h : p.Finishes output party ms)
    (hincomplete : p.isComplete party = false) : ms ≠ [] := by
  rintro rfl
  cases h with
  | complete hcomplete _ => cases hcomplete.symm.trans hincomplete

end Party

namespace Rounds

/-- With what the worker has and what still waits, the worker will go away with the output. -/
def Destined (p : Party σ α) (output : α) (r : Rounds σ α) (waiting : List ProtocolMessage) :
    Prop :=
  match r.worker with
  | .starting => p.Succeeds output r.party (r.inbox ++ waiting)
  | .flushing _ => p.Finishes output r.party (r.inbox ++ waiting)
  | .checking => p.Finishes output r.party (r.inbox ++ waiting)
  | .reading =>
    p.isComplete r.party = false ∧ p.Finishes output r.party (r.inbox ++ waiting)
  | .feeding m =>
    p.isComplete r.party = false ∧ p.Finishes output r.party (m :: (r.inbox ++ waiting))
  | .finished result => result = .ok output

/-- Rounds that nothing can take the output from but an end from outside. -/
structure Assured (p : Party σ α) (output : α) (r : Rounds σ α) (waiting : List ProtocolMessage) :
    Prop where
  destined : r.Destined p output waiting
  unread : r.unread = true → r.isFinished = true
  sending : ∀ other, r.watch = .sending other → r.worker = .finished (.ok other)

/-- The side that watches the worker can notice that the stream of messages has ended. -/
structure Notices (r : Rounds σ α) (b : Bridge) : Prop where
  racing : r.watch = .racing
  unread : r.unread = false
  drained : b.messages = []
  shut : b.isOpen = false

/-- How far the rounds still have to go, first of all with the messages, then with what the worker
has to queue, and then with what is queued. -/
def rank (r : Rounds σ α) (b : Bridge) : Nat × Nat × Nat :=
  (5 * b.messages.length + r.remaining, r.unqueued.length,
    r.outbox.length + (if r.sentAll then 0 else 1) +
      match r.watch with
      | .racing => 2
      | .sending _ => 1
      | .over _ => 0)

variable {p : Party σ α} {t : Transport τ} {deadline : Deadline} {move : Move} {r r' : Rounds σ α}
  {b b' : Bridge} {s s' : τ} {output : α} {waiting later : List ProtocolMessage}
  {calls : List (Call α)} {handed : List (Outbound × Except Error Unit)}
  {result : Except RoundsFault α}

theorem Destined.of_kept {waiting' : List ProtocolMessage} (h : r.Destined p output waiting)
    (hworker : r'.worker = r.worker) (hparty : r'.party = r.party)
    (hwaiting : r'.inbox ++ waiting' = r.inbox ++ waiting) : r'.Destined p output waiting' := by
  unfold Destined
  rw [hworker, hparty, hwaiting]
  exact h

theorem Destined.of_finished (h : r.Destined p output waiting)
    (hworker : r.worker = .finished result) : result = .ok output := by
  simpa only [Destined, hworker] using h

theorem Destined.work (h : r.Destined p output waiting) (hgoing : r.isOver = false)
    (hworks : r.Works p r') : r'.Destined p output waiting := by
  unfold Destined at h
  cases hworks with
  | start hworker hstart =>
    rw [hworker] at h
    obtain ⟨-, hfinishes⟩ := h
    rw [hstart] at hfinishes
    exact hfinishes
  | startFails hworker hstart =>
    rw [hworker] at h
    obtain ⟨hstarted, -⟩ := h
    rw [hstart] at hstarted
    cases hstarted
  | flushed hworker =>
    rw [hworker] at h
    exact h
  | queue hworker _ =>
    rw [hworker] at h
    exact h
  | queueClosed _ hover => cases hgoing.symm.trans hover
  | incomplete hworker hincomplete =>
    rw [hworker] at h
    exact ⟨hincomplete, h⟩
  | result hworker hcomplete hresult =>
    rw [hworker] at h
    have houtput := h.result hcomplete
    rw [hresult] at houtput
    cases houtput
    rfl
  | resultFails hworker hcomplete hresult =>
    rw [hworker] at h
    have houtput := h.result hcomplete
    rw [hresult] at houtput
    cases houtput
  | read hworker hinbox =>
    rw [hworker, hinbox] at h
    exact h
  | inboxClosed _ _ hover => cases hgoing.symm.trans hover
  | feed hworker hfeed _ =>
    rw [hworker] at h
    obtain ⟨-, hrest⟩ := h.2.next h.1
    rw [hfeed] at hrest
    exact hrest
  | feedFails hworker hfeed =>
    rw [hworker] at h
    obtain ⟨haccepted, -⟩ := h.2.next h.1
    exact absurd (congrArg Prod.fst hfeed) (haccepted _)

theorem assured_create {party : σ} (h : p.Succeeds output party waiting) :
    (create party).Assured p output waiting :=
  ⟨h, nofun, nofun⟩

theorem Assured.work (h : r.Assured p output waiting) (hgoing : r.isOver = false)
    (hworks : r.Works p r') : r'.Assured p output waiting := by
  have hbusy := hworks.not_finished
  have hunread : r'.unread = r.unread := by cases hworks <;> rfl
  refine ⟨h.destined.work hgoing hworks, ?_, ?_⟩
  · intro hr
    rw [hunread] at hr
    cases hbusy.symm.trans (h.unread hr)
  · intro other hsending
    rw [hworks.kept.1] at hsending
    cases hbusy.symm.trans (isFinished_iff.mpr ⟨_, h.sending other hsending⟩)

theorem Assured.watch (h : r.Assured p output (b.messages ++ later))
    (hwatches : r.Watches t b s r' b' s') (hgoing : r'.isOver = false) :
    r'.Assured p output (b'.messages ++ later) := by
  obtain ⟨hdestined, hunread, hsending⟩ := h
  cases hwatches with
  | @take m messages _ _ hmessages _ =>
    refine ⟨hdestined.of_kept rfl rfl ?_, hunread, hsending⟩
    rw [hmessages]
    exact List.append_assoc r.inbox [m] (messages ++ later)
  | takeUnread _ _ _ hfinished =>
    obtain ⟨result, hworker⟩ := isFinished_iff.mp hfinished
    refine ⟨?_, fun _ => hfinished, hsending⟩
    simpa only [Destined, hworker] using hdestined
  | streamEnds _ _ _ _ => cases hgoing
  | sentAll _ _ _ _ => exact ⟨hdestined, hunread, hsending⟩
  | sentRest _ _ => cases hgoing
  | send _ _ => exact ⟨hdestined, hunread, hsending⟩
  | sendFails _ _ => cases hgoing
  | @finish other _ hworker =>
    refine ⟨hdestined, hunread, ?_⟩
    intro last hlast
    dsimp only at hlast
    split at hlast <;> cases hlast
    exact hworker
  | finishFails _ _ => cases hgoing

theorem Assured.does (h : r.Assured p output (b.messages ++ later))
    (hdoes : r.Does p t deadline b s calls handed r' b' s') (hgoing : r'.isOver = false) :
    r'.Assured p output (b'.messages ++ later) := by
  cases hdoes with
  | work hworks =>
    refine h.work ?_ hworks
    unfold isOver at hgoing ⊢
    rwa [hworks.kept.1] at hgoing
  | expire _ _ => cases hgoing
  | send _ _ _ _ => exact ⟨h.destined, h.unread, h.sending⟩
  | sendFails _ _ _ _ => cases hgoing
  | watch _ _ hwatches _ => exact h.watch hwatches hgoing

/-- Assured rounds get over with the output or by the end of the stream. -/
theorem Ends.of_assured (h : r.Ends t deadline b s move result)
    (hassured : r.Assured p output waiting) (hgoing : r.isOver = false)
    (hlive : deadline.isExpired = false)
    (haccepted : ∀ y ∈ r.handed t deadline move b s, y.2 = .ok ()) :
    result = .ok output ∨
      move = .take ∧ r.Notices b ∧ result = .error (.network (.transport .channelClosed)) := by
  cases h with
  | expire _ hexpired => cases hlive.symm.trans hexpired
  | streamEnds _ hwatch hunread hmessages hshut =>
    exact Or.inr ⟨rfl, ⟨hwatch, hunread, hmessages, hshut⟩, rfl⟩
  | @sendFails m outbox e left _ houtbox hsend =>
    have hmem : (m, .error e) ∈ r.handed t deadline .send b s := by
      simp [Rounds.handed, hgoing, hlive, houtbox, hsend]
    cases haccepted _ hmem
  | sentRest _ hwatch _ =>
    exact Or.inl (hassured.destined.of_finished (hassured.sending _ hwatch))
  | finishFails _ _ hworker =>
    cases hassured.destined.of_finished hworker
  | finish _ _ hworker _ => exact Or.inl (hassured.destined.of_finished hworker)

theorem rank_lt_of_works (b : Bridge) (hworks : r.Works p r') :
    Prod.Lex (· < ·) (Prod.Lex (· < ·) (· < ·)) (r'.rank b) (r.rank b) := by
  rcases hworks.remaining_lt_or_queues with hless | ⟨-, m, produced, hworker, rfl⟩
  · exact .left _ _ (Nat.add_lt_add_left hless _)
  · have hremaining : ({ r with
        worker := .flushing produced, outbox := r.outbox ++ [m] } : Rounds σ α).remaining =
          r.remaining := by
      simp only [remaining, hworker]
    simp only [rank, hremaining, unqueued, hworker, List.length_cons]
    exact .right _ (.left _ _ (Nat.lt_succ_self _))

/-- Every step of rounds that are not over gets them nearer to their end. -/
theorem Does.rank_lt (h : r.Does p t deadline b s calls handed r' b' s')
    (hgoing : r'.isOver = false) :
    Prod.Lex (· < ·) (Prod.Lex (· < ·) (· < ·)) (r'.rank b') (r.rank b) := by
  cases h with
  | work hworks => exact rank_lt_of_works b hworks
  | expire _ _ => cases hgoing
  | send _ _ houtbox _ =>
    simp only [rank, remaining, unqueued, houtbox, List.length_cons]
    exact .right _ (.right _ (by omega))
  | sendFails _ _ _ _ => cases hgoing
  | watch _ _ hwatches hkept =>
    cases hwatches with
    | take _ _ hmessages _ =>
      simp only [rank, remaining, hmessages, List.length_append, List.length_cons]
      exact .left _ _ (by simp only [List.length_nil]; omega)
    | takeUnread _ _ hmessages _ =>
      simp only [rank, remaining, hmessages, List.length_cons]
      exact .left _ _ (by omega)
    | streamEnds _ _ _ _ => cases hgoing
    | sentAll hwatch _ _ hsentAll =>
      simp only [rank, remaining, unqueued, hwatch, hsentAll]
      exact .right _ (.right _ (by simp))
    | sentRest _ _ => cases hgoing
    | send houtbox _ => simp [houtbox] at hkept
    | sendFails _ _ => cases hgoing
    | finish hwatch _ =>
      simp only [rank, remaining, unqueued, hwatch]
      refine .right _ (.right _ ?_)
      split <;> simp
    | finishFails _ _ => cases hgoing

theorem Assured.racing (h : r.Assured p output waiting) (hgoing : r.isOver = false)
    (hbusy : r.isFinished = false) : r.watch = .racing := by
  match hwatch : r.watch with
  | .racing => rfl
  | .sending other => cases hbusy.symm.trans (isFinished_iff.mpr ⟨_, h.sending other hwatch⟩)
  | .over result => exact absurd hwatch (watch_ne_over hgoing result)

theorem Assured.unread_of_busy (h : r.Assured p output waiting) (hbusy : r.isFinished = false) :
    r.unread = false := by
  cases hunread : r.unread with
  | false => rfl
  | true => cases hbusy.symm.trans (h.unread hunread)

/-- A worker that waits for a message does not wait in vain. -/
theorem Destined.ne_nil (h : r.Destined p output waiting) (hworker : r.worker = .reading)
    (hinbox : r.inbox = []) : waiting ≠ [] := by
  simp only [Destined, hworker, hinbox, List.nil_append] at h
  exact h.2.ne_nil h.1

theorem send_isSome {other : α} (hwatch : r.watch = .sending other) (t : Transport τ) (s : τ) :
    (r.send b t s).isSome := by
  cases houtbox : r.outbox with
  | nil => simp only [send, hwatch, houtbox, Option.isSome_some]
  | cons m outbox =>
    have hgoing : r.isOver = false := by simp only [isOver, hwatch]
    rw [send_of_cons hgoing houtbox]
    split <;> rfl

/-- There is always something else to do than to notice the end of the stream. -/
theorem Assured.exists_step (h : r.Assured p output b.messages) (hgoing : r.isOver = false)
    (hlive : deadline.isExpired = false) :
    ∃ move, (move = .take → ¬ r.Notices b) ∧
      ∀ (t : Transport τ) (s : τ), (r.step p t deadline move b s).isSome := by
  cases hfinished : r.isFinished with
  | true =>
    obtain ⟨result, hworker⟩ := isFinished_iff.mp hfinished
    obtain rfl := h.destined.of_finished hworker
    rcases hwatch : r.watch with _ | other | result
    · refine ⟨.finish, ?_, fun t s => ?_⟩
      · intro htake
        cases htake
      · simp [step, hgoing, hlive, finish, hwatch, hworker]
    · refine ⟨.send, ?_, fun t s => ?_⟩
      · intro htake
        cases htake
      · simpa [step, hgoing, hlive] using send_isSome hwatch t s
    · exact absurd hwatch (watch_ne_over hgoing result)
  | false =>
    by_cases hwaits : r.worker = .reading ∧ r.inbox = []
    · obtain ⟨m, messages, hmessages⟩ :=
        List.exists_cons_of_ne_nil (h.destined.ne_nil hwaits.1 hwaits.2)
      have hunread := h.unread_of_busy hfinished
      refine ⟨.take, ?_, fun t s => ?_⟩
      · intro _ hnotices
        cases hmessages.symm.trans hnotices.drained
      · simp [step, hgoing, hlive, take, h.racing hgoing hfinished, hunread, hmessages, hfinished]
    · have hwork : (r.work p).isSome :=
        work_isSome p hfinished fun hworker hinbox => absurd ⟨hworker, hinbox⟩ hwaits
      refine ⟨.work, ?_, fun t s => ?_⟩
      · intro htake
        cases htake
      · simpa [step] using hwork

end Rounds

namespace Execution

/-- Where an execution notices that the stream of messages has ended. -/
inductive Notices (x : Execution σ α) : Move → Prop
  | take {b : Bridge} {r : Rounds σ α} (hphase : x.phase = .rounds b r) (hnotices : r.Notices b) :
      x.Notices (.rounds .take)

/-- Whatever is done next, and next after that: as long as every send is accepted and nobody
notices the end of the stream, the execution goes on, and ends with the output. -/
inductive Comes (p : Party σ α) (t : Transport τ) (output : α) : Execution σ α → Prop
  | ended {x : Execution σ α} (hresult : x.result? = some (.ok output)) : x.Comes p t output
  | later {x : Execution σ α}
      (hmove : ∃ move, ¬ x.Notices move ∧ ∀ now s, (x.step p t now move s).isSome)
      (hnext : ∀ now s move events after s', x.step p t now move s = some (events, after, s') →
        ¬ x.Notices move → (∀ y ∈ x.handed t move s, y.2 = .ok ()) → after.Comes p t output) :
      x.Comes p t output

variable {p : Party σ α} {t : Transport τ} {x x' : Execution σ α} {now : Nat} {move : Move}
  {roundsMove : Rounds.Move} {s s' : τ} {events : List Event} {output : α} {b : Bridge}
  {r : Rounds σ α} {result : Except Error α}

theorem exists_phase_of_going (hrounds : x.rounds?.isSome) (hgoing : x.result? = none) :
    ∃ b r, x.phase = .rounds b r := by
  unfold rounds? at hrounds
  split at hrounds
  next => cases hrounds
  next b r hphase => exact ⟨b, r, hphase⟩
  next hphase => simp [result?, hphase] at hgoing

theorem handed_of_rounds (hphase : x.phase = .rounds b r) :
    x.handed t (.rounds roundsMove) s = r.handed t x.deadline roundsMove b s := by
  simp only [handed, hphase]

/-- An assured execution that gets over has the output, unless it has noticed the end of the
stream. -/
theorem result_of_assured (hphase : x.phase = .rounds b r) (hgoing : r.isOver = false)
    (hlive : x.deadline.isExpired = false) {waiting : List ProtocolMessage}
    (hassured : r.Assured p output waiting)
    (hstep : x.step p t now (.rounds roundsMove) s = some (events, x', s'))
    (haccepted : ∀ y ∈ x.handed t (.rounds roundsMove) s, y.2 = .ok ())
    (hresult : x'.result? = some result) :
    result = .ok output ∨
      x.Notices (.rounds roundsMove) ∧ result = .error (.transport .channelClosed) := by
  rw [handed_of_rounds hphase] at haccepted
  cases plays_of_round hstep with
  | goOn _ _ _ => cases hresult
  | ends hphase' hround hwatch =>
    cases hphase.symm.trans hphase'
    cases hresult
    have hends := Rounds.ends_of_step hgoing hround hwatch
    rcases hends.of_assured hassured hgoing hlive haccepted with rfl | ⟨rfl, hnotices, rfl⟩
    · exact Or.inl rfl
    · exact Or.inr ⟨.take hphase hnotices, rfl⟩
  | afterEnd hphase' _ _ => cases hphase.symm.trans hphase'

theorem exists_step_of_notices (hphase : x.phase = .rounds b r) (hgoing : r.isOver = false)
    (hlive : x.deadline.isExpired = false) (h : x.Notices move) (p : Party σ α) (t : Transport τ)
    (now : Nat) (s : τ) :
    ∃ events x' s', x.step p t now move s = some (events, x', s') ∧
      x'.result? = some (.error (.transport .channelClosed)) := by
  cases h with
  | take hphase' hnotices =>
    cases hphase.symm.trans hphase'
    exact exists_step_of_ends p now hphase hgoing
      (.streamEnds hlive hnotices.racing hnotices.unread hnotices.drained hnotices.shut)

/-- What an assured execution ends with is decided by whether it notices the end of the stream. -/
theorem ends_of_assured (hphase : x.phase = .rounds b r) (hgoing : r.isOver = false)
    (hlive : x.deadline.isExpired = false) {waiting : List ProtocolMessage}
    (hassured : r.Assured p output waiting)
    (hstep : x.step p t now move s = some (events, x', s'))
    (haccepted : ∀ y ∈ x.handed t move s, y.2 = .ok ()) (hresult : x'.result? = some result) :
    x.Notices move ∧ result = .error (.transport .channelClosed) ∨
      ¬ x.Notices move ∧ result = .ok output := by
  by_cases hnotices : x.Notices move
  · obtain ⟨_, _, _, hstep', hclosed⟩ :=
      exists_step_of_notices hphase hgoing hlive hnotices p t now s
    cases hstep.symm.trans hstep'
    exact Or.inl ⟨hnotices, Option.some.inj (hresult.symm.trans hclosed)⟩
  · refine Or.inr ⟨hnotices, ?_⟩
    cases move with
    | dispatch =>
      rw [result?_of_dispatch hstep] at hresult
      simp [result?, hphase] at hresult
    | join => simp [step, join, hphase] at hstep
    | rounds move =>
      exact (result_of_assured hphase hgoing hlive hassured hstep haccepted hresult).resolve_right
        fun hnoticed => hnotices hnoticed.1

theorem isSome_step_of_rounds (hphase : x.phase = .rounds b r)
    (h : (r.step p t x.deadline roundsMove b s).isSome) :
    (x.step p t now (.rounds roundsMove) s).isSome := by
  simpa only [step, round, hphase, Option.isSome_map] using h

/-- From a bridge that is closed nothing more comes in, and the worker needs nothing more. -/
theorem comes_of_assured {x : Execution σ α} (b : Bridge) (r : Rounds σ α)
    (hphase : x.phase = .rounds b r) (hshut : b.isOpen = false) (hgoing : r.isOver = false)
    (hlive : x.deadline.isExpired = false) (hassured : r.Assured p output b.messages) :
    x.Comes p t output := by
  refine .later ?_ ?_
  · obtain ⟨move, hother, hsome⟩ := hassured.exists_step hgoing hlive
    refine ⟨.rounds move, ?_, fun now s => isSome_step_of_rounds hphase (hsome t s)⟩
    rintro ⟨hphase', hnotices⟩
    cases hphase.symm.trans hphase'
    exact hother rfl hnotices
  · intro now s move events after s' hstep hother haccepted
    cases move with
    | dispatch => simp [step, dispatch, hphase, Bridge.step, hshut] at hstep
    | join => simp [step, join, hphase] at hstep
    | rounds move =>
      cases plays_of_round hstep with
      | @goOn _ b' _ r' _ hphase' hround hgoing' =>
        cases hphase.symm.trans hphase'
        have hdoes := Rounds.does_of_step hround
        have hless := hdoes.rank_lt hgoing'
        have hspent := (Rounds.steps_of_step hround).spent
        have hassured' : r'.Assured p output b'.messages := by
          rw [← List.append_nil b.messages] at hassured
          rw [← List.append_nil b'.messages]
          exact hassured.does hdoes hgoing'
        -- The step is one nearer to the end in the order of `rank`, on which the recursion is.
        exact comes_of_assured b' r' rfl (hspent.isOpen.trans hshut) hgoing' hlive hassured'
      | ends hphase' hround hwatch =>
        rcases result_of_assured hphase hgoing hlive hassured hstep haccepted rfl with
          hresult | ⟨hnotices, -⟩
        · exact .ended (congrArg some hresult)
        · exact absurd hnotices hother
      | afterEnd hphase' _ _ => cases hphase.symm.trans hphase'
termination_by r.rank b
decreasing_by exact hless

end Execution

namespace Chronicle

/-- What can have become of a party that succeeds with what came in and what is still to come. -/
inductive Fated (p : Party σ α) (output : α) (later : List ProtocolMessage) (c : Chronicle σ α) :
    Prop
  | unstarted (hrounds : c.execution.rounds? = none)
  | rounds {b : Bridge} {r : Rounds σ α} (hphase : c.execution.phase = .rounds b r)
      (hassured : r.Assured p output (b.messages ++ later))
  | ended {result : Except Error α} {rest : Option (Rounds σ α)}
      (hphase : c.execution.phase = .ended result rest)
      (hresult : result = .ok output ∨ result = .error (.transport .channelClosed))

variable {p : Party σ α} {t : Transport τ} {plan : Plan}
  {makeParty : Group → Except PartyError σ} {x after : Execution σ α} {c d : Chronicle σ α}
  {now elapsed : Nat} {s s' left : τ} {events : List Event} {party : σ} {output : α}
  {later : List ProtocolMessage}

theorem Fated.assured {b : Bridge} {r : Rounds σ α} (h : c.Fated p output later)
    (hphase : c.execution.phase = .rounds b r) : r.Assured p output (b.messages ++ later) := by
  cases h with
  | unstarted hrounds => cases hrounds.symm.trans (Execution.rounds?_of_rounds hphase)
  | rounds hphase' hassured =>
    cases hphase.symm.trans hphase'
    exact hassured
  | ended hphase' _ => cases hphase.symm.trans hphase'

theorem Fated.result {result : Except Error α} (h : c.Fated p output later)
    (hrounds : c.execution.rounds?.isSome) (hresult : c.execution.result? = some result) :
    result = .ok output ∨ result = .error (.transport .channelClosed) := by
  obtain ⟨rest, hphase⟩ := Execution.exists_phase_of_result? hresult
  cases h with
  | unstarted hnone =>
    rw [hnone] at hrounds
    cases hrounds
  | rounds hphase' _ => cases hphase.symm.trans hphase'
  | ended hphase' hends =>
    cases hphase.symm.trans hphase'
    exact hends

theorem Told.isOver_eq_false {made : Except PartyError σ} {b : Bridge} {r : Rounds σ α}
    (h : c.Told p made) (hphase : c.execution.phase = .rounds b r) : r.isOver = false := by
  obtain ⟨_, -, -, hgoing, -⟩ := h.of_rounds hphase
  exact hgoing

theorem Fated.dispatch (hstep : c.execution.dispatch t s = some (events, after, s'))
    (h : c.Fated p output (c.execution.arriving t .dispatch s ++ later)) :
    (c.add p t now .dispatch s after).Fated p output later := by
  rw [Execution.dispatch_eq] at hstep
  obtain ⟨b, hbridge, hmap⟩ := Option.bind_eq_some_iff.mp hstep
  obtain ⟨⟨event, b', _⟩, hb, he⟩ := Option.map_eq_some_iff.mp hmap
  cases he
  cases h with
  | unstarted hrounds =>
    exact .unstarted ((Execution.rounds?_setBridge c.execution b').trans hrounds)
  | @rounds _ r hphase hassured =>
    cases hbridge.symm.trans (Execution.bridge?_of_rounds hphase)
    have hphase' : (c.execution.setBridge b').phase = .rounds b' r := by
      simp only [Execution.setBridge, hphase]
    refine .rounds hphase' ?_
    rw [Bridge.messages_of_step hb, List.append_assoc]
    simpa only [Execution.arriving, hbridge] using hassured
  | ended hphase _ => simp [Execution.bridge?, hphase] at hbridge

theorem Fated.join (htold : c.Told p (.ok party))
    (hstep : c.execution.join t now s = some (events, after, s'))
    (hsucceeds : p.Succeeds output party (c.stream ++ later)) :
    (c.add p t now .join s after).Fated p output later := by
  cases Execution.joins_of_join hstep with
  | wait _ _ _ _ => exact .unstarted rfl
  | @pass bridge bridge' _ _ _ _ hphase _ hsteps _ =>
    obtain ⟨hmade, -, -, -, hstream⟩ := htold.of_joining hphase
    cases hmade
    refine .rounds rfl ?_
    rw [hsteps.messages_eq, ← hstream]
    exact Rounds.assured_create hsucceeds
  | fail _ _ _ _ => exact .unstarted rfl

theorem Fated.round {move : Rounds.Move} (htold : c.Told p (.ok party))
    (hlive : c.execution.deadline.isExpired = false)
    (hstep : c.execution.round p t now move s = some (events, after, s'))
    (haccepted : ∀ y ∈ c.execution.handed t (.rounds move) s, y.2 = .ok ())
    (h : c.Fated p output later) : (c.add p t now (.rounds move) s after).Fated p output later := by
  cases Execution.plays_of_round hstep with
  | goOn hphase hround hgoing =>
    exact .rounds rfl ((h.assured hphase).does (Rounds.does_of_step hround) hgoing)
  | ends hphase _ _ =>
    refine .ended rfl ?_
    exact (Execution.result_of_assured hphase (htold.isOver_eq_false hphase) hlive
      (h.assured hphase) hstep haccepted rfl).imp_right And.right
  | afterEnd hphase _ _ =>
    cases h with
    | unstarted hrounds => cases hrounds.symm.trans (Execution.rounds?_of_ended hphase)
    | rounds hphase' _ => cases hphase.symm.trans hphase'
    | ended hphase' hresult =>
      cases hphase.symm.trans hphase'
      exact .ended rfl hresult

theorem isExpired_tick {deadline : Deadline} (h : (deadline.tick now).isExpired = false) :
    deadline.isExpired = false := by
  simp only [Deadline.isExpired, Deadline.tick_eq, Bool.or_eq_false_iff] at h
  exact h.1

theorem fated_of_becomes
    (hbegin : Execution.begin? plan t makeParty now elapsed s = some (events, x, left))
    (hmade : makeParty plan.group = .ok party) (h : (begun x).Becomes p t c)
    (hlive : c.execution.deadline.isExpired = false) (hsent : ∀ y ∈ c.handed, y.2 = .ok ())
    (hsucceeds : p.Succeeds output party (c.stream ++ later)) : c.Fated p output later := by
  -- Seen from an earlier moment, what came in since then is the beginning of what is still to come.
  induction h generalizing later with
  | refl =>
    refine .unstarted ?_
    cases Execution.begins_of_begin? hbegin with
    | failed _ hphase => exact Execution.rounds?_of_ended hphase
    | refused _ hphase _ => exact Execution.rounds?_of_ended hphase
    | bound _ _ _ hphase => exact Execution.rounds?_of_joining hphase
  | tick _ now ih =>
    cases ih (isExpired_tick hlive) hsent hsucceeds with
    | unstarted hrounds => exact .unstarted hrounds
    | rounds hphase hassured => exact .rounds hphase hassured
    | ended hphase hresult => exact .ended hphase hresult
  | @step d now move s s' events after hd hstep ih =>
    have htold := (told_begun (p := p) hbegin).becomes hd
    rw [hmade] at htold
    have hlive' : d.execution.deadline.isExpired = false := by
      rw [← (Execution.steps_of_step hstep).deadline_eq]
      exact hlive
    have hsent' : ∀ y ∈ d.handed, y.2 = .ok () := fun y hy =>
      hsent y (List.mem_append_left _ hy)
    have haccepted : ∀ y ∈ d.execution.handed t move s, y.2 = .ok () := fun y hy =>
      hsent y (List.mem_append_right _ hy)
    cases move with
    | dispatch =>
      have hsucceeds' : p.Succeeds output party
          (d.stream ++ (d.execution.arriving t .dispatch s ++ later)) := by
        rw [← List.append_assoc]
        exact hsucceeds
      exact .dispatch hstep (ih hlive' hsent' hsucceeds')
    | join =>
      have hstream : (d.add p t now .join s after).stream = d.stream := List.append_nil _
      rw [hstream] at hsucceeds
      exact .join htold hstep hsucceeds
    | rounds move =>
      have hstream : (d.add p t now (.rounds move) s after).stream = d.stream := List.append_nil _
      rw [hstream] at hsucceeds
      exact (ih hlive' hsent' hsucceeds).round htold hlive' hstep haccepted

/-- While the worker is busy the other side can take all that waits, and then notice the end. -/
theorem exists_loss {c : Chronicle σ α} {b : Bridge} {r : Rounds σ α} (h : d.Becomes p t c) (s : τ)
    (hphase : c.execution.phase = .rounds b r) (hshut : b.isOpen = false)
    (hlive : c.execution.deadline.isExpired = false) (hracing : r.watch = .racing)
    (hunread : r.unread = false) (hbusy : r.isFinished = false) :
    ∃ lost, d.Becomes p t lost ∧
      lost.execution.result? = some (.error (.transport .channelClosed)) := by
  have hgoing {r : Rounds σ α} (hr : r.watch = .racing) : r.isOver = false := by
    simp only [Rounds.isOver, hr]
  cases hmessages : b.messages with
  | nil =>
    obtain ⟨events, after, s', hstep, hresult⟩ := Execution.exists_step_of_notices hphase
      (hgoing hracing) hlive (.take hphase ⟨hracing, hunread, hmessages, hshut⟩) p t 0 s
    exact ⟨_, h.step hstep, hresult⟩
  | cons m messages =>
    have hstep : c.execution.step p t 0 (.rounds .take) s =
        some ([], { c.execution with
          phase := .rounds { b with messages := messages } { r with inbox := r.inbox ++ [m] } },
          s) := by
      simp [Execution.step, Execution.round, hphase, Rounds.step, hgoing hracing, hlive,
        Rounds.take, hracing, hunread, hmessages, hbusy]
    exact exists_loss (h.step hstep) s rfl hshut hlive hracing hunread hbusy
termination_by b.messages.length
decreasing_by simp [hmessages]

/-- The end of the stream can take the output from a party that has everything it needs. Suppose
that what came in is enough, that every send was accepted, and that there is time left. Then the
rounds end with the output, unless the end of the stream is noticed first, and then always without
it. From a closed bridge every order of steps without that leads to the output, and as long as the
worker is busy there is an order with it. -/
theorem closing_feed
    (hbegin : Execution.begin? plan t makeParty now elapsed s = some (events, x, left))
    (hmade : makeParty plan.group = .ok party) (h : (begun x).Becomes p t c)
    (hrounds : c.execution.rounds?.isSome) (hlive : c.execution.deadline.isExpired = false)
    (hsent : ∀ y ∈ c.handed, y.2 = .ok ()) (hsucceeds : p.Succeeds output party c.stream) :
    (∀ result, c.execution.result? = some result →
        result = .ok output ∨ result = .error (.transport .channelClosed)) ∧
      (∀ moment move s events after s' result, c.execution.result? = none →
        c.execution.step p t moment move s = some (events, after, s') →
        (∀ y ∈ c.execution.handed t move s, y.2 = .ok ()) → after.result? = some result →
          c.execution.Notices move ∧ result = .error (.transport .channelClosed) ∨
            ¬ c.execution.Notices move ∧ result = .ok output) ∧
      (∀ move, c.execution.Notices move → ∀ moment s,
        (c.execution.step p t moment move s).isSome) ∧
      ∀ b, c.execution.bridge? = some b → b.isOpen = false →
        c.execution.Comes p t output ∧
          (∀ r, c.execution.rounds? = some r → r.isFinished = false →
            ∃ d, c.Becomes p t d ∧
              d.execution.result? = some (.error (.transport .channelClosed))) := by
  have htold := (told_begun (p := p) hbegin).becomes h
  have hgoing (b : Bridge) (r : Rounds σ α) (hphase : c.execution.phase = .rounds b r) :
      r.isOver = false := htold.isOver_eq_false hphase
  rw [← List.append_nil c.stream] at hsucceeds
  have hfated := fated_of_becomes hbegin hmade h hlive hsent hsucceeds
  refine ⟨fun result hresult => hfated.result hrounds hresult, ?_, ?_, ?_⟩
  · intro moment move s events after s' result hnone hstep haccepted hresult
    obtain ⟨b, r, hphase⟩ := Execution.exists_phase_of_going hrounds hnone
    exact Execution.ends_of_assured hphase (hgoing b r hphase) hlive (hfated.assured hphase) hstep
      haccepted hresult
  · rintro _ ⟨hphase, hnotices⟩ moment s
    obtain ⟨_, _, _, hstep, -⟩ := Execution.exists_step_of_notices hphase (hgoing _ _ hphase) hlive
      (.take hphase hnotices) p t moment s
    rw [hstep]
    rfl
  · intro b hbridge hshut
    obtain ⟨b', r, hphase⟩ :=
      Execution.exists_phase_of_going hrounds (Execution.result?_of_bridge? hbridge)
    cases hbridge.symm.trans (Execution.bridge?_of_rounds hphase)
    have hassured := hfated.assured hphase
    rw [List.append_nil] at hassured
    refine ⟨Execution.comes_of_assured b r hphase hshut (hgoing b r hphase) hlive hassured, ?_⟩
    intro r' hr hbusy
    cases (Execution.rounds?_of_rounds hphase).symm.trans hr
    exact exists_loss .refl s hphase hshut hlive (hassured.racing (hgoing b r hphase) hbusy)
      (hassured.unread_of_busy hbusy) hbusy

/-- The mail, after which nothing more can come in. -/
def lastMail : Link := { mailbox with feedOpen := false }

/-- Everything that comes in has come in when the rounds begin, and is taken to the worker. -/
def arrival : List Execution.Move :=
  [.dispatch, .dispatch, .dispatch, .dispatch, .dispatch, .join, .join, .join, .join, .join,
    .rounds .take, .rounds .take]

def closing (moves : List Execution.Move) : Option (Chronicle Nat Unit) :=
  (Execution.begin? signingPlan (Link.transport Screening.b) (fun _ => .ok 0) 0 0 lastMail).bind
    fun (_, x, l) => run? picky (Link.transport Screening.b) 0 moves (begun x) l

/-- Some rounds were begun in time, and nothing was sent by them. -/
def isTimely (c : Chronicle Nat Unit) : Bool :=
  c.execution.rounds?.isSome && !c.execution.deadline.isExpired && c.handed.isEmpty

theorem view_closing :
    (closing arrival).map (fun c => (c.stream, c.isTimely, c.execution.bridge?.map Bridge.isOpen)) =
        some ([Screening.said Screening.a [3], Screening.said Screening.c [5]], true, some false) ∧
      (closing (arrival ++ [.rounds .take])).map
          (fun c => (c.stream, c.isTimely, error? c.execution)) =
        some ([Screening.said Screening.a [3], Screening.said Screening.c [5]], true,
          some (.transport .channelClosed)) := by
  decide +kernel

theorem succeeds_picky (m m' : ProtocolMessage) : picky.Succeeds () 0 [m, m'] :=
  ⟨rfl, .feed rfl nofun (.feed rfl nofun (.complete rfl rfl))⟩

theorem of_isTimely {c : Chronicle Nat Unit} (h : c.isTimely = true) :
    c.execution.rounds?.isSome ∧ c.execution.deadline.isExpired = false ∧
      ∀ y ∈ c.handed, y.2 = .ok () := by
  simp only [isTimely, Bool.and_eq_true, Bool.not_eq_true', List.isEmpty_iff] at h
  obtain ⟨⟨hrounds, hlive⟩, hnothing⟩ := h
  refine ⟨hrounds, hlive, ?_⟩
  intro y hy
  rw [hnothing] at hy
  cases hy

theorem closing_feed_after_mail :
    ∃ events x left c,
      Execution.begin? signingPlan (Link.transport Screening.b) (fun _ => .ok 0) 0 0 lastMail =
          some (events, x, left) ∧
        (begun x).Becomes picky (Link.transport Screening.b) c ∧
        picky.Succeeds () 0 c.stream ∧
        c.execution.Comes picky (Link.transport Screening.b) () := by
  obtain ⟨c, hclosing, hview⟩ := Option.map_eq_some_iff.mp view_closing.1
  obtain ⟨⟨events, x, left⟩, hbegin, hrun⟩ := Option.bind_eq_some_iff.mp hclosing
  simp only [Prod.mk.injEq] at hview
  obtain ⟨hstream, htimely, hopen⟩ := hview
  obtain ⟨hrounds, hlive, hsent⟩ := of_isTimely htimely
  obtain ⟨b, hbridge, hshut⟩ := Option.map_eq_some_iff.mp hopen
  have hbecomes := Becomes.refl.run? hrun
  have hsucceeds : picky.Succeeds () 0 c.stream := by
    rw [hstream]
    exact succeeds_picky _ _
  exact ⟨events, x, left, c, hbegin, hbecomes, hsucceeds,
    ((closing_feed hbegin rfl hbecomes hrounds hlive hsent hsucceeds).2.2.2 b hbridge hshut).1⟩

theorem output_lost :
    ∃ events x left c,
      Execution.begin? signingPlan (Link.transport Screening.b) (fun _ => .ok 0) 0 0 lastMail =
          some (events, x, left) ∧
        (begun x).Becomes picky (Link.transport Screening.b) c ∧
        c.execution.deadline.isExpired = false ∧ (∀ y ∈ c.handed, y.2 = .ok ()) ∧
        picky.Succeeds () 0 c.stream ∧
        c.execution.result? = some (.error (.transport .channelClosed)) := by
  obtain ⟨c, hclosing, hview⟩ := Option.map_eq_some_iff.mp view_closing.2
  obtain ⟨⟨events, x, left⟩, hbegin, hrun⟩ := Option.bind_eq_some_iff.mp hclosing
  simp only [Prod.mk.injEq] at hview
  obtain ⟨hstream, htimely, herror⟩ := hview
  obtain ⟨-, hlive, hsent⟩ := of_isTimely htimely
  have hsucceeds : picky.Succeeds () 0 c.stream := by
    rw [hstream]
    exact succeeds_picky _ _
  exact ⟨events, x, left, c, hbegin, Becomes.refl.run? hrun, hlive, hsent, hsucceeds,
    result?_of_error? herror⟩

end Chronicle

end ThresholdSigning
