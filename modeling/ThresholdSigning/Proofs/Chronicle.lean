import ThresholdSigning.Proofs.Drive
import ThresholdSigning.Proofs.Effect

namespace ThresholdSigning

variable {σ α τ : Type}

namespace Bridge

variable {t : Transport τ} {b b' : Bridge} {s s' : τ} {event : Option Event}

/-- What the next step adds to the stream of protocol messages. -/
def arriving (b : Bridge) (t : Transport τ) (s : τ) : List ProtocolMessage :=
  if b.isOpen then
    match (t.receive b.subscription s).1 with
    | .envelope inbound => (b.fresh? inbound).toList
    | _ => []
  else []

theorem messages_of_step (h : b.step t s = some (event, b', s')) :
    b'.messages = b.messages ++ b.arriving t s := by
  unfold arriving
  cases steps_of_step h with
  | @take inbound left _ _ _ hopen hreceive hdispatch =>
    obtain ⟨signals, he⟩ := dispatch_bridge_eq b t inbound left
    rw [hdispatch] at he
    dsimp only at he
    rw [if_pos hopen, hreceive, he]
  | shut hopen hreceive => rw [if_pos hopen, hreceive, List.append_nil]

end Bridge

namespace Rounds

variable {p : Party σ α} {t : Transport τ} {deadline : Deadline} {r r' : Rounds σ α}
  {b b' : Bridge} {s s' : τ} {calls more : List (Call α)}
  {now : List (Outbound × Except Error Unit)} {stream waiting : List ProtocolMessage}

/-- Of a stream, a first part was fed to the party, the next is in the worker's hands, and the last
still waits at the bridge. Only a worker that has gone can let something get lost between. -/
def Heard (r : Rounds σ α) (calls : List (Call α)) (stream waiting : List ProtocolMessage) : Prop :=
  ∃ lost, stream = calls.filterMap Call.fed? ++ r.pending ++ lost ++ waiting ∧
    (r.isFinished = false → lost = [])

theorem Heard.work (h : r.Heard calls stream waiting) (hworks : r.Works p r') :
    r'.Heard (calls ++ r.workCalls p) stream waiting := by
  obtain ⟨lost, hstream, hnone⟩ := h
  obtain rfl := hnone hworks.not_finished
  refine ⟨[], ?_, fun _ => rfl⟩
  rw [hstream, ← hworks.fed, List.filterMap_append]
  simp only [List.append_assoc]

theorem pending_of_take {m : ProtocolMessage} :
    ({ r with inbox := r.inbox ++ [m] } : Rounds σ α).pending = r.pending ++ [m] := by
  simp only [pending]
  split <;> rfl

theorem Heard.watch (h : r.Heard calls stream b.messages) (hwatches : r.Watches t b s r' b' s') :
    r'.Heard calls stream b'.messages := by
  obtain ⟨lost, hstream, hnone⟩ := h
  cases hwatches with
  | take _ _ hmessages hgoing =>
    obtain rfl := hnone hgoing
    refine ⟨[], ?_, fun _ => rfl⟩
    rw [hstream, hmessages, pending_of_take]
    simp only [List.append_assoc, List.nil_append, List.cons_append]
  | @takeUnread m messages _ _ hmessages hfinished =>
    refine ⟨lost ++ [m], ?_, fun hgoing => ?_⟩
    · rw [hstream, hmessages, List.append_cons, List.append_assoc _ lost [m]]
      rfl
    · cases hfinished.symm.trans hgoing
  | streamEnds _ _ _ _ => exact ⟨lost, hstream, hnone⟩
  | sentAll _ _ _ _ => exact ⟨lost, hstream, hnone⟩
  | sentRest _ _ => exact ⟨lost, hstream, hnone⟩
  | send _ _ => exact ⟨lost, hstream, hnone⟩
  | sendFails _ _ => exact ⟨lost, hstream, hnone⟩
  | finish _ _ => exact ⟨lost, hstream, hnone⟩
  | finishFails _ _ => exact ⟨lost, hstream, hnone⟩

theorem Heard.does (h : r.Heard calls stream b.messages)
    (hdoes : r.Does p t deadline b s more now r' b' s') :
    r'.Heard (calls ++ more) stream b'.messages := by
  cases hdoes with
  | work hworks => exact h.work hworks
  | expire _ _ =>
    rw [List.append_nil]
    exact h
  | send _ _ _ _ =>
    rw [List.append_nil]
    exact h
  | sendFails _ _ _ _ =>
    rw [List.append_nil]
    exact h
  | watch _ _ hwatches _ =>
    rw [List.append_nil]
    exact h.watch hwatches

theorem Heard.extend (h : r.Heard calls stream waiting) (more : List ProtocolMessage) :
    r.Heard calls (stream ++ more) (waiting ++ more) := by
  obtain ⟨lost, hstream, hnone⟩ := h
  exact ⟨lost, by rw [hstream]; simp only [List.append_assoc], hnone⟩

theorem Heard.isPrefix (h : r.Heard calls stream waiting) :
    calls.filterMap Call.fed? <+: stream := by
  obtain ⟨lost, hstream, -⟩ := h
  rw [hstream, List.append_assoc, List.append_assoc]
  exact List.prefix_append _ _

/-- Everything that is known of rounds that began with a party. -/
structure Told (p : Party σ α) (party : σ) (r : Rounds σ α) (calls : List (Call α))
    (handed : List (Outbound × Except Error Unit)) (stream waiting : List ProtocolMessage) :
    Prop where
  converses : p.Converses party calls r.party
  accounted : r.Accounted calls handed
  heard : r.Heard calls stream waiting

variable {party : σ} {handed : List (Outbound × Except Error Unit)}

theorem told_create (p : Party σ α) (party : σ) (waiting : List ProtocolMessage) :
    (create party : Rounds σ α).Told p party [] [] waiting waiting where
  converses := .nil party
  accounted := accounted_create party
  heard := ⟨[], rfl, fun _ => rfl⟩

theorem Told.does (h : r.Told p party calls handed stream b.messages)
    (hdoes : r.Does p t deadline b s more now r' b' s') :
    r'.Told p party (calls ++ more) (handed ++ now) stream b'.messages :=
  ⟨h.converses.append hdoes.converses, h.accounted.does hdoes, h.heard.does hdoes⟩

theorem Told.work (h : r.Told p party calls handed stream waiting) (hworks : r.Works p r') :
    r'.Told p party (calls ++ r.workCalls p) handed stream waiting :=
  ⟨h.converses.append hworks.converses, h.accounted.work hworks, h.heard.work hworks⟩

end Rounds

namespace Execution

variable {p : Party σ α} {t : Transport τ} {x x' : Execution σ α} {now : Nat} {move : Move}
  {roundsMove : Rounds.Move} {s s' : τ} {events : List Event}

/-- The states that the barrier gets into by a move. -/
def barrierStates (t : Transport τ) (now : Nat) (move : Move) (s : τ) (x : Execution σ α) :
    List BarrierState :=
  match x.phase, move with
  | .joining bridge barrier _, .join =>
    ((barrier.step bridge t x.deadline now s).map (·.1.state)).toList
  | _, _ => []

/-- What a move adds to the stream of protocol messages. -/
def arriving (t : Transport τ) (move : Move) (s : τ) (x : Execution σ α) : List ProtocolMessage :=
  match move, x.bridge? with
  | .dispatch, some bridge => bridge.arriving t s
  | _, _ => []

def calls (p : Party σ α) (move : Move) (x : Execution σ α) : List (Call α) :=
  match move, x.rounds? with
  | .rounds move, some rounds => rounds.calls p move
  | _, _ => []

/-- What a move hands to the bridge to be sent for the party. -/
def handed (t : Transport τ) (move : Move) (s : τ) (x : Execution σ α) :
    List (Outbound × Except Error Unit) :=
  match move, x.phase with
  | .rounds move, .rounds bridge rounds => rounds.handed t x.deadline move bridge s
  | _, _ => []

/-- What the worker still has to feed. -/
def pending (x : Execution σ α) : List ProtocolMessage := (x.rounds?.map Rounds.pending).getD []

/-- How many steps the worker has left at most once nothing more comes in. -/
def remaining (x : Execution σ α) : Nat := (x.rounds?.map Rounds.remaining).getD 0

/-- All that a move of the rounds can be for an execution. -/
inductive Plays (p : Party σ α) (t : Transport τ) (x : Execution σ α) (roundsMove : Rounds.Move)
    (s : τ) : Execution σ α → τ → Prop
  | goOn {b b' : Bridge} {r r' : Rounds σ α} {left : τ} (hphase : x.phase = .rounds b r)
      (hstep : r.step p t x.deadline roundsMove b s = some (r', b', left))
      (hover : r'.isOver = false) :
      x.Plays p t roundsMove s { x with phase := .rounds b' r' } left
  | ends {b b' : Bridge} {r r' : Rounds σ α} {left : τ} {result : Except RoundsFault α}
      (hphase : x.phase = .rounds b r)
      (hstep : r.step p t x.deadline roundsMove b s = some (r', b', left))
      (hwatch : r'.watch = .over result) :
      x.Plays p t roundsMove s
        { x with phase := .ended (result.mapError x.plan.fault) (some r') } (b'.close t left).2
  | afterEnd {result : Except Error α} {r r' : Rounds σ α}
      (hphase : x.phase = .ended result (some r)) (hmove : roundsMove = .work)
      (hworks : r.Works p r') :
      x.Plays p t roundsMove s { x with phase := .ended result (some r') } s

theorem plays_of_round (h : x.round p t now roundsMove s = some (events, x', s')) :
    x.Plays p t roundsMove s x' s' := by
  unfold round at h
  split at h
  next b r hphase =>
    obtain ⟨⟨r', b', left⟩, hstep, he⟩ := Option.map_eq_some_iff.mp h
    dsimp only at he
    split at he
    next result hwatch =>
      cases he
      exact .ends hphase hstep hwatch
    next hwatch =>
      cases he
      refine .goOn hphase hstep ?_
      unfold Rounds.isOver
      split
      next result hover => exact absurd hover (hwatch result)
      next => rfl
  next result r hphase =>
    split at h
    next hmove =>
      obtain ⟨r', hwork, he⟩ := Option.map_eq_some_iff.mp h
      cases he
      exact .afterEnd hphase hmove (Rounds.works_of_work hwork)
    next => cases h
  next => cases h

theorem rounds?_of_rounds {b : Bridge} {r : Rounds σ α} (h : x.phase = .rounds b r) :
    x.rounds? = some r := by
  simp only [rounds?, h]

theorem rounds?_of_ended {result : Except Error α} {rest : Option (Rounds σ α)}
    (h : x.phase = .ended result rest) : x.rounds? = rest := by
  simp only [rounds?, h]

theorem pending_of_rounds? {r : Rounds σ α} (h : x.rounds? = some r) : x.pending = r.pending := by
  rw [pending, h]
  rfl

theorem remaining_of_rounds? {r : Rounds σ α} (h : x.rounds? = some r) :
    x.remaining = r.remaining := by
  rw [remaining, h]
  rfl

theorem rounds?_of_joining {b : Bridge} {barrier : Barrier} {party : σ}
    (h : x.phase = .joining b barrier party) : x.rounds? = none := by
  simp only [rounds?, h]

end Execution

/-- An execution with all that it did: the states of its barrier, the protocol messages that came
in, the calls on its party, and what was handed to the bridge. -/
structure Chronicle (σ α : Type) where
  execution : Execution σ α
  barrier : List BarrierState
  stream : List ProtocolMessage
  calls : List (Call α)
  handed : List (Outbound × Except Error Unit)

namespace Chronicle

def begun (x : Execution σ α) : Chronicle σ α := ⟨x, [], [], [], []⟩

/-- Enters a move after which the execution is another. -/
def add (p : Party σ α) (t : Transport τ) (now : Nat) (move : Execution.Move) (s : τ)
    (c : Chronicle σ α) (after : Execution σ α) : Chronicle σ α where
  execution := after
  barrier := c.barrier ++ c.execution.barrierStates t now move s
  stream := c.stream ++ c.execution.arriving t move s
  calls := c.calls ++ c.execution.calls p move
  handed := c.handed ++ c.execution.handed t move s

/-- What can come of an execution. Between two moves anything may happen to the transport, and the
timer may have its turn. -/
inductive Becomes (p : Party σ α) (t : Transport τ) (c : Chronicle σ α) : Chronicle σ α → Prop
  | refl : c.Becomes p t c
  | step {d : Chronicle σ α} {now : Nat} {move : Execution.Move} {s s' : τ} {events : List Event}
      {after : Execution σ α} (h : c.Becomes p t d)
      (hstep : d.execution.step p t now move s = some (events, after, s')) :
      c.Becomes p t (d.add p t now move s after)
  | tick {d : Chronicle σ α} (h : c.Becomes p t d) (now : Nat) :
      c.Becomes p t { d with execution := d.execution.tick now }

/-- The messages that the party was given. -/
def fed (c : Chronicle σ α) : List ProtocolMessage := c.calls.filterMap Call.fed?

/-- What is known of a chronicle whose party was made, or not. -/
inductive Told (p : Party σ α) (made : Except PartyError σ) (c : Chronicle σ α) : Prop
  | joining {b : Bridge} {barrier : Barrier} {party : σ} (hmade : made = .ok party)
      (hphase : c.execution.phase = .joining b barrier party) (hwaits : barrier.result = none)
      (hcalls : c.calls = []) (hhanded : c.handed = []) (hstream : c.stream = b.messages)
  | rounds {b : Bridge} {r : Rounds σ α} {party : σ} (hmade : made = .ok party)
      (hphase : c.execution.phase = .rounds b r) (hready : c.barrier.getLast? = some .ready)
      (hover : r.isOver = false) (htold : r.Told p party c.calls c.handed c.stream b.messages)
  | ended {result : Except Error α} {r : Rounds σ α} {party : σ} (hmade : made = .ok party)
      (hphase : c.execution.phase = .ended result (some r))
      (hready : c.barrier.getLast? = some .ready) (hover : r.isOver = true)
      (htold : ∃ left, r.Told p party c.calls c.handed c.stream left)
  | unstarted {result : Except Error α} (hphase : c.execution.phase = .ended result none)
      (hcalls : c.calls = [])

variable {p : Party σ α} {t : Transport τ} {plan : Plan}
  {makeParty : Group → Except PartyError σ} {made : Except PartyError σ} {x after : Execution σ α}
  {c d : Chronicle σ α} {now elapsed : Nat} {s s' left : τ} {events : List Event}

theorem told_begun (h : Execution.begin? plan t makeParty now elapsed s = some (events, x, left)) :
    (begun x).Told p (makeParty plan.group) := by
  cases Execution.begins_of_begin? h with
  | failed _ hphase => exact .unstarted hphase rfl
  | refused _ hphase _ => exact .unstarted hphase rfl
  | bound _ hmade hconnect hphase =>
    refine .joining hmade hphase rfl rfl rfl ?_
    rw [(Bridge.connect_eq_ok hconnect).2.1]
    rfl

theorem Told.of_joining {b : Bridge} {barrier : Barrier} {party : σ} (h : c.Told p made)
    (hphase : c.execution.phase = .joining b barrier party) :
    made = .ok party ∧ barrier.result = none ∧ c.calls = [] ∧ c.handed = [] ∧
      c.stream = b.messages := by
  cases h with
  | joining hmade hphase' hwaits hcalls hhanded hstream =>
    cases hphase.symm.trans hphase'
    exact ⟨hmade, hwaits, hcalls, hhanded, hstream⟩
  | rounds _ hphase' _ _ _ => cases hphase.symm.trans hphase'
  | ended _ hphase' _ _ _ => cases hphase.symm.trans hphase'
  | unstarted hphase' _ => cases hphase.symm.trans hphase'

theorem Told.of_rounds {b : Bridge} {r : Rounds σ α} (h : c.Told p made)
    (hphase : c.execution.phase = .rounds b r) :
    ∃ party, made = .ok party ∧ c.barrier.getLast? = some .ready ∧ r.isOver = false ∧
      r.Told p party c.calls c.handed c.stream b.messages := by
  cases h with
  | rounds hmade hphase' hready hover htold =>
    cases hphase.symm.trans hphase'
    exact ⟨_, hmade, hready, hover, htold⟩
  | joining _ hphase' _ _ _ _ => cases hphase.symm.trans hphase'
  | ended _ hphase' _ _ _ => cases hphase.symm.trans hphase'
  | unstarted hphase' _ => cases hphase.symm.trans hphase'

/-- What is known of an execution that has ended and left its rounds to the worker. -/
theorem Told.of_left {result : Except Error α} {r : Rounds σ α} (h : c.Told p made)
    (hphase : c.execution.phase = .ended result (some r)) :
    ∃ party, made = .ok party ∧ c.barrier.getLast? = some .ready ∧ r.isOver = true ∧
      ∃ waiting, r.Told p party c.calls c.handed c.stream waiting := by
  cases h with
  | ended hmade hphase' hready hover htold =>
    cases hphase.symm.trans hphase'
    exact ⟨_, hmade, hready, hover, htold⟩
  | joining _ hphase' _ _ _ _ => cases hphase.symm.trans hphase'
  | rounds _ hphase' _ _ _ => cases hphase.symm.trans hphase'
  | unstarted hphase' _ => cases hphase.symm.trans hphase'

theorem Told.dispatch (h : c.Told p made)
    (hstep : c.execution.dispatch t s = some (events, after, s')) :
    (c.add p t now .dispatch s after).Told p made := by
  have hcalls : (c.add p t now .dispatch s after).calls = c.calls := List.append_nil _
  have hhanded : (c.add p t now .dispatch s after).handed = c.handed := List.append_nil _
  have hstates : (c.add p t now .dispatch s after).barrier = c.barrier := by
    simp [add, Execution.barrierStates]
  rw [Execution.dispatch_eq] at hstep
  obtain ⟨b, hbridge, hmap⟩ := Option.bind_eq_some_iff.mp hstep
  obtain ⟨⟨event, b', _⟩, hb, he⟩ := Option.map_eq_some_iff.mp hmap
  cases he
  have hstream : (c.add p t now .dispatch s (c.execution.setBridge b')).stream =
      c.stream ++ b.arriving t s := by
    simp only [add, Execution.arriving, hbridge]
  have hmessages := Bridge.messages_of_step hb
  cases h with
  | @joining bridge barrier party hmade hphase hwaits hnocalls hnohanded hsame =>
    cases hbridge.symm.trans (Execution.bridge?_of_joining hphase)
    have hphase' : (c.execution.setBridge b').phase = .joining b' barrier party := by
      simp only [Execution.setBridge, hphase]
    refine .joining hmade hphase' hwaits ?_ ?_ ?_
    · rw [hcalls, hnocalls]
    · rw [hhanded, hnohanded]
    · rw [hstream, hmessages, hsame]
  | @rounds bridge r party hmade hphase hready hover htold =>
    cases hbridge.symm.trans (Execution.bridge?_of_rounds hphase)
    refine .rounds (b := b') (r := r) hmade ?_ ?_ hover ?_
    · simp only [add, Execution.setBridge, hphase]
    · rw [hstates, hready]
    · rw [hcalls, hhanded, hstream, hmessages]
      exact ⟨htold.converses, htold.accounted, htold.heard.extend _⟩
  | ended _ hphase _ _ _ => simp [Execution.bridge?, hphase] at hbridge
  | unstarted hphase _ => simp [Execution.bridge?, hphase] at hbridge

theorem Told.join (h : c.Told p made)
    (hstep : c.execution.join t now s = some (events, after, s')) :
    (c.add p t now .join s after).Told p made := by
  have hcalls : (c.add p t now .join s after).calls = c.calls := List.append_nil _
  have hhanded : (c.add p t now .join s after).handed = c.handed := List.append_nil _
  have hstream : (c.add p t now .join s after).stream = c.stream := List.append_nil _
  unfold Execution.join at hstep
  split at hstep
  next bridge barrier party hphase =>
    obtain ⟨⟨barrier', bridge', _⟩, hb, he⟩ := Option.map_eq_some_iff.mp hstep
    obtain ⟨hwaits, hsteps⟩ := Barrier.steps_of_step hb
    have hstates : (c.add p t now .join s after).barrier = c.barrier ++ [barrier'.state] := by
      simp only [add, Execution.barrierStates, hphase, hb, Option.map_some, Option.toList_some]
    obtain ⟨hmade, -, hnocalls, hnohanded, hsame⟩ := h.of_joining hphase
    have hmessages := hsteps.messages_eq
    dsimp only at he
    split at he
    next hresult =>
      cases he
      refine .joining hmade rfl hresult ?_ ?_ ?_
      · rw [hcalls, hnocalls]
      · rw [hhanded, hnohanded]
      · rw [hstream, hsame, hmessages]
    next hresult =>
      cases he
      refine .rounds hmade rfl ?_ rfl ?_
      · rw [hstates, List.getLast?_concat, hsteps.ready_of_result hwaits hresult]
      · rw [hcalls, hnocalls, hhanded, hnohanded, hstream, hsame, hmessages]
        exact Rounds.told_create p party bridge.messages
    next hresult =>
      cases he
      exact .unstarted rfl (by rw [hcalls, hnocalls])
  next => cases hstep

theorem Told.round {move : Rounds.Move} (h : c.Told p made)
    (hstep : c.execution.round p t now move s = some (events, after, s')) :
    (c.add p t now (.rounds move) s after).Told p made := by
  have hstream : (c.add p t now (.rounds move) s after).stream = c.stream := List.append_nil _
  have hstates : (c.add p t now (.rounds move) s after).barrier = c.barrier := by
    simp [add, Execution.barrierStates]
  have hplays := Execution.plays_of_round hstep
  -- The books after a move of rounds that were not over before.
  have hadd {b b' : Bridge} {r r' : Rounds σ α} {left : τ}
      (hphase : c.execution.phase = .rounds b r)
      (hround : r.step p t c.execution.deadline move b s = some (r', b', left)) :
      ∃ party, made = .ok party ∧ c.barrier.getLast? = some .ready ∧
        r'.Told p party (c.add p t now (.rounds move) s after).calls
          (c.add p t now (.rounds move) s after).handed c.stream b'.messages := by
    obtain ⟨party, hmade, hready, -, htold⟩ := h.of_rounds hphase
    refine ⟨party, hmade, hready, ?_⟩
    simp only [add, Execution.calls, Execution.rounds?_of_rounds hphase, Execution.handed, hphase]
    exact htold.does (Rounds.does_of_step hround)
  cases hplays with
  | goOn hphase hround hover =>
    obtain ⟨party, hmade, hready, htold⟩ := hadd hphase hround
    rw [← hstream] at htold
    rw [← hstates] at hready
    exact .rounds hmade rfl hready hover htold
  | ends hphase hround hwatch =>
    obtain ⟨party, hmade, hready, htold⟩ := hadd hphase hround
    rw [← hstream] at htold
    rw [← hstates] at hready
    exact .ended hmade rfl hready (Rounds.isOver_of_watch hwatch) ⟨_, htold⟩
  | @afterEnd result r r' hphase hmove hworks =>
    subst hmove
    have hcalls : (c.add p t now (.rounds .work) s
        { c.execution with phase := .ended result (some r') }).calls =
          c.calls ++ r.workCalls p := by
      simp only [add, Execution.calls, Execution.rounds?_of_ended hphase, Rounds.calls, if_true]
    have hhanded : (c.add p t now (.rounds .work) s
        { c.execution with phase := .ended result (some r') }).handed = c.handed := by
      simp only [add, Execution.handed, hphase, List.append_nil]
    obtain ⟨party, hmade, hready, hover, waiting, htold⟩ := h.of_left hphase
    refine .ended hmade rfl ?_ ?_ ⟨waiting, ?_⟩
    · rw [hstates, hready]
    · unfold Rounds.isOver at hover ⊢
      rw [hworks.kept.1]
      exact hover
    · rw [hstream, hcalls, hhanded]
      exact htold.work hworks

theorem Told.becomes (h : c.Told p made) (hbecomes : c.Becomes p t d) : d.Told p made := by
  induction hbecomes with
  | refl => exact h
  | @step d now move s s' events after _ hstep ih =>
    cases move with
    | dispatch => exact ih.dispatch hstep
    | join => exact ih.join hstep
    | rounds move => exact ih.round hstep
  | tick _ now ih =>
    cases ih with
    | joining hmade hphase hwaits hcalls hhanded hstream =>
      exact .joining hmade hphase hwaits hcalls hhanded hstream
    | rounds hmade hphase hready hover htold => exact .rounds hmade hphase hready hover htold
    | ended hmade hphase hready hover htold => exact .ended hmade hphase hready hover htold
    | unstarted hphase hcalls => exact .unstarted hphase hcalls

/-- After the end the worker goes on. -/
theorem Becomes.work {result : Except Error α} {r r' : Rounds σ α} (h : c.Becomes p t d)
    (hphase : d.execution.phase = .ended result (some r)) (hwork : r.work p = some r') (s : τ) :
    ∃ next, c.Becomes p t next ∧ next.calls = d.calls ++ r.workCalls p ∧
      next.execution.phase = .ended result (some r') := by
  have hstep : d.execution.step p t 0 (.rounds .work) s =
      some ([], { d.execution with phase := .ended result (some r') }, s) := by
    simp only [Execution.step, Execution.round, hphase, if_true, hwork, Option.map_some]
  refine ⟨_, h.step hstep, ?_, rfl⟩
  simp only [add, Execution.calls, Execution.rounds?_of_ended hphase, Rounds.calls, if_true]

/-- Once the execution has ended, only the worker goes on, with what it has, and not for long. -/
theorem Told.of_ended {result : Except Error α} (h : c.Told p made)
    (hresult : c.execution.result? = some result) (hbecomes : c.Becomes p t d) :
    d.execution.result? = some result ∧
      d.fed ++ d.execution.pending = c.fed ++ c.execution.pending ∧
      d.calls.length + 2 * d.execution.remaining ≤
        c.calls.length + 2 * c.execution.remaining := by
  induction hbecomes with
  | refl => exact ⟨hresult, rfl, Nat.le_refl _⟩
  | tick _ _ ih => exact ih
  | @step d now move s s' events after hd hstep ih =>
    obtain ⟨hended, hfed, hlength⟩ := ih
    obtain ⟨rest, hphase⟩ := Execution.exists_phase_of_result? hended
    cases move with
    | dispatch => simp [Execution.step, Execution.dispatch, hphase] at hstep
    | join => simp [Execution.step, Execution.join, hphase] at hstep
    | rounds move =>
      cases Execution.plays_of_round hstep with
      | goOn hphase' _ _ => cases hphase.symm.trans hphase'
      | ends hphase' _ _ => cases hphase.symm.trans hphase'
      | @afterEnd _ r r' hphase' hmove hworks =>
        cases hphase.symm.trans hphase'
        subst hmove
        obtain ⟨-, -, -, hover, -⟩ := (h.becomes hd).of_left hphase
        have hcalls : d.execution.calls p (.rounds .work) = r.workCalls p := by
          simp only [Execution.calls, Execution.rounds?_of_ended hphase, Rounds.calls, if_true]
        have hbefore := Execution.rounds?_of_ended hphase
        have hafter : ({ d.execution with phase := .ended result (some r') } :
            Execution σ α).rounds? = some r' := rfl
        rw [Execution.pending_of_rounds? hbefore] at hfed
        rw [Execution.remaining_of_rounds? hbefore] at hlength
        refine ⟨rfl, ?_, ?_⟩
        · rw [← hfed, ← hworks.fed, ← List.append_assoc]
          simp only [fed, add, hcalls, List.filterMap_append, Execution.pending_of_rounds? hafter]
        · have hless := hworks.remaining_lt hover
          have hmore := Rounds.length_workCalls_le p r
          simp only [add, hcalls, List.length_append, Execution.remaining_of_rounds? hafter]
          omega

/-- A worker that has stopped when the execution ends stays so. -/
theorem Told.calls_of_isStopped (h : c.Told p made) (hended : c.execution.result?.isSome)
    (hstopped : ∀ r, c.execution.rounds? = some r → r.IsStopped) (hbecomes : c.Becomes p t d) :
    d.calls = c.calls ∧ ∀ r, d.execution.rounds? = some r → r.IsStopped := by
  obtain ⟨result, hresult⟩ := Option.isSome_iff_exists.mp hended
  induction hbecomes with
  | refl => exact ⟨rfl, hstopped⟩
  | tick _ _ ih => exact ih
  | @step d now move s s' events after hd hstep ih =>
    obtain ⟨hcalls, hstops⟩ := ih
    obtain ⟨rest, hphase⟩ := Execution.exists_phase_of_result? (h.of_ended hresult hd).1
    cases move with
    | dispatch => simp [Execution.step, Execution.dispatch, hphase] at hstep
    | join => simp [Execution.step, Execution.join, hphase] at hstep
    | rounds move =>
      cases Execution.plays_of_round hstep with
      | goOn hphase' _ _ => cases hphase.symm.trans hphase'
      | ends hphase' _ _ => cases hphase.symm.trans hphase'
      | @afterEnd _ r r' hphase' hmove hworks =>
        subst hmove
        have hrounds := Execution.rounds?_of_ended hphase'
        obtain ⟨-, -, -, hover, -⟩ := (h.becomes hd).of_left hphase'
        refine ⟨?_, ?_⟩
        · simp only [add, Execution.calls, hrounds, Rounds.calls, if_true,
            (hstops r hrounds).workCalls_eq_nil p, List.append_nil, hcalls]
        · rintro _ ⟨⟩
          exact Rounds.isStopped_of_isFinished ((hstops r hrounds).isFinished hover hworks)

/-- The end of an execution is the end of the calls exactly if the worker has nothing to go on
with. -/
theorem Told.cutOff_iff (h : c.Told p made) (s : τ) (hended : c.execution.result?.isSome) :
    (∀ d, c.Becomes p t d → d.calls = c.calls) ↔
      ∀ r, c.execution.rounds? = some r → r.IsStopped := by
  refine ⟨fun hsilent r hr => ?_, fun hstopped d hd => (h.calls_of_isStopped hended hstopped hd).1⟩
  by_contra hgoing
  obtain ⟨result, hresult⟩ := Option.isSome_iff_exists.mp hended
  obtain ⟨rest, hphase⟩ := Execution.exists_phase_of_result? hresult
  obtain rfl := (Execution.rounds?_of_ended hphase).symm.trans hr
  obtain ⟨r', hwork, hcalls⟩ := Rounds.exists_calls_of_not_isStopped hgoing p
  obtain ⟨d, hd, hmore, hphase'⟩ := (Becomes.refl (p := p) (t := t)).work hphase hwork s
  have hquiet : r.workCalls p = [] := by
    rw [hsilent d hd] at hmore
    exact List.append_right_eq_self.mp hmore.symm
  rcases hcalls with hcalls | ⟨r'', hwork', hcalls⟩
  · exact hcalls hquiet
  · obtain ⟨e, he, hmore', -⟩ := hd.work hphase' hwork' s
    rw [hsilent e he, hsilent d hd] at hmore'
    exact hcalls (List.append_right_eq_self.mp hmore'.symm)

/-- What the worker has read, or is about to read, is fed to the party although the execution has
ended. -/
theorem fed_afterEnd {r : Rounds σ α} {m : ProtocolMessage} (s : τ)
    (hended : c.execution.result?.isSome) (hr : c.execution.rounds? = some r)
    (hnext : r.worker = .feeding m ∨ r.worker = .reading ∧ r.inbox.head? = some m) :
    ∃ d answer rest, c.Becomes p t d ∧ d.calls = c.calls ++ .feed m answer :: rest := by
  obtain ⟨result, hresult⟩ := Option.isSome_iff_exists.mp hended
  obtain ⟨rest, hphase⟩ := Execution.exists_phase_of_result? hresult
  obtain rfl := (Execution.rounds?_of_ended hphase).symm.trans hr
  have hfeeds {d : Chronicle σ α} {r : Rounds σ α} (hd : c.Becomes p t d)
      (hphase : d.execution.phase = .ended result (some r)) (hworker : r.worker = .feeding m) :
      ∃ next answer rest, c.Becomes p t next ∧ next.calls = d.calls ++ .feed m answer :: rest := by
    obtain ⟨r', hwork⟩ := Option.isSome_iff_exists.mp
      (Rounds.work_isSome p (r := r) (by simp only [Rounds.isFinished, hworker])
        fun hreading => by cases hworker.symm.trans hreading)
    obtain ⟨next, hnext, hcalls, -⟩ := hd.work hphase hwork s
    obtain ⟨answer, rest, hfeed⟩ := Rounds.workCalls_of_feeding hworker p
    exact ⟨next, answer, rest, hnext, by rw [hcalls, hfeed]⟩
  rcases hnext with hworker | ⟨hworker, hinbox⟩
  · exact hfeeds .refl hphase hworker
  · obtain ⟨inbox, hinbox⟩ := List.head?_eq_some_iff.mp hinbox
    have hwork : r.work p = some { r with inbox := inbox, worker := .feeding m } := by
      simp only [Rounds.work, hworker, hinbox]
    obtain ⟨d, hd, hcalls, hphase'⟩ := (Becomes.refl (p := p) (t := t)).work hphase hwork s
    obtain ⟨next, answer, rest, hnext, hfeed⟩ := hfeeds hd hphase' rfl
    have hquiet : r.workCalls p = [] := by simp only [Rounds.workCalls, hworker]
    rw [hcalls, hquiet, List.append_nil] at hfeed
    exact ⟨next, answer, rest, hnext, hfeed⟩

/-- The party is started once every peer was heard from, and asked in good order from then on. The
worker goes away with the party's result, with its failure, or because the execution has ended, and
has no other reason to stand still than an empty inbox. -/
structure Disciplined (p : Party σ α) (t : Transport τ) (made : Except PartyError σ)
    (c : Chronicle σ α) : Prop where
  orderly : Call.Orderly c.calls
  converses : c.calls = [] ∧ c.execution.rounds? = none ∨
    ∃ party r, made = .ok party ∧ c.execution.rounds? = some r ∧
      p.Converses party c.calls r.party ∧ c.barrier.getLast? = some .ready
  gone : ∀ r, c.execution.rounds? = some r → r.isFinished = true →
    (∃ output, c.calls.getLast? = some (.result (.ok output))) ∨
      (∃ call e, c.calls.getLast? = some call ∧ call.failure? = some e) ∨
      c.execution.result?.isSome
  goesOn : ∀ r, c.execution.rounds? = some r → r.isFinished = false →
    (r.worker = .reading → r.inbox = [] → c.execution.result?.isSome) →
    ∀ now s, (c.execution.step p t now (.rounds .work) s).isSome

/-- The party is fed the stream from its front, and as long as the worker is there nothing of it is
lost. A message that is refused changes nothing else. The end of the execution does not stop the
worker: it goes on until it has read all that it was handed before, or has something to queue. -/
structure Faithful (p : Party σ α) (t : Transport τ) (c : Chronicle σ α) : Prop where
  isPrefix : c.fed <+: c.stream
  complete : ∀ b, c.execution.bridge? = some b →
    (∀ r, c.execution.rounds? = some r → r.isFinished = false) →
    c.stream = c.fed ++ c.execution.pending ++ b.messages
  refused : ∀ before m answer after, c.calls = before ++ .feed m answer :: after →
    (∃ reason, answer = .error (.failure reason)) ∨
      ∃ produced rest, after = .drain produced :: rest
  afterEnd : c.execution.result?.isSome → ∀ d, c.Becomes p t d →
    d.fed <+: c.fed ++ c.execution.pending ∧
      d.calls.length ≤ c.calls.length + 2 * c.execution.remaining
  cutOff : c.execution.result?.isSome →
    ((∀ d, c.Becomes p t d → d.calls = c.calls) ↔
      ∀ r, c.execution.rounds? = some r → r.IsStopped)
  readsOn : c.execution.result?.isSome → ∀ r m, c.execution.rounds? = some r →
    (r.worker = .feeding m ∨ r.worker = .reading ∧ r.inbox.head? = some m) →
      ∃ d answer rest, c.Becomes p t d ∧ d.calls = c.calls ++ .feed m answer :: rest

theorem isSome_step_work {b : Bridge} {r : Rounds σ α} (hphase : x.phase = .rounds b r)
    (hwork : (r.work p).isSome) (now : Nat) (s : τ) :
    (x.step p t now (.rounds .work) s).isSome := by
  obtain ⟨r', hr⟩ := Option.isSome_iff_exists.mp hwork
  simp only [Execution.step, Execution.round, hphase, Rounds.step, if_true, hr, Option.map_some,
    Option.isSome_some]

theorem disciplined_of_silent (hcalls : c.calls = []) (hrounds : c.execution.rounds? = none) :
    c.Disciplined p t made where
  orderly := by
    rw [hcalls]
    exact Call.orderly_nil
  converses := Or.inl ⟨hcalls, hrounds⟩
  gone := by
    intro r hr
    cases hrounds.symm.trans hr
  goesOn := by
    intro r hr
    cases hrounds.symm.trans hr

theorem Told.disciplined (h : c.Told p made) : c.Disciplined p t made := by
  cases h with
  | joining _ hphase _ hcalls _ _ =>
    exact disciplined_of_silent hcalls (Execution.rounds?_of_joining hphase)
  | unstarted hphase hcalls =>
    exact disciplined_of_silent hcalls (Execution.rounds?_of_ended hphase)
  | @rounds b r party hmade hphase hready hover htold =>
    have hrounds := Execution.rounds?_of_rounds hphase
    have habides := htold.accounted.abides
    refine ⟨habides.orderly, Or.inr ⟨party, r, hmade, hrounds, htold.converses, hready⟩, ?_, ?_⟩
    · intro r' hr hfinished
      cases hrounds.symm.trans hr
      obtain ⟨result, hworker⟩ := Rounds.isFinished_iff.mp hfinished
      cases result with
      | ok output => exact Or.inl ⟨output, habides.of_finished_ok hworker⟩
      | error fault =>
        rcases habides.of_finished_error hworker with hcut | ⟨call, e, hlast, hfails, -⟩
        · cases hover.symm.trans hcut.2
        · exact Or.inr (Or.inl ⟨call, e, hlast, hfails⟩)
    · intro r' hr hgoing hwaits now s
      cases hrounds.symm.trans hr
      refine isSome_step_work hphase (Rounds.work_isSome p hgoing ?_) now s
      intro hreading hinbox
      simp [Execution.result?, hphase] at hwaits
      exact absurd hinbox (hwaits hreading)
  | @ended result r party hmade hphase hready hover htold =>
    obtain ⟨_, htold⟩ := htold
    have hrounds := Execution.rounds?_of_ended hphase
    have hended : c.execution.result?.isSome := by simp [Execution.result?, hphase]
    refine ⟨htold.accounted.abides.orderly,
      Or.inr ⟨party, r, hmade, hrounds, htold.converses, hready⟩, ?_, ?_⟩
    · intro _ _ _
      exact Or.inr (Or.inr hended)
    · intro r' hr hgoing _ now s
      cases hrounds.symm.trans hr
      obtain ⟨r', hr'⟩ :=
        Option.isSome_iff_exists.mp (Rounds.work_isSome p hgoing fun _ _ => hover)
      simp only [Execution.step, Execution.round, hphase, if_true, hr', Option.map_some,
        Option.isSome_some]

theorem Told.faithful (h : c.Told p made) (s : τ) : c.Faithful p t := by
  have hcut := h.cutOff_iff (t := t) s
  have hreads (hended : c.execution.result?.isSome) (r : Rounds σ α) (m : ProtocolMessage) :=
    fed_afterEnd (p := p) (t := t) (r := r) (m := m) s hended
  have hafter (hended : c.execution.result?.isSome) (d : Chronicle σ α) (hd : c.Becomes p t d) :
      d.fed <+: c.fed ++ c.execution.pending ∧
        d.calls.length ≤ c.calls.length + 2 * c.execution.remaining := by
    obtain ⟨result, hresult⟩ := Option.isSome_iff_exists.mp hended
    obtain ⟨-, hfed, hlength⟩ := h.of_ended hresult hd
    refine ⟨?_, by omega⟩
    rw [← hfed]
    exact List.prefix_append _ _
  have hnothing (hcalls : c.calls = []) (before : List (Call α)) (m : ProtocolMessage)
      (answer : Except PartyError Unit) (after : List (Call α))
      (heq : c.calls = before ++ .feed m answer :: after) :
      (∃ reason, answer = .error (.failure reason)) ∨
        ∃ produced rest, after = .drain produced :: rest := by
    rw [hcalls] at heq
    simp at heq
  cases h with
  | @joining b barrier party _ hphase _ hcalls _ hstream =>
    have hfed : c.fed = [] := by rw [fed, hcalls]; rfl
    refine ⟨?_, ?_, hnothing hcalls, hafter, hcut, hreads⟩
    · rw [hfed]
      exact List.nil_prefix
    · intro b' hb' _
      cases (Execution.bridge?_of_joining hphase).symm.trans hb'
      rw [hstream, hfed, Execution.pending, Execution.rounds?_of_joining hphase]
      rfl
  | unstarted hphase hcalls =>
    have hfed : c.fed = [] := by rw [fed, hcalls]; rfl
    refine ⟨?_, ?_, hnothing hcalls, hafter, hcut, hreads⟩
    · rw [hfed]
      exact List.nil_prefix
    · intro b hb
      simp [Execution.bridge?, hphase] at hb
  | @rounds b r party _ hphase _ _ htold =>
    refine ⟨htold.heard.isPrefix, ?_, ?_, hafter, hcut, hreads⟩
    · intro b' hb' hgoing
      cases (Execution.bridge?_of_rounds hphase).symm.trans hb'
      have hrounds := Execution.rounds?_of_rounds hphase
      obtain ⟨lost, hstream, hnone⟩ := htold.heard
      rw [hstream, hnone (hgoing r hrounds), List.append_nil, Execution.pending_of_rounds? hrounds]
      rfl
    · intro before m answer after heq
      exact htold.accounted.abides.drain_of_feed heq
  | ended _ hphase _ _ htold =>
    obtain ⟨_, htold⟩ := htold
    refine ⟨htold.heard.isPrefix, ?_, ?_, hafter, hcut, hreads⟩
    · intro b hb
      simp [Execution.bridge?, hphase] at hb
    · intro before m answer after heq
      exact htold.accounted.abides.drain_of_feed heq

/-- Whatever the party is and whatever comes in, and in whatever order everything happens: the party
is asked in good order, and fed what came in since the bridge was connected, in order and once. The
calls end with the execution exactly if by then the worker has gone, has something to queue or has
nothing left to read; what it has read or finds in its inbox is fed although all is over. -/
theorem disciplined_and_faithful
    (hbegin : Execution.begin? plan t makeParty now elapsed s = some (events, x, left))
    (h : (begun x).Becomes p t c) :
    c.Disciplined p t (makeParty plan.group) ∧ c.Faithful p t :=
  have htold := (told_begun hbegin).becomes h
  ⟨htold.disciplined, htold.faithful s⟩

/-- Performs moves one after the other at one moment, unless one is impossible. -/
def run? (p : Party σ α) (t : Transport τ) (now : Nat) :
    List Execution.Move → Chronicle σ α → τ → Option (Chronicle σ α)
  | [], c, _ => some c
  | move :: moves, c, s =>
    match c.execution.step p t now move s with
    | none => none
    | some (_, after, s') => run? p t now moves (c.add p t now move s after) s'

theorem Becomes.run? {moves : List Execution.Move} (h : c.Becomes p t d)
    {d' : Chronicle σ α} (hrun : run? p t now moves d s = some d') : c.Becomes p t d' := by
  induction moves generalizing d s with
  | nil =>
    cases hrun
    exact h
  | cons move moves ih =>
    unfold Chronicle.run? at hrun
    split at hrun
    next => cases hrun
    next hstep => exact ih (h.step hstep) hrun

/-- Refuses the first message that it is given and is complete with the second. -/
def picky : Party Nat Unit where
  start n := (.ok (), n)
  feed m n := (if n = 0 then .error (.unexpectedMessage m.sender "early") else .ok (), n + 1)
  drain n := ([], n)
  isComplete n := n = 2
  result n := (.ok (), n)

def signingPlan : Plan := ⟨.signing, .ofMillis 1000, .ofMillis 100, Screening.group⟩

/-- A round message comes in before the signals of its sender. -/
def mail : List Inbound :=
  [⟨"g", Screening.a, Screening.frame Screening.a [3]⟩,
    ⟨"g", Screening.a, (Envelope.announce Screening.a).framed⟩,
    ⟨"g", Screening.c, (Envelope.announce Screening.c).framed⟩,
    ⟨"g", Screening.c, Screening.frame Screening.c [5]⟩]

def mailbox : Link := { Link.create Screening.b none false with inbox := mail }

/-- The barrier passes after the third message, and the last one comes in when the first was
refused. -/
def course : List Execution.Move :=
  [.dispatch, .dispatch, .dispatch, .join, .join, .join, .join, .join, .rounds .work, .rounds .take,
    .rounds .work, .rounds .work, .rounds .work, .rounds .work, .dispatch, .rounds .take,
    .rounds .work, .rounds .work, .rounds .work, .rounds .work, .rounds .work, .rounds .work,
    .rounds .finish, .rounds .send]

def sampleRun : Option (Chronicle Nat Unit) :=
  (Execution.begin? signingPlan (Link.transport Screening.b) (fun _ => .ok 0) 0 0 mailbox).bind
    fun (_, x, l) => run? picky (Link.transport Screening.b) 0 course (begun x) l

theorem view_sampleRun :
    (sampleRun.map fun c => (c.fed, c.stream, c.calls.length, c.execution.rounds?.isSome)) =
      some ([Screening.said Screening.a [3], Screening.said Screening.c [5]],
        [Screening.said Screening.a [3], Screening.said Screening.c [5]], 10, true) := by
  decide +kernel

theorem faithful_sampleRun :
    ∃ events x left c,
      Execution.begin? signingPlan (Link.transport Screening.b) (fun _ => .ok 0) 0 0 mailbox =
          some (events, x, left) ∧
        (begun x).Becomes picky (Link.transport Screening.b) c ∧
        c.fed = [Screening.said Screening.a [3], Screening.said Screening.c [5]] ∧
        c.fed <+: c.stream ∧ c.calls.length = 10 ∧ Call.Orderly c.calls ∧
        c.barrier.getLast? = some .ready := by
  obtain ⟨c, hsample, hview⟩ := Option.map_eq_some_iff.mp view_sampleRun
  obtain ⟨⟨events, x, left⟩, hbegin, hrun⟩ := Option.bind_eq_some_iff.mp hsample
  simp only [Prod.mk.injEq] at hview
  obtain ⟨hfed, -, hlength, hrounds⟩ := hview
  have hbecomes := Becomes.refl.run? hrun
  obtain ⟨hdisciplined, hfaithful⟩ := disciplined_and_faithful hbegin hbecomes
  refine ⟨events, x, left, c, hbegin, hbecomes, hfed, hfaithful.isPrefix, hlength,
    hdisciplined.orderly, ?_⟩
  rcases hdisciplined.converses with ⟨-, hnone⟩ | ⟨_, _, -, -, -, hready⟩
  · rw [hnone] at hrounds
    cases hrounds
  · exact hready

def error? (x : Execution Nat Unit) : Option Error :=
  match x.result? with
  | some (.error e) => some e
  | _ => none

theorem result?_of_error? {x : Execution Nat Unit} {e : Error} (h : error? x = some e) :
    x.result? = some (.error e) := by
  unfold error? at h
  split at h
  next e he =>
    cases h
    exact he
  next => cases h

/-- Both messages are with the worker when the time is over, and the first of them was fed. -/
def beforeExpiry : List Execution.Move :=
  [.dispatch, .dispatch, .dispatch, .join, .join, .join, .join, .join, .dispatch, .rounds .take,
    .rounds .take, .rounds .work, .rounds .work, .rounds .work, .rounds .work, .rounds .work]

/-- The execution at its end by expiry, and what the worker makes of it after that. -/
def expiry : Option (Chronicle Nat Unit × Chronicle Nat Unit) :=
  (Execution.begin? signingPlan (Link.transport Screening.b) (fun _ => .ok 0) 0 0 mailbox).bind
    fun (_, x, l) => (run? picky (Link.transport Screening.b) 0 beforeExpiry (begun x) l).bind
      fun c => (run? picky (Link.transport Screening.b) 1000 [.rounds .expire]
          { c with execution := c.execution.tick 1000 } l).bind
        fun ended => (run? picky (Link.transport Screening.b) 1000
          (List.replicate 6 (.rounds .work)) ended l).map fun after => (ended, after)

theorem view_expiry :
    (expiry.map fun (ended, after) => (error? ended.execution, ended.fed,
        ended.calls.filterMap Call.output?, after.fed, after.calls.filterMap Call.output?)) =
      some (some (.signingTimeout (.ofMillis 1000)), [Screening.said Screening.a [3]], [],
        [Screening.said Screening.a [3], Screening.said Screening.c [5]], [()]) := by
  decide +kernel

/-- The execution has ended because its time was over, and then the party is fed another message and
gives its result. -/
theorem fed_after_expiry :
    ∃ events x left ended after,
      Execution.begin? signingPlan (Link.transport Screening.b) (fun _ => .ok 0) 0 0 mailbox =
          some (events, x, left) ∧
        (begun x).Becomes picky (Link.transport Screening.b) ended ∧
        ended.execution.result? = some (.error (.signingTimeout (.ofMillis 1000))) ∧
        ended.fed = [Screening.said Screening.a [3]] ∧ ended.calls.filterMap Call.output? = [] ∧
        ended.Becomes picky (Link.transport Screening.b) after ∧
        after.fed = [Screening.said Screening.a [3], Screening.said Screening.c [5]] ∧
        after.calls.filterMap Call.output? = [()] := by
  obtain ⟨⟨ended, after⟩, hexpiry, hview⟩ := Option.map_eq_some_iff.mp view_expiry
  obtain ⟨⟨events, x, left⟩, hbegin, hrest⟩ := Option.bind_eq_some_iff.mp hexpiry
  obtain ⟨c, hbefore, hrest⟩ := Option.bind_eq_some_iff.mp hrest
  obtain ⟨d, hend, hrest⟩ := Option.bind_eq_some_iff.mp hrest
  obtain ⟨e, hafter, he⟩ := Option.map_eq_some_iff.mp hrest
  cases he
  simp only [Prod.mk.injEq] at hview
  obtain ⟨herror, hfed, hnone, hmore, houtput⟩ := hview
  have hexpires := (Becomes.refl.run? hbefore).tick 1000
  exact ⟨events, x, left, ended, after, hbegin, hexpires.run? hend, result?_of_error? herror, hfed,
    hnone, Becomes.refl.run? hafter, hmore, houtput⟩

end Chronicle

end ThresholdSigning
