import ThresholdSigning.Proofs.Effect
import ThresholdSigning.Proofs.Isolation

namespace ThresholdSigning

variable {σ α β τ τ' : Type}

theorem rel_map {γ δ ε ζ : Type} {R : γ → δ → Prop} {S : ε → ζ → Prop} {o : Option γ}
    {o' : Option δ} {f : γ → ε} {f' : δ → ζ} (h : Option.Rel R o o')
    (hf : ∀ {a a'}, R a a' → S (f a) (f' a')) : Option.Rel S (o.map f) (o'.map f') := by
  cases h with
  | none => exact .none
  | some hr => exact .some (hf hr)

/-- Two transports that answer alike to all that is done for a group under one subscription of
each, as long as their states are related. The relation knows whether the subscription is held. -/
structure Mirror (τ τ' : Type) where
  left : Transport τ
  right : Transport τ'
  group : String
  /-- The number of the subscription on the left. -/
  number : Nat
  /-- The number of the subscription on the right. -/
  number' : Nat
  Rel : Bool → τ → τ' → Prop
  send : ∀ {held s s'} (target bytes), Rel held s s' →
    (left.send group target bytes s).1 = (right.send group target bytes s').1 ∧
      Rel held (left.send group target bytes s).2 (right.send group target bytes s').2
  receive : ∀ {s s'}, Rel true s s' →
    (left.receive number s).1 = (right.receive number' s').1 ∧
      Rel true (left.receive number s).2 (right.receive number' s').2
  release : ∀ {s s'}, Rel true s s' → Rel false (left.release number s) (right.release number' s')

namespace Mirror

variable {M : Mirror τ τ'} {b b' : Bridge} {s : τ} {s' : τ'}

/-- A bridge under the number on the left, and the same bridge under the number on the right. -/
structure Bridges (M : Mirror τ τ') (b : Bridge) (s : τ) (b' : Bridge) (s' : τ') : Prop where
  group : b.group.id = M.group
  number : b.subscription = M.number
  same : b' = b.relabel M.number'
  state : M.Rel b.isOpen s s'

/-- The same result on both sides, with what is left of the bridge. -/
structure Results (M : Mirror τ τ') (r : β × Bridge × τ) (r' : β × Bridge × τ') : Prop where
  result : r.1 = r'.1
  bridges : M.Bridges r.2.1 r.2.2 r'.2.1 r'.2.2

theorem Bridges.publish (h : M.Bridges b s b' s') (e : Envelope) (target : Target) :
    (b.publish M.left e target s).1 = (b'.publish M.right e target s').1 ∧
      M.Bridges b (b.publish M.left e target s).2 b' (b'.publish M.right e target s').2 := by
  obtain ⟨hgroup, hnumber, rfl, hstate⟩ := h
  cases he : e.encode with
  | error error =>
    simp only [Bridge.publish, he]
    exact ⟨trivial, hgroup, hnumber, rfl, hstate⟩
  | ok bytes =>
    obtain ⟨hresult, hleft⟩ := M.send target bytes hstate
    have hgroup' : (b.relabel M.number').group.id = M.group := hgroup
    simp only [Bridge.publish, he, hgroup, hgroup']
    rcases hs : M.left.send M.group target bytes s with ⟨result, left⟩
    rcases hs' : M.right.send M.group target bytes s' with ⟨result', left'⟩
    rw [hs, hs'] at hresult hleft
    cases hresult
    cases result with
    | error error => exact ⟨rfl, hgroup, hnumber, rfl, hleft⟩
    | ok _ => exact ⟨rfl, hgroup, hnumber, rfl, hleft⟩

theorem Bridges.broadcastJoin (h : M.Bridges b s b' s') :
    (b.broadcastJoin M.left s).1 = (b'.broadcastJoin M.right s').1 ∧
      M.Bridges b (b.broadcastJoin M.left s).2 b' (b'.broadcastJoin M.right s').2 := by
  have hpublish := h.publish (.join b.group.localMember) .everyone
  obtain ⟨-, -, rfl, -⟩ := h
  exact hpublish

theorem Bridges.sendPayload (h : M.Bridges b s b' s') (payload : ByteArray) (target : Target) :
    (b.send M.left payload target s).1 = (b'.send M.right payload target s').1 ∧
      M.Bridges b (b.send M.left payload target s).2 b' (b'.send M.right payload target s').2 := by
  have hpublish := h.publish
    (.protocol ⟨b.group.localMember, payload, decide (target = .everyone)⟩) target
  have hsame := h.same
  have hrefusal : (b.relabel M.number').refusal? target = b.refusal? target := rfl
  subst hsame
  unfold Bridge.send
  rw [hrefusal]
  cases b.refusal? target with
  | some rejection => exact ⟨rfl, h⟩
  | none => exact hpublish

theorem Bridges.signal (h : M.Bridges b s b' s') (signal : Signal) :
    M.Bridges (b.signal signal) s (b'.signal signal) s' := by
  obtain ⟨hgroup, hnumber, rfl, hstate⟩ := h
  rw [Bridge.signal_relabel]
  unfold Bridge.signal
  split
  next => exact ⟨hgroup, hnumber, rfl, hstate⟩
  next => exact ⟨hgroup, hnumber, rfl, hstate⟩

theorem Bridges.dispatch (h : M.Bridges b s b' s') (inbound : Inbound) :
    M.Results (b.dispatch M.left inbound s) (b'.dispatch M.right inbound s') := by
  have hsame := h.same
  subst hsame
  have hscreen : (b.relabel M.number').screen inbound = b.screen inbound := rfl
  unfold Bridge.dispatch
  rw [hscreen]
  cases b.screen inbound with
  | error e => exact ⟨rfl, h⟩
  | ok e =>
    cases e with
    | protocol m => exact ⟨rfl, h.group, h.number, rfl, h.state⟩
    | join sender =>
      obtain ⟨-, hleft⟩ := M.send .everyone b.announce h.state
      rw [← h.group] at hleft
      have hsent : M.Bridges b (M.left.send b.group.id .everyone b.announce s).2
          (b.relabel M.number') (M.right.send b.group.id .everyone b.announce s').2 :=
        ⟨h.group, h.number, rfl, hleft⟩
      exact ⟨rfl, hsent.signal (.join sender)⟩
    | announce sender => exact ⟨rfl, h.signal (.announce sender)⟩

theorem Bridges.close (h : M.Bridges b s b' s') :
    M.Bridges (b.close M.left s).1 (b.close M.left s).2 (b'.close M.right s').1
      (b'.close M.right s').2 := by
  obtain ⟨hgroup, hnumber, rfl, hstate⟩ := h
  cases hopen : b.isOpen with
  | true =>
    have hopen' : (b.relabel M.number').isOpen = true := hopen
    rw [hopen] at hstate
    have hleft := M.release hstate
    rw [← hnumber] at hleft
    rw [Bridge.close_of_isOpen hopen, Bridge.close_of_isOpen hopen']
    exact ⟨hgroup, hnumber, rfl, hleft⟩
  | false =>
    have hopen' : (b.relabel M.number').isOpen = false := hopen
    simp only [Bridge.close, hopen, hopen', Bool.false_eq_true, if_false]
    exact ⟨hgroup, hnumber, rfl, hstate⟩

theorem Bridges.step (h : M.Bridges b s b' s') :
    Option.Rel M.Results (b.step M.left s) (b'.step M.right s') := by
  have hsame := h.same
  subst hsame
  cases hopen : b.isOpen with
  | false =>
    have hopen' : (b.relabel M.number').isOpen = false := hopen
    rw [Bridge.step_of_closed hopen, Bridge.step_of_closed hopen']
    exact .none
  | true =>
    have hopen' : (b.relabel M.number').isOpen = true := hopen
    have hstate := h.state
    rw [hopen] at hstate
    obtain ⟨harrival, hleft⟩ := M.receive hstate
    rcases hr : M.left.receive M.number s with ⟨arrival, left⟩
    rcases hr' : M.right.receive M.number' s' with ⟨arrival', left'⟩
    rw [hr, hr'] at harrival hleft
    cases harrival
    have hr : M.left.receive b.subscription s = (arrival, left) := h.number ▸ hr
    have hafter : M.Bridges b left (b.relabel M.number') left' :=
      ⟨h.group, h.number, rfl, hopen ▸ hleft⟩
    cases arrival with
    | nothing =>
      rw [Bridge.step_of_nothing hopen hr, Bridge.step_of_nothing hopen' hr']
      exact .none
    | envelope inbound =>
      rw [Bridge.step_of_envelope hopen hr, Bridge.step_of_envelope hopen' hr']
      exact .some (hafter.dispatch inbound)
    | closed =>
      rw [Bridge.step_of_end hopen hr, Bridge.step_of_end hopen' hr']
      exact .some ⟨rfl, hafter.close⟩

/-- The bridge is only waited at and sent through. -/
theorem Bridges.barrier (h : M.Bridges b s b' s') (barrier : Barrier) (deadline : Deadline)
    (now : Nat) :
    Option.Rel M.Results (barrier.step b M.left deadline now s)
      (barrier.step b' M.right deadline now s') := by
  obtain ⟨hjoin, hsent⟩ := h.broadcastJoin
  have hsame := h.same
  subst hsame
  rcases hs : b.broadcastJoin M.left s with ⟨result, left⟩
  rcases hs' : (b.relabel M.number').broadcastJoin M.right s' with ⟨result', left'⟩
  rw [hs, hs'] at hjoin hsent
  cases hjoin
  have hgroup : (b.relabel M.number').group = b.group := rfl
  have hsignals : (b.relabel M.number').signals = b.signals := rfl
  have hopen : (b.relabel M.number').isOpen = b.isOpen := rfl
  unfold Barrier.step
  rw [hgroup, hsignals, hopen]
  split
  next => exact .none
  next =>
    cases barrier.state with
    | idle => exact .some ⟨rfl, h⟩
    | announcing =>
      simp only [hs, hs']
      split
      next => exact .some ⟨rfl, h⟩
      next =>
        cases result with
        | error e => exact .some ⟨rfl, hsent⟩
        | ok _ => exact .some ⟨rfl, hsent⟩
    | waiting seen =>
      simp only [hs, hs']
      split
      next => exact .some ⟨rfl, h⟩
      next =>
        split
        next => exact .some ⟨rfl, h⟩
        next =>
          cases b.signals with
          | cons signal signals => exact .some ⟨rfl, h.group, h.number, rfl, h.state⟩
          | nil =>
            dsimp only
            split
            next => exact .some ⟨rfl, h⟩
            next =>
              split
              next => exact .none
              next =>
                cases result with
                | error e => exact .some ⟨rfl, hsent⟩
                | ok _ => exact .some ⟨rfl, hsent⟩
    | ready => exact .none
    | timedOut => exact .none

/-- The watching side takes messages from the bridge and sends through it. -/
theorem Bridges.take (h : M.Bridges b s b' s') (r : Rounds σ α) :
    Option.Rel M.Results ((r.take b).map fun (r, b) => (r, b, s))
      ((r.take b').map fun (r, b') => (r, b', s')) := by
  have hsame := h.same
  subst hsame
  have hmessages : (b.relabel M.number').messages = b.messages := rfl
  have hopen : (b.relabel M.number').isOpen = b.isOpen := rfl
  unfold Rounds.take
  rw [hmessages, hopen]
  cases r.watch with
  | racing =>
    dsimp only
    split
    next => exact .none
    next =>
      cases b.messages with
      | nil =>
        dsimp only
        split
        next => exact .none
        next => exact .some ⟨rfl, h⟩
      | cons m messages =>
        dsimp only
        split
        next => exact .some ⟨rfl, h.group, h.number, rfl, h.state⟩
        next => exact .some ⟨rfl, h.group, h.number, rfl, h.state⟩
  | sending output => exact .none
  | _ => exact .none

theorem Bridges.sendQueued (h : M.Bridges b s b' s') (r : Rounds σ α) :
    Option.Rel M.Results ((r.send b M.left s).map fun (r, s) => (r, b, s))
      ((r.send b' M.right s').map fun (r, s') => (r, b', s')) := by
  cases houtbox : r.outbox with
  | nil =>
    simp only [Rounds.send, houtbox]
    cases r.watch with
    | racing =>
      dsimp only
      split
      next => exact .some ⟨rfl, h⟩
      next => exact .none
    | sending output => exact .some ⟨rfl, h⟩
    | _ => exact .none
  | cons m outbox =>
    obtain ⟨hresult, hsent⟩ := h.sendPayload m.payload m.target
    rcases hs : b.send M.left m.payload m.target s with ⟨result, left⟩
    rcases hs' : b'.send M.right m.payload m.target s' with ⟨result', left'⟩
    rw [hs, hs'] at hresult hsent
    cases hresult
    cases hwatch : r.watch with
    | racing | sending =>
      simp only [Rounds.send, houtbox, hwatch, hs, hs']
      cases result with
      | error e => exact .some ⟨rfl, hsent⟩
      | ok _ => exact .some ⟨rfl, hsent⟩
    | _ =>
      simp only [Rounds.send, hwatch]
      exact .none

theorem Bridges.rounds (h : M.Bridges b s b' s') (p : Party σ α) (deadline : Deadline)
    (move : Rounds.Move) (r : Rounds σ α) :
    Option.Rel M.Results (r.step p M.left deadline move b s)
      (r.step p M.right deadline move b' s') := by
  have hself (o : Option (Rounds σ α)) :
      Option.Rel M.Results (o.map (·, b, s)) (o.map (·, b', s')) := by
    cases o with
    | none => exact .none
    | some r => exact .some ⟨rfl, h⟩
  unfold Rounds.step
  split
  next => exact hself (r.work p)
  next =>
    split
    next => exact .none
    next =>
      split
      next => exact .some ⟨rfl, h⟩
      next =>
        cases move with
        | work => exact .none
        | take => exact h.take r
        | send => exact h.sendQueued r
        | finish => exact hself r.finish
        | expire => exact .none

end Mirror

/-- The same phase where the subscription is known by another number. -/
def Phase.relabel (n : Nat) : Phase σ α → Phase σ α
  | .joining bridge barrier party => .joining (bridge.relabel n) barrier party
  | .rounds bridge work => .rounds (bridge.relabel n) work
  | .ended result rest => .ended result rest

namespace Execution

def relabel (n : Nat) (x : Execution σ α) : Execution σ α := { x with phase := x.phase.relabel n }

/-- Whether there is a subscription that the execution still has. -/
def isHeld (x : Execution σ α) : Bool := x.bridge?.any Bridge.isOpen

theorem isHeld_of_bridge? {x : Execution σ α} {b : Bridge} (h : x.bridge? = some b) :
    x.isHeld = b.isOpen := by
  rw [isHeld, h]
  rfl

end Execution

namespace Mirror

variable {M : Mirror τ τ'} {b b' : Bridge} {s : τ} {s' : τ'} {x x' : Execution σ α} {plan : Plan}
  {startedAt : Nat} {deadline : Deadline}

/-- An execution under the number on the left, and the same one under the number on the right. -/
structure Executions (M : Mirror τ τ') (x : Execution σ α) (s : τ) (x' : Execution σ α) (s' : τ') :
    Prop where
  bridge : ∀ b ∈ x.bridge?, b.group.id = M.group ∧ b.subscription = M.number
  same : x' = x.relabel M.number'
  state : M.Rel x.isHeld s s'

/-- The same events on both sides, with what has become of the execution. -/
structure Outcomes (M : Mirror τ τ') (r : List Event × Execution σ α × τ)
    (r' : List Event × Execution σ α × τ') : Prop where
  events : r.1 = r'.1
  executions : M.Executions r.2.1 r.2.2 r'.2.1 r'.2.2

theorem Bridges.joining (h : M.Bridges b s b' s') (barrier : Barrier) (party : σ) :
    M.Executions (⟨plan, startedAt, deadline, .joining b barrier party⟩ : Execution σ α) s
      ⟨plan, startedAt, deadline, .joining b' barrier party⟩ s' := by
  obtain ⟨hgroup, hnumber, rfl, hstate⟩ := h
  refine ⟨?_, rfl, hstate⟩
  rintro _ ⟨⟩
  exact ⟨hgroup, hnumber⟩

theorem Bridges.inRounds (h : M.Bridges b s b' s') (rounds : Rounds σ α) :
    M.Executions ⟨plan, startedAt, deadline, .rounds b rounds⟩ s
      ⟨plan, startedAt, deadline, .rounds b' rounds⟩ s' := by
  obtain ⟨hgroup, hnumber, rfl, hstate⟩ := h
  refine ⟨?_, rfl, hstate⟩
  rintro _ ⟨⟩
  exact ⟨hgroup, hnumber⟩

theorem executions_ended (h : M.Rel false s s') (result : Except Error α)
    (rest : Option (Rounds σ α)) :
    M.Executions ⟨plan, startedAt, deadline, .ended result rest⟩ s
      ⟨plan, startedAt, deadline, .ended result rest⟩ s' := by
  refine ⟨?_, rfl, h⟩
  rintro _ ⟨⟩

theorem Executions.bridges (h : M.Executions x s x' s') (hb : x.bridge? = some b) :
    M.Bridges b s (b.relabel M.number') s' := by
  obtain ⟨hgroup, hnumber⟩ := h.bridge b hb
  exact ⟨hgroup, hnumber, rfl, Execution.isHeld_of_bridge? hb ▸ h.state⟩

/-- Both sides close their bridges, and report the same. -/
theorem Bridges.outcomes_close (h : M.Bridges b s b' s') (x : Execution σ α) (now : Nat)
    (result : Except Error α) (rest : Option (Rounds σ α)) (phase : Phase σ α) :
    M.Outcomes (x.close b M.left now result rest s)
      (({ x with phase := phase } : Execution σ α).close b' M.right now result rest s') := by
  have hclosed := h.close.state
  rw [Bridge.close_eq] at hclosed
  exact ⟨rfl, executions_ended hclosed result rest⟩

theorem Executions.dispatch (h : M.Executions x s x' s') :
    Option.Rel M.Outcomes (x.dispatch M.left s) (x'.dispatch M.right s') := by
  have hsame := h.same
  subst hsame
  obtain ⟨plan, startedAt, deadline, phase⟩ := x
  cases phase with
  | joining b barrier party =>
    refine rel_map (h.bridges rfl).step ?_
    rintro ⟨event, c, left⟩ ⟨event', c', left'⟩ ⟨rfl, hc⟩
    exact ⟨rfl, hc.joining barrier party⟩
  | rounds b rounds =>
    refine rel_map (h.bridges rfl).step ?_
    rintro ⟨event, c, left⟩ ⟨event', c', left'⟩ ⟨rfl, hc⟩
    exact ⟨rfl, hc.inRounds rounds⟩
  | ended result rest => exact .none

theorem Executions.join (h : M.Executions x s x' s') (now : Nat) :
    Option.Rel M.Outcomes (x.join M.left now s) (x'.join M.right now s') := by
  have hsame := h.same
  subst hsame
  obtain ⟨plan, startedAt, deadline, phase⟩ := x
  cases phase with
  | joining b barrier party =>
    refine rel_map ((h.bridges rfl).barrier barrier deadline now) ?_
    rintro ⟨barrier, c, left⟩ ⟨_, c', left'⟩ ⟨rfl, hc⟩
    dsimp only
    cases barrier.result with
    | none => exact ⟨rfl, hc.joining barrier party⟩
    | some result =>
      cases result with
      | ok _ => exact ⟨rfl, hc.inRounds (.create party)⟩
      | error e =>
        have hclosed := hc.outcomes_close
          (⟨plan, startedAt, deadline, .joining b barrier party⟩ : Execution σ α) now (.error e)
          none (.joining (b.relabel M.number') barrier party)
        exact ⟨congrArg _ hclosed.events, hclosed.executions⟩
  | rounds b rounds => exact .none
  | ended result rest => exact .none

theorem Executions.round (h : M.Executions x s x' s') (p : Party σ α) (now : Nat)
    (move : Rounds.Move) :
    Option.Rel M.Outcomes (x.round p M.left now move s) (x'.round p M.right now move s') := by
  have hsame := h.same
  subst hsame
  obtain ⟨plan, startedAt, deadline, phase⟩ := x
  cases phase with
  | joining b barrier party => exact .none
  | rounds b rounds =>
    refine rel_map ((h.bridges rfl).rounds p deadline move rounds) ?_
    rintro ⟨rounds, c, left⟩ ⟨_, c', left'⟩ ⟨rfl, hc⟩
    dsimp only
    rcases rounds.watch with _ | output | result
    · exact ⟨rfl, hc.inRounds rounds⟩
    · exact ⟨rfl, hc.inRounds rounds⟩
    · exact hc.outcomes_close
        (⟨plan, startedAt, deadline, .rounds b rounds⟩ : Execution σ α) now _ (some rounds)
        (.rounds (b.relabel M.number') rounds)
  | ended result rest =>
    cases rest with
    | none => exact .none
    | some rounds =>
      simp only [Execution.round, Execution.relabel, Phase.relabel]
      split
      next =>
        cases rounds.work p with
        | none => exact .none
        | some rounds => exact .some ⟨rfl, executions_ended h.state result (some rounds)⟩
      next => exact .none

/-- What an execution does, and what it comes to, depends on nothing but what its transport answers
about its own subscription. -/
theorem Executions.step (h : M.Executions x s x' s') (p : Party σ α) (now : Nat)
    (move : Execution.Move) :
    Option.Rel M.Outcomes (x.step p M.left now move s) (x'.step p M.right now move s') := by
  cases move with
  | dispatch => exact h.dispatch
  | join => exact h.join now
  | rounds move => exact h.round p now move

end Mirror

end ThresholdSigning
