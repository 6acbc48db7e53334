import ThresholdSigning.Proofs.Execution

namespace ThresholdSigning

variable {σ α τ : Type}

inductive Transport.Sends (t : Transport τ) (group : String) (s : τ) : τ → Prop
  | nothing : t.Sends group s s
  | one (target : Target) (bytes : ByteArray) : t.Sends group s (t.send group target bytes s).2

/-- A bridge from which something may have been read. -/
structure Bridge.Spent (b b' : Bridge) : Prop where
  group : b'.group = b.group
  subscription : b'.subscription = b.subscription
  announce : b'.announce = b.announce
  isOpen : b'.isOpen = b.isOpen
  signals : b'.signals ⊆ b.signals

theorem Bridge.Spent.refl (b : Bridge) : b.Spent b := ⟨rfl, rfl, rfl, rfl, List.Subset.refl _⟩

namespace Bridge

variable {t : Transport τ} {s left : τ}

theorem sends_publish (b : Bridge) (t : Transport τ) (e : Envelope) (target : Target) (s : τ) :
    t.Sends b.group.id s (b.publish t e target s).2 := by
  unfold publish
  split
  next => exact .nothing
  next bytes _ =>
    have hsends : t.Sends b.group.id s (t.send b.group.id target bytes s).2 := .one target bytes
    split
    next e left hsend =>
      rw [hsend] at hsends
      exact hsends
    next left hsend =>
      rw [hsend] at hsends
      exact hsends

theorem sends_send (b : Bridge) (t : Transport τ) (payload : ByteArray) (target : Target) (s : τ) :
    t.Sends b.group.id s (b.send t payload target s).2 := by
  unfold send
  split
  next => exact .nothing
  next => exact sends_publish b t _ target s

theorem sends_broadcastJoin (b : Bridge) (t : Transport τ) (s : τ) :
    t.Sends b.group.id s (b.broadcastJoin t s).2 :=
  sends_publish b t _ .everyone s

end Bridge

namespace Barrier

variable {b b' : Barrier} {bridge bridge' : Bridge} {t : Transport τ} {deadline : Deadline}
  {now : Nat} {s s' : τ}

def seen (b : Barrier) : List MemberId :=
  match b.state with
  | .waiting seen => seen
  | _ => []

theorem seen_of_waiting {seen : List MemberId} (h : b.state = .waiting seen) : b.seen = seen := by
  simp only [Barrier.seen, h]

theorem Steps.sends (h : b.Steps bridge t deadline now s b' bridge' s') :
    t.Sends bridge.group.id s s' := by
  have hjoin := bridge.sends_broadcastJoin t s
  cases h with
  | begin _ => exact .nothing
  | expireAtOnce _ _ => exact .nothing
  | join _ _ hsend => rwa [hsend] at hjoin
  | joinFails _ _ hsend => rwa [hsend] at hjoin
  | pass _ _ => exact .nothing
  | expire _ _ _ => exact .nothing
  | hear _ _ _ _ => exact .nothing
  | queueEnds _ _ _ _ _ => exact .nothing
  | joinAgain _ _ _ _ _ _ hsend => rwa [hsend] at hjoin
  | joinAgainFails _ _ _ _ _ _ hsend => rwa [hsend] at hjoin

theorem Steps.spent (h : b.Steps bridge t deadline now s b' bridge' s') : bridge.Spent bridge' := by
  cases h with
  | @hear seen signal signals _ _ _ hsignals =>
    refine ⟨rfl, rfl, rfl, rfl, ?_⟩
    rw [hsignals]
    exact List.subset_cons_self signal signals
  | begin _ => exact .refl _
  | expireAtOnce _ _ => exact .refl _
  | join _ _ _ => exact .refl _
  | joinFails _ _ _ => exact .refl _
  | pass _ _ => exact .refl _
  | expire _ _ _ => exact .refl _
  | queueEnds _ _ _ _ _ => exact .refl _
  | joinAgain _ _ _ _ _ _ _ => exact .refl _
  | joinAgainFails _ _ _ _ _ _ _ => exact .refl _

theorem Steps.messages_eq (h : b.Steps bridge t deadline now s b' bridge' s') :
    bridge'.messages = bridge.messages := by
  cases h <;> rfl

theorem Steps.seen (h : b.Steps bridge t deadline now s b' bridge' s') :
    ∀ m ∈ b'.seen, m ∈ b.seen ∨ ∃ signal ∈ bridge.signals, signal.sender = m := by
  intro m hm
  cases h with
  | begin _ => cases hm
  | expireAtOnce _ _ => cases hm
  | join _ _ _ => cases hm
  | joinFails hstate _ _ => exact Or.inl hm
  | pass _ _ => cases hm
  | expire _ _ _ => cases hm
  | @hear seen signal signals hstate _ _ hsignals =>
    rw [seen_of_waiting hstate]
    rcases mem_hear_iff.mp hm with hold | ⟨-, rfl⟩
    · exact Or.inl hold
    · exact Or.inr ⟨signal, by rw [hsignals]; exact List.mem_cons_self, rfl⟩
  | queueEnds _ _ _ _ _ => exact Or.inl hm
  | joinAgain _ _ _ _ _ _ _ => exact Or.inl hm
  | joinAgainFails _ _ _ _ _ _ _ => exact Or.inl hm

/-- The barrier gets ready only once every peer was seen. -/
theorem Steps.ready (h : b.Steps bridge t deadline now s b' bridge' s')
    (hready : b'.state = .ready) : ∀ m ∈ bridge.group.peers, m ∈ b.seen := by
  cases h with
  | pass hstate hall =>
    rw [seen_of_waiting hstate]
    exact hall
  | begin _ => cases hready
  | expireAtOnce _ _ => cases hready
  | join _ _ _ => cases hready
  | joinFails hstate _ _ => cases hstate.symm.trans hready
  | expire _ _ _ => cases hready
  | hear _ _ _ _ => cases hready
  | queueEnds hstate _ _ _ _ => cases hstate.symm.trans hready
  | joinAgain hstate _ _ _ _ _ _ => cases hstate.symm.trans hready
  | joinAgainFails hstate _ _ _ _ _ _ => cases hstate.symm.trans hready

/-- The barrier succeeds in one way, in which nothing but the barrier changes. -/
theorem Steps.passes (h : b.Steps bridge t deadline now s b' bridge' s')
    (hwaits : b.result = none) (hresult : b'.result = some (.ok ())) :
    ∃ seen, b.state = .waiting seen ∧ b'.state = .ready ∧ bridge' = bridge ∧ s' = s := by
  cases h with
  | pass hstate _ => exact ⟨_, hstate, rfl, rfl, rfl⟩
  | begin _ => cases hwaits.symm.trans hresult
  | expireAtOnce _ _ => cases hresult
  | join _ _ _ => cases hwaits.symm.trans hresult
  | joinFails _ _ _ => cases hresult
  | expire _ _ _ => cases hresult
  | hear _ _ _ _ => cases hwaits.symm.trans hresult
  | queueEnds _ _ _ _ _ => cases hresult
  | joinAgain _ _ _ _ _ _ _ => cases hwaits.symm.trans hresult
  | joinAgainFails _ _ _ _ _ _ _ => cases hresult

theorem Steps.ready_of_result (h : b.Steps bridge t deadline now s b' bridge' s')
    (hwaits : b.result = none) (hresult : b'.result = some (.ok ())) : b'.state = .ready := by
  obtain ⟨seen, -, hready, -, -⟩ := h.passes hwaits hresult
  exact hready

end Barrier

namespace Rounds

variable {p : Party σ α} {t : Transport τ} {deadline : Deadline} {r r' : Rounds σ α}
  {b b' : Bridge} {s s' : τ}

theorem Steps.sends (h : r.Steps p t deadline b s r' b' s') : t.Sends b.group.id s s' := by
  cases h with
  | work _ => exact .nothing
  | expire _ _ => exact .nothing
  | watch _ _ hwatches =>
    cases hwatches with
    | @send m _ _ _ hsend =>
      have hsends := b.sends_send t m.payload m.target s
      rwa [hsend] at hsends
    | @sendFails m _ _ _ _ hsend =>
      have hsends := b.sends_send t m.payload m.target s
      rwa [hsend] at hsends
    | take _ _ _ _ => exact .nothing
    | takeUnread _ _ _ _ => exact .nothing
    | streamEnds _ _ _ _ => exact .nothing
    | sentAll _ _ _ _ => exact .nothing
    | sentRest _ _ => exact .nothing
    | finish _ _ => exact .nothing
    | finishFails _ _ => exact .nothing

theorem Steps.spent (h : r.Steps p t deadline b s r' b' s') : b.Spent b' := by
  cases h with
  | work _ => exact .refl _
  | expire _ _ => exact .refl _
  | watch _ _ hwatches =>
    cases hwatches with
    | take _ _ _ _ => exact ⟨rfl, rfl, rfl, rfl, List.Subset.refl _⟩
    | takeUnread _ _ _ _ => exact ⟨rfl, rfl, rfl, rfl, List.Subset.refl _⟩
    | send _ _ => exact .refl _
    | sendFails _ _ => exact .refl _
    | streamEnds _ _ _ _ => exact .refl _
    | sentAll _ _ _ _ => exact .refl _
    | sentRest _ _ => exact .refl _
    | finish _ _ => exact .refl _
    | finishFails _ _ => exact .refl _

end Rounds

namespace Execution

variable {p : Party σ α} {t : Transport τ} {x x' : Execution σ α} {now : Nat} {s s' : τ}
  {events : List Event} {bridge : Bridge}

def signals (x : Execution σ α) : List Signal := (x.bridge?.map Bridge.signals).getD []

def seen (x : Execution σ α) : List MemberId :=
  match x.phase with
  | .joining _ barrier _ => barrier.seen
  | _ => []

/-- What a step does to the bridge of an execution and, through it, to the transport: at the end
the bridge is closed. -/
inductive Effect (t : Transport τ) (x : Execution σ α) (s : τ) : Execution σ α → τ → Prop
  | live {bridge bridge' : Bridge} {x' : Execution σ α} {s' : τ} (hbridge : x.bridge? = some bridge)
      (hbridge' : x'.bridge? = some bridge') (hspent : bridge.Spent bridge')
      (hsends : t.Sends bridge.group.id s s') : x.Effect t s x' s'
  | ends {bridge bridge' : Bridge} {x' : Execution σ α} {left : τ}
      (hbridge : x.bridge? = some bridge) (hbridge' : x'.bridge? = none)
      (hspent : bridge.Spent bridge') (hsends : t.Sends bridge.group.id s left) :
      x.Effect t s x' (bridge'.close t left).2
  | ended {x' : Execution σ α} (hbridge : x.bridge? = none) (hbridge' : x'.bridge? = none) :
      x.Effect t s x' s

theorem bridge?_of_joining {barrier : Barrier} {party : σ}
    (h : x.phase = .joining bridge barrier party) : x.bridge? = some bridge := by
  simp only [bridge?, h]

theorem bridge?_of_rounds {rounds : Rounds σ α} (h : x.phase = .rounds bridge rounds) :
    x.bridge? = some bridge := by
  simp only [bridge?, h]

theorem result?_of_bridge? (h : x.bridge? = some bridge) : x.result? = none := by
  unfold bridge? at h
  unfold result?
  split at h
  next hphase => rw [hphase]
  next hphase => rw [hphase]
  next => cases h

theorem seen_of_joining {barrier : Barrier} {party : σ}
    (h : x.phase = .joining bridge barrier party) : x.seen = barrier.seen := by
  simp only [seen, h]

theorem signals_of_bridge? (h : x.bridge? = some bridge) : x.signals = bridge.signals := by
  rw [signals, h]
  rfl

theorem signals_of_none (h : x.bridge? = none) : x.signals = [] := by
  rw [signals, h]
  rfl

theorem Joins.effect (h : x.Joins t now s events x' s') : x.Effect t s x' s' := by
  cases h with
  | wait hphase _ hsteps _ =>
    exact .live (bridge?_of_joining hphase) rfl hsteps.spent hsteps.sends
  | pass hphase _ hsteps _ =>
    exact .live (bridge?_of_joining hphase) rfl hsteps.spent hsteps.sends
  | fail hphase _ hsteps _ =>
    exact .ends (bridge?_of_joining hphase) rfl hsteps.spent hsteps.sends

theorem Turns.effect (h : x.Turns p t now s events x' s') : x.Effect t s x' s' := by
  cases h with
  | goOn hphase hsteps _ =>
    exact .live (bridge?_of_rounds hphase) rfl hsteps.spent hsteps.sends
  | ends hphase hsteps _ =>
    exact .ends (bridge?_of_rounds hphase) rfl hsteps.spent hsteps.sends
  | afterEnd hphase _ => exact .ended (by simp only [bridge?, hphase]) rfl

theorem Effect.signals (h : x.Effect t s x' s') : x'.signals ⊆ x.signals := by
  cases h with
  | live hbridge hbridge' hspent _ =>
    rw [signals_of_bridge? hbridge, signals_of_bridge? hbridge']
    exact hspent.signals
  | ends _ hbridge' _ _ =>
    rw [signals_of_none hbridge']
    exact List.nil_subset _
  | ended _ hbridge' =>
    rw [signals_of_none hbridge']
    exact List.nil_subset _

theorem Joins.seen (h : x.Joins t now s events x' s') :
    ∀ m ∈ x'.seen, m ∈ x.seen ∨ ∃ signal ∈ x.signals, signal.sender = m := by
  intro m hm
  cases h with
  | wait hphase _ hsteps _ =>
    rw [seen_of_joining hphase, signals_of_bridge? (bridge?_of_joining hphase)]
    exact hsteps.seen m hm
  | pass _ _ _ _ => cases hm
  | fail _ _ _ _ => cases hm

/-- The party gets to work only once every peer was seen. -/
theorem Joins.rounds (h : x.Joins t now s events x' s') (hbridge : x.bridge? = some bridge)
    (hrounds : x'.rounds?.isSome = true) : ∀ m ∈ bridge.group.peers, m ∈ x.seen := by
  cases h with
  | wait _ _ _ _ => cases hrounds
  | pass hphase hwaits hsteps hresult =>
    rw [seen_of_joining hphase]
    cases hbridge.symm.trans (bridge?_of_joining hphase)
    exact hsteps.ready (hsteps.ready_of_result hwaits hresult)
  | fail _ _ _ _ => cases hrounds

theorem Turns.seen (h : x.Turns p t now s events x' s') : x'.seen = [] := by
  cases h <;> rfl

theorem Turns.rounds (h : x.Turns p t now s events x' s') : x.rounds?.isSome = true := by
  cases h with
  | goOn hphase _ _ => simp only [rounds?, hphase, Option.isSome_some]
  | ends hphase _ _ => simp only [rounds?, hphase, Option.isSome_some]
  | afterEnd hphase _ => simp only [rounds?, hphase, Option.isSome_some]

theorem setBridge_of_bridge? (h : x.bridge? = some bridge) : x.setBridge bridge = x := by
  unfold bridge? at h
  unfold setBridge
  split
  next hphase =>
    rw [hphase] at h
    cases h
    rw [← hphase]
  next hphase =>
    rw [hphase] at h
    cases h
    rw [← hphase]
  next => rfl

theorem bridge?_setBridge (h : x.bridge? = some bridge) (bridge' : Bridge) :
    (x.setBridge bridge').bridge? = some bridge' := by
  unfold bridge? at h
  unfold setBridge
  split
  next => rfl
  next => rfl
  next hphase =>
    rw [hphase] at h
    cases h

@[simp]
theorem seen_setBridge (x : Execution σ α) (bridge' : Bridge) :
    (x.setBridge bridge').seen = x.seen := by
  unfold setBridge
  split
  next hphase => simp only [Execution.seen, hphase]
  next hphase => simp only [Execution.seen, hphase]
  next => rfl

@[simp]
theorem rounds?_setBridge (x : Execution σ α) (bridge' : Bridge) :
    (x.setBridge bridge').rounds? = x.rounds? := by
  unfold setBridge
  split
  next hphase => simp only [rounds?, hphase]
  next hphase => simp only [rounds?, hphase]
  next => rfl

end Execution

end ThresholdSigning
