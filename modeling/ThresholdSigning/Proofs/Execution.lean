import ThresholdSigning.Execution
import ThresholdSigning.Proofs.Barrier
import ThresholdSigning.Proofs.Rounds

namespace ThresholdSigning

variable {σ α β τ : Type}

namespace Execution

def bridge? (x : Execution σ α) : Option Bridge :=
  match x.phase with
  | .joining bridge _ _ => some bridge
  | .rounds bridge _ => some bridge
  | .ended _ _ => none

def setBridge (x : Execution σ α) (bridge : Bridge) : Execution σ α :=
  match x.phase with
  | .joining _ barrier party => { x with phase := .joining bridge barrier party }
  | .rounds _ rounds => { x with phase := .rounds bridge rounds }
  | .ended _ _ => x

variable {p : Party σ α} {t : Transport τ} {x x' : Execution σ α} {now : Nat} {move : Move}
  {s s' : τ} {events : List Event}

/-- All that one step of the barrier can be for an execution. -/
inductive Joins (t : Transport τ) (now : Nat) (x : Execution σ α) (s : τ) :
    List Event → Execution σ α → τ → Prop
  | wait {bridge bridge' : Bridge} {barrier barrier' : Barrier} {party : σ} {left : τ}
      (hphase : x.phase = .joining bridge barrier party)
      (hwaits : barrier.result = none)
      (hsteps : barrier.Steps bridge t x.deadline now s barrier' bridge' left)
      (hresult : barrier'.result = none) :
      x.Joins t now s [] { x with phase := .joining bridge' barrier' party } left
  | pass {bridge bridge' : Bridge} {barrier barrier' : Barrier} {party : σ} {left : τ}
      (hphase : x.phase = .joining bridge barrier party)
      (hwaits : barrier.result = none)
      (hsteps : barrier.Steps bridge t x.deadline now s barrier' bridge' left)
      (hresult : barrier'.result = some (.ok ())) :
      x.Joins t now s [x.plan.event .joinCompleted]
        { x with phase := .rounds bridge' (.create party) } left
  | fail {bridge bridge' : Bridge} {barrier barrier' : Barrier} {party : σ} {e : Error}
      {left : τ} (hphase : x.phase = .joining bridge barrier party)
      (hwaits : barrier.result = none)
      (hsteps : barrier.Steps bridge t x.deadline now s barrier' bridge' left)
      (hresult : barrier'.result = some (.error e)) :
      x.Joins t now s
        (barrierEvents x.plan e ++
          [x.plan.ended (now - x.startedAt) (.error e : Except Error α)])
        { x with phase := .ended (.error e) none } (bridge'.close t left).2

inductive Turns (p : Party σ α) (t : Transport τ) (now : Nat) (x : Execution σ α) (s : τ) :
    List Event → Execution σ α → τ → Prop
  | goOn {bridge bridge' : Bridge} {rounds rounds' : Rounds σ α} {left : τ}
      (hphase : x.phase = .rounds bridge rounds)
      (hsteps : rounds.Steps p t x.deadline bridge s rounds' bridge' left)
      (hwatch : ∀ result, rounds'.watch ≠ .over result) :
      x.Turns p t now s [] { x with phase := .rounds bridge' rounds' } left
  | ends {bridge bridge' : Bridge} {rounds rounds' : Rounds σ α} {left : τ}
      {result : Except RoundsFault α} (hphase : x.phase = .rounds bridge rounds)
      (hsteps : rounds.Steps p t x.deadline bridge s rounds' bridge' left)
      (hwatch : rounds'.watch = .over result) :
      x.Turns p t now s [x.plan.ended (now - x.startedAt) (result.mapError x.plan.fault)]
        { x with phase := .ended (result.mapError x.plan.fault) (some rounds') }
        (bridge'.close t left).2
  | afterEnd {result : Except Error α} {rounds rounds' : Rounds σ α}
      (hphase : x.phase = .ended result (some rounds)) (hworks : rounds.Works p rounds') :
      x.Turns p t now s [] { x with phase := .ended result (some rounds') } s

inductive Steps (p : Party σ α) (t : Transport τ) (now : Nat) (x : Execution σ α) (s : τ) :
    List Event → Execution σ α → τ → Prop
  | dispatch {bridge bridge' : Bridge} {event : Option Event} {left : τ}
      (hbridge : x.bridge? = some bridge) (hstep : bridge.step t s = some (event, bridge', left)) :
      x.Steps p t now s event.toList (x.setBridge bridge') left
  | join {events : List Event} {after : Execution σ α} {left : τ}
      (hjoins : x.Joins t now s events after left) : x.Steps p t now s events after left
  | round {events : List Event} {after : Execution σ α} {left : τ}
      (hturns : x.Turns p t now s events after left) : x.Steps p t now s events after left

theorem dispatch_eq (x : Execution σ α) (t : Transport τ) (s : τ) :
    x.dispatch t s = x.bridge?.bind fun bridge =>
      (bridge.step t s).map fun (event, bridge', left) =>
        (event.toList, x.setBridge bridge', left) := by
  unfold Execution.dispatch bridge? setBridge
  cases x.phase with
  | joining bridge barrier party => rfl
  | rounds bridge rounds => rfl
  | ended result rest => rfl

theorem joins_of_join (h : x.join t now s = some (events, x', s')) :
    x.Joins t now s events x' s' := by
  unfold join at h
  split at h
  next bridge barrier party hphase =>
    obtain ⟨⟨barrier', bridge', left⟩, hstep, he⟩ := Option.map_eq_some_iff.mp h
    obtain ⟨hwaits, hsteps⟩ := Barrier.steps_of_step hstep
    dsimp only at he
    split at he
    next hresult =>
      cases he
      exact .wait hphase hwaits hsteps hresult
    next hresult =>
      cases he
      exact .pass hphase hwaits hsteps hresult
    next e hresult =>
      cases he
      exact .fail hphase hwaits hsteps hresult
  next => cases h

theorem turns_of_round {roundsMove : Rounds.Move}
    (h : x.round p t now roundsMove s = some (events, x', s')) :
    x.Turns p t now s events x' s' := by
  unfold round at h
  split at h
  next bridge rounds hphase =>
    obtain ⟨⟨rounds', bridge', left⟩, hstep, he⟩ := Option.map_eq_some_iff.mp h
    have hsteps := Rounds.steps_of_step hstep
    dsimp only at he
    split at he
    next result hwatch =>
      cases he
      exact .ends hphase hsteps hwatch
    next hwatch =>
      cases he
      exact .goOn hphase hsteps hwatch
  next result rounds hphase =>
    split at h
    next =>
      obtain ⟨rounds', hwork, he⟩ := Option.map_eq_some_iff.mp h
      cases he
      exact .afterEnd hphase (Rounds.works_of_work hwork)
    next => cases h
  next => cases h

theorem steps_of_step (h : x.step p t now move s = some (events, x', s')) :
    x.Steps p t now s events x' s' := by
  cases move with
  | dispatch =>
    have hdispatch : x.dispatch t s = some (events, x', s') := h
    rw [dispatch_eq] at hdispatch
    obtain ⟨bridge, hbridge, hmap⟩ := Option.bind_eq_some_iff.mp hdispatch
    obtain ⟨⟨event, bridge', left⟩, hstep, he⟩ := Option.map_eq_some_iff.mp hmap
    cases he
    exact .dispatch hbridge hstep
  | join => exact .join (joins_of_join h)
  | rounds roundsMove => exact .round (turns_of_round h)

@[simp]
theorem plan_setBridge (x : Execution σ α) (bridge : Bridge) :
    (x.setBridge bridge).plan = x.plan := by
  unfold setBridge
  split <;> rfl

@[simp]
theorem deadline_setBridge (x : Execution σ α) (bridge : Bridge) :
    (x.setBridge bridge).deadline = x.deadline := by
  unfold setBridge
  split <;> rfl

theorem Joins.plan_eq (h : x.Joins t now s events x' s') : x'.plan = x.plan := by
  cases h <;> rfl

theorem Turns.plan_eq (h : x.Turns p t now s events x' s') : x'.plan = x.plan := by
  cases h <;> rfl

theorem Steps.plan_eq (h : x.Steps p t now s events x' s') : x'.plan = x.plan := by
  cases h with
  | dispatch _ _ => exact plan_setBridge _ _
  | join hjoins => exact hjoins.plan_eq
  | round hturns => exact hturns.plan_eq

theorem Steps.deadline_eq (h : x.Steps p t now s events x' s') : x'.deadline = x.deadline := by
  cases h with
  | dispatch _ _ => exact deadline_setBridge _ _
  | join hjoins => cases hjoins <;> rfl
  | round hturns => cases hturns <;> rfl

def perform? (p : Party σ α) (t : Transport τ) (now : Nat) :
    List Move → Execution σ α → τ → Option (Execution σ α × τ)
  | [], x, s => some (x, s)
  | move :: moves, x, s =>
    match x.step p t now move s with
    | none => none
    | some (_, x, s) => perform? p t now moves x s

end Execution

/-- Every output that is anywhere in a phase was given by the party. -/
def Phase.Earned (p : Party σ α) : Phase σ α → Prop
  | .joining _ _ _ => True
  | .rounds _ r => r.Earned p
  | .ended result rest =>
    (∀ output, result = .ok output → p.Gives output) ∧ ∀ r ∈ rest, r.Earned p

theorem Phase.earned_failed (p : Party σ α) (e : Error) :
    (Phase.ended (.error e) none).Earned p := by
  constructor
  · intro output houtput
    cases houtput
  · intro r hr
    cases hr

namespace Execution

variable {p : Party σ α} {t : Transport τ} {x x' : Execution σ α} {now : Nat} {s s' : τ}
  {events : List Event}

theorem earned_setBridge (h : x.phase.Earned p) (bridge : Bridge) :
    (x.setBridge bridge).phase.Earned p := by
  unfold setBridge
  split
  next => trivial
  next hphase =>
    rw [hphase] at h
    exact h
  next => exact h

theorem Joins.earned (hjoins : x.Joins t now s events x' s') : x'.phase.Earned p := by
  cases hjoins with
  | wait _ _ _ _ => trivial
  | pass _ _ _ _ => exact Rounds.earned_create _
  | fail _ _ _ _ => exact Phase.earned_failed p _

theorem Turns.earned (hturns : x.Turns p t now s events x' s') (h : x.phase.Earned p) :
    x'.phase.Earned p := by
  cases hturns with
  | goOn hphase hsteps _ =>
    rw [hphase] at h
    exact Rounds.Earned.step h hsteps
  | @ends _ _ _ _ _ result hphase hsteps hwatch =>
    rw [hphase] at h
    have hafter := Rounds.Earned.step h hsteps
    refine ⟨?_, ?_⟩
    · intro output houtput
      cases result with
      | error fault => cases houtput
      | ok o =>
        cases houtput
        exact hafter.ended output hwatch
    · rintro _ ⟨⟩
      exact hafter
  | afterEnd hphase hworks =>
    rw [hphase] at h
    refine ⟨h.1, ?_⟩
    rintro _ ⟨⟩
    exact (h.2 _ rfl).work hworks

theorem Steps.earned (hsteps : x.Steps p t now s events x' s') (h : x.phase.Earned p) :
    x'.phase.Earned p := by
  cases hsteps with
  | dispatch _ _ => exact earned_setBridge h _
  | join hjoins => exact hjoins.earned
  | round hturns => exact hturns.earned h

theorem exists_phase_of_result? {result : Except Error α} (h : x.result? = some result) :
    ∃ rest, x.phase = .ended result rest := by
  unfold result? at h
  split at h
  next result' rest hphase =>
    cases h
    exact ⟨rest, hphase⟩
  next => cases h

/-- All that the beginning of an execution can be. -/
inductive Begins (plan : Plan) (t : Transport τ) (makeParty : Group → Except PartyError σ) (s : τ)
    (x : Execution σ α) : τ → Prop
  | failed {e : Error} (hplan : x.plan = plan) (hphase : x.phase = .ended (.error e) none) :
      x.Begins plan t makeParty s s
  | refused {e : Error} {left : τ} (hplan : x.plan = plan)
      (hphase : x.phase = .ended (.error e) none)
      (hconnect : Bridge.connect plan.group t s = (.error e, left)) :
      x.Begins plan t makeParty s left
  | bound {party : σ} {bridge : Bridge} {left : τ} (hplan : x.plan = plan)
      (hmade : makeParty plan.group = .ok party)
      (hconnect : Bridge.connect plan.group t s = (.ok bridge, left))
      (hphase : x.phase = .joining bridge (.create plan.joinInterval.millis) party) :
      x.Begins plan t makeParty s left

theorem begins_of_begin? {plan : Plan} {makeParty : Group → Except PartyError σ} {elapsed : Nat}
    (h : begin? plan t makeParty now elapsed s = some (events, x, s')) :
    x.Begins plan t makeParty s s' := by
  unfold begin? at h
  split at h
  next => cases h
  next deadline _ =>
    split at h
    next =>
      cases h
      exact .failed rfl rfl
    next party hmade =>
      split at h
      next =>
        cases h
        exact .failed rfl rfl
      next =>
        rw [Option.some.injEq, Prod.mk.injEq] at h
        obtain ⟨-, hx⟩ := h
        unfold connect at hx
        split at hx
        next hconnect =>
          cases hx
          exact .refused rfl rfl hconnect
        next hconnect =>
          cases hx
          exact .bound rfl hmade hconnect rfl

theorem Begins.earned {plan : Plan} {makeParty : Group → Except PartyError σ}
    (h : x.Begins plan t makeParty s s') : x.plan = plan ∧ x.phase.Earned p := by
  cases h with
  | failed hplan hphase => exact ⟨hplan, hphase ▸ Phase.earned_failed p _⟩
  | refused hplan hphase _ => exact ⟨hplan, hphase ▸ Phase.earned_failed p _⟩
  | bound hplan _ _ hphase => exact ⟨hplan, hphase ▸ trivial⟩

end Execution

namespace Request

variable {p : Party σ α} {t : Transport τ} {r r' : Request σ α}

/-- What a request can become. Between two steps anything may happen to the transport, and the
timer may have its turn. -/
inductive Becomes (p : Party σ α) (t : Transport τ) (r : Request σ α) : Request σ α → Prop
  | refl : r.Becomes p t r
  | step {x x' : Execution σ α} {move : Execution.Move} {now : Nat} {s s' : τ}
      {events : List Event} (h : r.Becomes p t (.begun x))
      (hstep : x.step p t now move s = some (events, x', s')) : r.Becomes p t (.begun x')
  | tick {x : Execution σ α} (h : r.Becomes p t (.begun x)) (now : Nat) :
      r.Becomes p t (.begun (x.tick now))

theorem Becomes.trans {r'' : Request σ α} (h : r.Becomes p t r') (h' : r'.Becomes p t r'') :
    r.Becomes p t r'' := by
  induction h' with
  | refl => exact h
  | step _ hstep ih => exact ih.step hstep
  | tick _ now ih => exact ih.tick now

theorem becomes_of_perform? {moves : List Execution.Move} {x x' : Execution σ α} {now : Nat}
    {s s' : τ} (h : x.perform? p t now moves s = some (x', s')) :
    (begun x).Becomes p t (begun x') := by
  induction moves generalizing x s with
  | nil =>
    cases h
    exact .refl
  | cons move moves ih =>
    unfold Execution.perform? at h
    split at h
    next => cases h
    next events y left hstep => exact (Becomes.refl.step hstep).trans (ih h)

/-- The execution of a request has ended with an output. -/
def Yields (r : Request σ α) (output : α) : Prop :=
  ∃ x, r = .begun x ∧ x.result? = some (.ok output)

theorem Yields.result?_eq {output : α} (h : r.Yields output) (conclude : α → Except Error β) :
    r.result? conclude = some (conclude output) := by
  obtain ⟨x, rfl, hresult⟩ := h
  simp only [result?, hresult]
  rfl

theorem result?_eq_ok_iff {conclude : α → Except Error β} {b : β} :
    r.result? conclude = some (.ok b) ↔ ∃ output, r.Yields output ∧ conclude output = .ok b := by
  constructor
  · intro h
    cases r with
    | refused e => cases h
    | begun x =>
      obtain ⟨result, hresult, he⟩ := Option.map_eq_some_iff.mp h
      cases result with
      | error e => cases he
      | ok output => exact ⟨output, ⟨x, rfl, hresult⟩, he⟩
  · rintro ⟨output, hyields, he⟩
    rw [hyields.result?_eq, he]

/-- The request is refused with the reason of the plan, or carries out the plan. -/
def CarriesOut (plan : Except Error (List Event × Plan)) (p : Party σ α) : Request σ α → Prop
  | .refused e => plan = .error e
  | .begun x => (∃ events, plan = .ok (events, x.plan)) ∧ x.phase.Earned p

theorem carriesOut_of_begin? {plan : Except Error (List Event × Plan)}
    {makeParty : Group → Except PartyError σ} {now elapsed : Nat} {s s' : τ} {events : List Event}
    (h : begin? plan t makeParty now elapsed s = some (events, r, s')) : r.CarriesOut plan p := by
  unfold begin? at h
  cases plan with
  | error e =>
    cases h
    rfl
  | ok accepted =>
    obtain ⟨⟨more, x, left⟩, hx, he⟩ := Option.map_eq_some_iff.mp h
    obtain ⟨hplan, hearned⟩ := (Execution.begins_of_begin? hx).earned (p := p)
    cases he
    exact ⟨⟨accepted.1, by rw [hplan]⟩, hearned⟩

theorem CarriesOut.becomes {plan : Except Error (List Event × Plan)} (h : r.CarriesOut plan p)
    (hbecomes : r.Becomes p t r') : r'.CarriesOut plan p := by
  induction hbecomes with
  | refl => exact h
  | step _ hstep ih =>
    obtain ⟨⟨events, hplan⟩, hearned⟩ := ih
    have hsteps := Execution.steps_of_step hstep
    exact ⟨⟨events, by rw [hsteps.plan_eq, hplan]⟩, hsteps.earned hearned⟩
  | tick _ now ih => exact ih

theorem CarriesOut.gives {plan : Except Error (List Event × Plan)} (h : r.CarriesOut plan p)
    {output : α} (hyields : r.Yields output) : p.Gives output := by
  obtain ⟨x, rfl, hresult⟩ := hyields
  have hearned := h.2
  obtain ⟨rest, hphase⟩ := Execution.exists_phase_of_result? hresult
  rw [hphase] at hearned
  exact hearned.1 output rfl

end Request

end ThresholdSigning
