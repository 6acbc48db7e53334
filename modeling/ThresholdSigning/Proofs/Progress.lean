import ThresholdSigning.Proofs.Effect
import ThresholdSigning.Proofs.Group

namespace ThresholdSigning

variable {σ α τ : Type}

namespace Barrier

variable {b : Barrier} {bridge : Bridge} {deadline : Deadline} {seen : List MemberId}

theorem step_of_result (t : Transport τ) (now : Nat) (s : τ) (h : b.result.isSome = true) :
    b.step bridge t deadline now s = none := by
  simp only [step, h, if_true]

/-- Once every peer is seen or has a signal in the queue, the barrier gets ready by itself: without
another join, and whatever time it is. -/
theorem advance_ready (t : Transport τ) (now : Nat) (s : τ) (hwaits : b.result = none)
    (hstate : b.state = .waiting seen) (hlive : deadline.isExpired = false)
    (hcovered : ∀ m ∈ bridge.group.peers, m ∈ seen ∨ ∃ signal ∈ bridge.signals, signal.sender = m)
    {fuel : Nat} (hfuel : bridge.signals.length < fuel) :
    (b.advance bridge t deadline now s fuel).1.state = .ready ∧
      (b.advance bridge t deadline now s fuel).1.result = some (.ok ()) ∧
      (b.advance bridge t deadline now s fuel).2.2 = s := by
  -- Each step hears one signal: the queue gets shorter, and every peer stays covered.
  induction fuel generalizing b bridge seen with
  | zero => exact absurd hfuel (Nat.not_lt_zero _)
  | succ fuel ih =>
    have hnone : b.result.isSome = false := by rw [hwaits]; rfl
    by_cases hall : bridge.group.peers.all (· ∈ seen) = true
    · have hstep : b.step bridge t deadline now s =
          some ({ b with state := .ready, result := some (.ok ()) }, bridge, s) := by
        simp only [step, hnone, hstate, hall, if_true, Bool.false_eq_true, if_false]
      have hrest : ({ b with state := .ready, result := some (.ok ()) } : Barrier).advance bridge t
          deadline now s fuel =
            ({ b with state := .ready, result := some (.ok ()) }, bridge, s) := by
        cases fuel with
        | zero => rfl
        | succ fuel => rw [advance, step_of_result t now s rfl]
      rw [advance, hstep]
      dsimp only
      rw [hrest]
      exact ⟨rfl, rfl, rfl⟩
    · cases hsignals : bridge.signals with
      | nil =>
        refine absurd ?_ hall
        simp only [List.all_eq_true, decide_eq_true_eq]
        intro m hm
        rcases hcovered m hm with hseen | ⟨signal, hs, -⟩
        · exact hseen
        · rw [hsignals] at hs
          cases hs
      | cons signal signals =>
        have hstep : b.step bridge t deadline now s =
            some ({ b with state := .waiting (hear bridge.group seen signal) },
              { bridge with signals := signals }, s) := by
          simp only [step, hnone, hstate, hall, hlive, hsignals, Bool.false_eq_true, if_false]
        rw [advance, hstep]
        refine ih hwaits rfl ?_ ?_
        · intro m hm
          rcases hcovered m hm with hseen | ⟨signal', hs, rfl⟩
          · exact Or.inl (mem_hear_iff.mpr (Or.inl hseen))
          · rw [hsignals] at hs
            rcases List.mem_cons.mp hs with rfl | hs
            · exact Or.inl (mem_hear_iff.mpr (Or.inr ⟨Group.mem_peers_iff.mp hm, rfl⟩))
            · exact Or.inr ⟨signal', hs, rfl⟩
        · rw [hsignals, List.length_cons] at hfuel
          exact Nat.lt_of_succ_lt_succ hfuel

end Barrier

theorem Bridge.broadcastJoin_eq_ok {b : Bridge} {t : Transport τ} {s left : τ}
    (h : b.broadcastJoin t s = (.ok (), left)) :
    ∃ bytes, (Envelope.join b.group.localMember).encode = .ok bytes ∧
      (t.send b.group.id .everyone bytes s).2 = left := by
  unfold broadcastJoin publish at h
  split at h
  next => cases h
  next bytes hencode =>
    refine ⟨bytes, hencode, ?_⟩
    split at h
    next => cases h
    next hsend =>
      cases h
      rw [hsend]

namespace Execution

variable {p : Party σ α} {t : Transport τ} {x x' : Execution σ α} {now : Nat} {s s' : τ}
  {events : List Event} {bridge : Bridge}

/-- The execution has broadcast its join. -/
def HasJoined (x : Execution σ α) : Prop :=
  match x.phase with
  | .joining _ barrier _ => ∃ seen, barrier.state = .waiting seen
  | .rounds _ _ => True
  | .ended _ _ => False

/-- A barrier that has come to its result is left at once. -/
def Waits (x : Execution σ α) : Prop :=
  ∀ bridge barrier party, x.phase = .joining bridge barrier party → barrier.result = none

theorem Joins.waits (h : x.Joins t now s events x' s') : x'.Waits := by
  cases h with
  | wait _ _ _ hresult =>
    rintro _ _ _ ⟨⟩
    exact hresult
  | pass _ _ _ _ => rintro _ _ _ ⟨⟩
  | fail _ _ _ _ => rintro _ _ _ ⟨⟩

theorem Turns.waits (h : x.Turns p t now s events x' s') : x'.Waits := by
  cases h <;> rintro _ _ _ ⟨⟩

/-- All that one step of the barrier can be as long as nothing fails. -/
inductive Proceeds (t : Transport τ) (x : Execution σ α) (s : τ) : Execution σ α → τ → Prop
  | begin {bridge : Bridge} {barrier : Barrier} {party : σ}
      (hphase : x.phase = .joining bridge barrier party) (hstate : barrier.state = .idle) :
      x.Proceeds t s
        { x with phase := .joining bridge { barrier with state := .announcing } party } s
  | join {bridge : Bridge} {barrier : Barrier} {party : σ} {left : τ} (tick : Nat)
      (hphase : x.phase = .joining bridge barrier party) (hstate : barrier.state = .announcing)
      (hsend : bridge.broadcastJoin t s = (.ok (), left)) :
      x.Proceeds t s
        { x with
          phase := .joining bridge { barrier with state := .waiting [], nextTick := tick } party }
        left
  | hear {bridge : Bridge} {barrier : Barrier} {party : σ} {seen : List MemberId}
      {signal : Signal} {signals : List Signal} (hphase : x.phase = .joining bridge barrier party)
      (hstate : barrier.state = .waiting seen) (hsignals : bridge.signals = signal :: signals) :
      x.Proceeds t s
        { x with
          phase := .joining { bridge with signals := signals }
            { barrier with state := .waiting (Barrier.hear bridge.group seen signal) } party }
        s
  | joinAgain {bridge : Bridge} {barrier : Barrier} {party : σ} {seen : List MemberId} {left : τ}
      (tick : Nat) (hphase : x.phase = .joining bridge barrier party)
      (hstate : barrier.state = .waiting seen)
      (hsend : bridge.broadcastJoin t s = (.ok (), left)) :
      x.Proceeds t s { x with phase := .joining bridge { barrier with nextTick := tick } party }
        left
  | pass {bridge : Bridge} {barrier : Barrier} {party : σ} {seen : List MemberId}
      (hphase : x.phase = .joining bridge barrier party) (hstate : barrier.state = .waiting seen) :
      x.Proceeds t s { x with phase := .rounds bridge (.create party) } s

/-- Nothing has failed where the execution still has its bridge. -/
theorem Joins.proceeds (hjoins : x.Joins t now s events x' s')
    (hconnected : x'.bridge?.isSome = true) : x.Proceeds t s x' s' := by
  cases hjoins with
  | wait hphase hwaits hsteps hresult =>
    cases hsteps with
    | begin hstate => exact .begin hphase hstate
    | join hstate _ hsend => exact .join _ hphase hstate hsend
    | hear hstate _ _ hsignals => exact .hear hphase hstate hsignals
    | joinAgain hstate _ _ _ _ _ hsend => exact .joinAgain _ hphase hstate hsend
    | expireAtOnce _ _ => cases hresult
    | joinFails _ _ _ => cases hresult
    | pass _ _ => cases hresult
    | expire _ _ _ => cases hresult
    | queueEnds _ _ _ _ _ => cases hresult
    | joinAgainFails _ _ _ _ _ _ _ => cases hresult
  | pass hphase hwaits hsteps hresult =>
    obtain ⟨seen, hstate, -, rfl, rfl⟩ := hsteps.passes hwaits hresult
    exact .pass hphase hstate
  | fail _ _ _ _ => cases hconnected

theorem Turns.hasJoined (hturns : x.Turns p t now s events x' s')
    (hconnected : x'.bridge?.isSome = true) : x.HasJoined ∧ x'.rounds?.isSome = true := by
  cases hturns with
  | goOn hphase _ _ => exact ⟨by simp only [HasJoined, hphase], rfl⟩
  | ends _ _ _ => cases hconnected
  | afterEnd _ _ => cases hconnected

theorem Proceeds.sends (h : x.Proceeds t s x' s') :
    s' = s ∧ (x'.HasJoined → x.HasJoined) ∨
      ∃ bridge, x.bridge? = some bridge ∧ bridge.broadcastJoin t s = (.ok (), s') := by
  cases h with
  | begin hphase hstate =>
    refine Or.inl ⟨rfl, ?_⟩
    rintro ⟨seen, ⟨⟩⟩
  | join _ hphase _ hsend => exact Or.inr ⟨_, bridge?_of_joining hphase, hsend⟩
  | hear hphase hstate _ =>
    refine Or.inl ⟨rfl, fun _ => ?_⟩
    simp only [HasJoined, hphase]
    exact ⟨_, hstate⟩
  | joinAgain _ hphase _ hsend => exact Or.inr ⟨_, bridge?_of_joining hphase, hsend⟩
  | pass hphase hstate =>
    refine Or.inl ⟨rfl, fun _ => ?_⟩
    simp only [HasJoined, hphase]
    exact ⟨_, hstate⟩

/-- A peer whose signal was accepted is not forgotten: it is seen, its signal waits, or the
execution has passed. -/
def Minds (x : Execution σ α) (signal : Signal) : Prop :=
  x.rounds?.isSome = true ∨ signal.sender ∈ x.seen ∨ signal ∈ x.signals

theorem Proceeds.minds (h : x.Proceeds t s x' s') {signal : Signal}
    (hpeer : ∀ bridge, x.bridge? = some bridge → bridge.group.isPeer signal.sender = true)
    (hminds : x.Minds signal) : x'.Minds signal := by
  have hold {bridge : Bridge} {barrier : Barrier} {party : σ}
      (hphase : x.phase = .joining bridge barrier party) :
      signal.sender ∈ barrier.seen ∨ signal ∈ bridge.signals := by
    have hrounds : x.rounds? = none := by simp only [rounds?, hphase]
    rw [Minds, hrounds, seen_of_joining hphase,
      signals_of_bridge? (bridge?_of_joining hphase)] at hminds
    exact hminds.resolve_left Bool.false_ne_true
  have hkept {bridge : Bridge} {barrier barrier' : Barrier} {party : σ}
      (hphase : x.phase = .joining bridge barrier party) (hseen : barrier.seen ⊆ barrier'.seen) :
      ({ x with phase := .joining bridge barrier' party } : Execution σ α).Minds signal :=
    Or.inr ((hold hphase).imp_left fun hs => hseen hs)
  cases h with
  | begin hphase hstate =>
    refine hkept hphase ?_
    simp only [Barrier.seen, hstate, List.nil_subset]
  | join _ hphase hstate _ =>
    refine hkept hphase ?_
    simp only [Barrier.seen, hstate, List.nil_subset]
  | joinAgain _ hphase _ _ => exact hkept hphase (List.Subset.refl _)
  | @hear bridge barrier party seen first rest hphase hstate hsignals =>
    have hbefore := hold hphase
    rw [Barrier.seen_of_waiting hstate, hsignals, List.mem_cons] at hbefore
    refine Or.inr ?_
    rcases hbefore with hseen | rfl | hrest
    · exact Or.inl (Barrier.mem_hear_iff.mpr (Or.inl hseen))
    · exact Or.inl (Barrier.mem_hear_iff.mpr
        (Or.inr ⟨hpeer bridge (bridge?_of_joining hphase), rfl⟩))
    · exact Or.inr hrest
  | pass _ _ => exact Or.inl rfl

theorem Waits.setBridge (h : x.Waits) (bridge' : Bridge) : (x.setBridge bridge').Waits := by
  intro _ _ _ hphase
  unfold Execution.setBridge at hphase
  split at hphase
  next hjoining =>
    cases hphase
    exact h _ _ _ hjoining
  next => cases hphase
  next hended =>
    rw [hended] at hphase
    cases hphase

@[simp]
theorem hasJoined_setBridge (x : Execution σ α) (bridge' : Bridge) :
    (x.setBridge bridge').HasJoined ↔ x.HasJoined := by
  unfold Execution.setBridge
  split
  next hphase => simp only [HasJoined, hphase]
  next hphase => simp only [HasJoined, hphase]
  next => exact Iff.rfl

theorem Minds.setBridge {signal : Signal} (h : x.Minds signal) {bridge' : Bridge}
    (hsignals : x.signals ⊆ (x.setBridge bridge').signals) :
    (x.setBridge bridge').Minds signal := by
  rw [Minds, rounds?_setBridge, seen_setBridge]
  exact h.imp_right fun hs => hs.imp_right fun hw => hsignals hw

theorem Waits.advance {barrier : Barrier} {party : σ} {seen : List MemberId} (h : x.Waits)
    (hphase : x.phase = .joining bridge barrier party) (hstate : barrier.state = .waiting seen)
    (hlive : x.deadline.isExpired = false) (t : Transport τ) (s : τ)
    (hcovered : ∀ m ∈ bridge.group.peers, m ∈ seen ∨ ∃ signal ∈ bridge.signals, signal.sender = m)
    {now fuel : Nat} (hfuel : bridge.signals.length < fuel) :
    ∃ barrier' bridge', barrier.advance bridge t x.deadline now s fuel = (barrier', bridge', s) ∧
      barrier'.state = .ready ∧ barrier'.result = some (.ok ()) := by
  obtain ⟨hready, hresult, hs⟩ :=
    Barrier.advance_ready t now s (h _ _ _ hphase) hstate hlive hcovered hfuel
  exact ⟨_, _, Prod.ext rfl (Prod.ext rfl hs), hready, hresult⟩

end Execution

end ThresholdSigning
