import ThresholdSigning.Proofs.Effect
import ThresholdSigning.Proofs.Isolation
import ThresholdSigning.Proofs.Signals

namespace ThresholdSigning

variable {σ α τ : Type}

namespace Transport

/-- The same transport where nothing is given back. -/
def keeping (t : Transport τ) : Transport τ := { t with release := fun _ s => s }

/-- What one holder of at most one subscription does to a transport: it sends, and it receives until
it gives the subscription back. -/
inductive Uses (t : Transport τ) (own : Option Nat) (s : τ) : Option Nat → τ → Prop
  | nothing : t.Uses own s own s
  | send {own' : Option Nat} {s' : τ} (h : t.Uses own s own' s') (group : String) (target : Target)
      (bytes : ByteArray) : t.Uses own s own' (t.send group target bytes s').2
  | receive {id : Nat} {s' : τ} (h : t.Uses own s (some id) s') :
      t.Uses own s (some id) (t.receive id s').2
  | release {id : Nat} {s' : τ} (h : t.Uses own s (some id) s') :
      t.Uses own s none (t.release id s')

/-- What it takes to hold at most one subscription: it is given back at once if nothing can be done
with it. -/
inductive Acquires (t : Transport τ) (s : τ) : Option Nat → τ → Prop
  | nothing : t.Acquires s none s
  | refused {group : String} {e : TransportError} {s' : τ}
      (h : t.subscribe group s = (.error e, s')) : t.Acquires s none s'
  | released {group : String} {id : Nat} {s' : τ} (h : t.subscribe group s = (.ok id, s')) :
      t.Acquires s none (t.release id s')
  | held {group : String} {id : Nat} {s' : τ} (h : t.subscribe group s = (.ok id, s')) :
      t.Acquires s (some id) s'

variable {t : Transport τ} {group : String} {s s' : τ}

theorem Sends.uses (h : t.keeping.Sends group s s') (own : Option Nat) : t.Uses own s own s' := by
  cases h with
  | nothing => exact .nothing
  | one target bytes => exact .send .nothing group target bytes

theorem uses_posts (t : Transport τ) (own : Option Nat) (s : τ) (d : Draft) :
    t.Uses own s own (t.post d s) :=
  .send .nothing d.group d.target d.bytes

end Transport

namespace Bridge

variable {b b' : Bridge} {t : Transport τ} {s left : τ}

theorem own?_of_isOpen (h : b.isOpen = true) : b.own? = some b.subscription := if_pos h

theorem own?_of_closed (h : b.isOpen = false) : b.own? = none := if_neg (by simp [h])

theorem Spent.own?_eq (h : b.Spent b') : b'.own? = b.own? := by
  simp only [Bridge.own?, h.isOpen, h.subscription]

theorem Spent.close_eq (h : b.Spent b') (t : Transport τ) (s : τ) :
    (b'.close t s).2 = (b.close t s).2 := by
  simp only [close, h.isOpen, h.subscription]
  split <;> rfl

theorem uses_close (b : Bridge) (t : Transport τ) (s : τ) :
    t.Uses b.own? s none (b.close t s).2 := by
  cases hopen : b.isOpen with
  | true =>
    rw [own?_of_isOpen hopen, close, if_pos hopen]
    exact .release .nothing
  | false =>
    rw [own?_of_closed hopen, close, if_neg (by simp [hopen])]
    exact .nothing

theorem acquires_of_connect {g : Group} {result : Except Error Bridge}
    (h : connect g t s = (result, left)) : t.Acquires s (result.toOption.bind own?) left := by
  unfold connect at h
  split at h
  next =>
    cases h
    exact .nothing
  next =>
    split at h
    next hsubscribe =>
      cases h
      exact .refused hsubscribe
    next hsubscribe =>
      split at h
      next =>
        cases h
        exact .released hsubscribe
      next =>
        cases h
        exact .held hsubscribe

/-- A dispatcher whose answers are held back receives, and lets go of a feed that has ended. -/
theorem uses_step {event : Option Event} {owed : List Draft}
    (h : b.step t.drafting (s, []) = some (event, b', left, owed)) :
    t.Uses b.own? s b'.own? left := by
  by_cases hopen : b.isOpen = true
  · have howns := own?_of_isOpen hopen
    have hreceive : t.drafting.receive b.subscription (s, []) =
      ((t.receive b.subscription s).1, (t.receive b.subscription s).2, []) := rfl
    have huses : t.Uses b.own? s b.own? (t.receive b.subscription s).2 := by
      rw [howns]
      exact .receive .nothing
    rcases hr : t.receive b.subscription s with ⟨arrival, mid⟩
    rw [hr] at hreceive huses
    cases arrival with
    | nothing =>
      rw [step_of_nothing hopen hreceive] at h
      cases h
    | envelope inbound =>
      rw [step_of_envelope hopen hreceive] at h
      obtain ⟨drafts, hdraft, -, -⟩ := b.dispatch_drafting t inbound mid
      obtain ⟨-, hsubscription, -, hstill⟩ := (b.dispatches t inbound mid).kept
      have hb := Option.some.inj (hdraft ▸ h)
      cases hb
      simp only [Bridge.own?, hsubscription, hstill]
      exact huses
    | closed =>
      rw [step_of_end hopen hreceive, close_of_isOpen hopen] at h
      cases h
      have hgone : ({ b with isOpen := false } : Bridge).own? = none := own?_of_closed rfl
      rw [hgone]
      rw [howns] at huses ⊢
      exact .release huses
  · rw [step_of_closed (by simpa using hopen)] at h
    cases h

end Bridge

def Request.bridge? : Request σ α → Option Bridge
  | .refused _ => none
  | .begun x => x.bridge?

/-- A call that executes a plan, from the request to its return. Its dispatcher may be in the middle
of an answer, which it owes; when the execution has ended, the call waits for the dispatcher. -/
structure ExecuteCall (σ α : Type) where
  request : Request σ α
  /-- The bridge that waits for its dispatcher. -/
  closing : Option Bridge
  owed : List Draft

namespace ExecuteCall

def start (request : Request σ α) : ExecuteCall σ α := ⟨request, none, []⟩

/-- The bridge whose dispatcher is at work. -/
def bridge? (y : ExecuteCall σ α) : Option Bridge := y.closing.or y.request.bridge?

/-- The subscription that is held. -/
def own? (y : ExecuteCall σ α) : Option Nat := y.bridge?.bind Bridge.own?

def setBridge (y : ExecuteCall σ α) (b : Bridge) : ExecuteCall σ α :=
  match y.closing, y.request with
  | some _, _ => { y with closing := some b }
  | none, .begun x => { y with request := .begun (x.setBridge b) }
  | none, .refused _ => y

/-- The execution has gone on, and if it has ended, its bridge is to be closed. -/
def goOn (y : ExecuteCall σ α) (x x' : Execution σ α) : ExecuteCall σ α :=
  { y with
    request := .begun x'
    closing := if x'.bridge?.isSome then y.closing else y.closing.or x.bridge? }

inductive Act
  /-- The dispatcher handles what comes in next, up to the answer. -/
  | take
  | answer
  /-- The dispatcher notices that it is not needed any more. -/
  | stop
  | join (now : Nat)
  | round (now : Nat) (move : Rounds.Move)
  | tick (now : Nat)
deriving DecidableEq

/-- An act that is impossible changes nothing. -/
def act (p : Party σ α) (t : Transport τ) (y : ExecuteCall σ α) (s : τ) : Act → ExecuteCall σ α × τ
  | .take =>
    match y.owed, y.bridge? with
    | [], some b =>
      match b.step t.drafting (s, []) with
      | none => (y, s)
      | some (_, b', left, owed) => ({ y.setBridge b' with owed := owed }, left)
    | _, _ => (y, s)
  | .answer =>
    match y.owed with
    | [] => (y, s)
    | d :: owed => ({ y with owed := owed }, t.post d s)
  | .stop =>
    match y.owed, y.closing with
    | [], some b => ({ y with closing := none }, (b.close t s).2)
    | _, _ => (y, s)
  | .join now =>
    match y.request with
    | .refused _ => (y, s)
    | .begun x =>
      match x.join t.keeping now s with
      | none => (y, s)
      | some (_, x', left) => (y.goOn x x', left)
  | .round now move =>
    match y.request with
    | .refused _ => (y, s)
    | .begun x =>
      match x.round p t.keeping now move s with
      | none => (y, s)
      | some (_, x', left) => (y.goOn x x', left)
  | .tick now =>
    match y.request with
    | .refused _ => (y, s)
    | .begun x => ({ y with request := .begun (x.tick now) }, s)

/-- Only an execution that has ended is waiting for its dispatcher. -/
def Sound (y : ExecuteCall σ α) : Prop := y.closing.isSome → y.request.bridge? = none

/-- There is nothing left to do but to wait for the dispatcher. -/
def HasEnded (y : ExecuteCall σ α) : Prop := ∀ x, y.request = .begun x → x.result?.isSome

/-- The call has returned: it has its result, and its dispatcher has gone. -/
structure Returned (y : ExecuteCall σ α) : Prop where
  ended : y.HasEnded
  closed : y.closing = none
  answered : y.owed = []

instance (y : ExecuteCall σ α) : Decidable y.Returned :=
  decidable_of_iff ((match y.request with
      | .refused _ => true
      | .begun x => x.result?.isSome) = true ∧ y.closing.isNone ∧ y.owed.isEmpty) <| by
    obtain ⟨request, closing, owed⟩ := y
    simp only [Option.isNone_iff_eq_none, List.isEmpty_iff]
    constructor
    · rintro ⟨hended, hclosed, hanswered⟩
      exact ⟨fun x hx => by subst hx; exact hended, hclosed, hanswered⟩
    · rintro ⟨hended, hclosed, hanswered⟩
      cases request with
      | refused e => exact ⟨rfl, hclosed, hanswered⟩
      | begun x => exact ⟨hended x rfl, hclosed, hanswered⟩

variable {p : Party σ α} {t : Transport τ} {y : ExecuteCall σ α} {s s' : τ} {b b' : Bridge}
  {x x' : Execution σ α}

theorem sound_start (request : Request σ α) : (start request).Sound := nofun

theorem acquires_of_begin? {plan : Except Error (List Event × Plan)}
    {makeParty : Group → Except PartyError σ} {now elapsed : Nat} {events : List Event}
    {request : Request σ α}
    (h : Request.begin? plan t makeParty now elapsed s = some (events, request, s')) :
    t.Acquires s (start request).own? s' := by
  cases plan with
  | error e =>
    cases h
    exact .nothing
  | ok accepted =>
    obtain ⟨⟨more, x, left⟩, hx, he⟩ := Option.map_eq_some_iff.mp h
    cases he
    have howns : (start (.begun x)).own? = x.bridge?.bind Bridge.own? := rfl
    rw [howns]
    cases Execution.begins_of_begin? hx with
    | failed _ hphase =>
      simp only [Execution.bridge?, hphase]
      exact .nothing
    | refused _ hphase hconnect =>
      simp only [Execution.bridge?, hphase]
      exact Bridge.acquires_of_connect hconnect
    | bound _ _ hconnect hphase =>
      simp only [Execution.bridge?, hphase]
      exact Bridge.acquires_of_connect hconnect

theorem bridge?_setBridge (h : y.bridge? = some b) (b' : Bridge) :
    (y.setBridge b').bridge? = some b' := by
  obtain ⟨request, closing, owed⟩ := y
  cases closing with
  | some c => rfl
  | none =>
    cases request with
    | refused e => cases h
    | begun x => exact Execution.bridge?_setBridge h b'

theorem Sound.setBridge (h : y.Sound) (hb : y.bridge? = some b) (b' : Bridge) :
    (y.setBridge b').Sound := by
  obtain ⟨request, closing, owed⟩ := y
  cases closing with
  | some c => exact fun _ => h rfl
  | none =>
    cases request with
    | refused e => cases hb
    | begun x => nofun

/-- What an execution does is done to the transport, except that its end comes later. -/
theorem Sound.goOn (h : y.Sound) (hrequest : y.request = .begun x)
    (heffect : x.Effect t.keeping s x' s') :
    (y.goOn x x').Sound ∧ t.Uses y.own? s (y.goOn x x').own? s' := by
  obtain ⟨request, closing, owed⟩ := y
  cases hrequest
  cases heffect with
  | @live b b' _ _ hbridge hbridge' hspent hsends =>
    -- As long as the execution has a bridge, no bridge is waiting to be closed.
    have hnone : closing = none := by
      cases closing with
      | none => rfl
      | some c =>
        have hgone : x.bridge? = none := h rfl
        rw [hbridge] at hgone
        cases hgone
    subst hnone
    refine ⟨?_, ?_⟩
    · intro hclosing
      simp [ExecuteCall.goOn, hbridge'] at hclosing
    · have hsame : (ExecuteCall.goOn ⟨.begun x, none, owed⟩ x x').own? =
          (⟨.begun x, none, owed⟩ : ExecuteCall σ α).own? := by
        simp only [ExecuteCall.goOn, own?, bridge?, Request.bridge?, hbridge, hbridge',
          Option.isSome_some, if_true, Option.none_or, Option.bind_some, hspent.own?_eq]
      rw [hsame]
      exact hsends.uses _
  | @ends b b' _ mid hbridge hbridge' hspent hsends =>
    -- The execution closes its bridge in one move; here that is left to the dispatcher.
    have hkept : (b'.close t.keeping mid).2 = mid := by
      unfold Bridge.close
      split <;> rfl
    have hsame : (ExecuteCall.goOn ⟨.begun x, closing, owed⟩ x x').own? =
        (⟨.begun x, closing, owed⟩ : ExecuteCall σ α).own? := by
      simp [ExecuteCall.goOn, own?, bridge?, Request.bridge?, hbridge']
    rw [hkept, hsame]
    exact ⟨fun _ => hbridge', hsends.uses _⟩
  | ended hbridge hbridge' =>
    have hsame : (ExecuteCall.goOn ⟨.begun x, closing, owed⟩ x x').own? =
        (⟨.begun x, closing, owed⟩ : ExecuteCall σ α).own? := by
      simp [ExecuteCall.goOn, own?, bridge?, Request.bridge?, hbridge, hbridge']
    rw [hsame]
    exact ⟨fun _ => hbridge', .nothing⟩

/-- Each act uses the transport with what is held, and only with that. -/
theorem Sound.act (h : y.Sound) (p : Party σ α) (t : Transport τ) (s : τ) (a : Act) :
    (y.act p t s a).1.Sound ∧ t.Uses y.own? s (y.act p t s a).1.own? (y.act p t s a).2 := by
  cases a with
  | take =>
    unfold ExecuteCall.act
    dsimp only
    split
    next b howed hbridge =>
      split
      next => exact ⟨h, .nothing⟩
      next event b' left owed hstep =>
        refine ⟨h.setBridge hbridge b', ?_⟩
        have hbridge' :
            ({ y.setBridge b' with owed := owed } : ExecuteCall σ α).bridge? = some b' :=
          bridge?_setBridge hbridge b'
        simp only [own?, hbridge, hbridge', Option.bind_some]
        exact Bridge.uses_step hstep
    next => exact ⟨h, .nothing⟩
  | answer =>
    unfold ExecuteCall.act
    dsimp only
    split
    next => exact ⟨h, .nothing⟩
    next d owed howed => exact ⟨h, t.uses_posts _ s d⟩
  | stop =>
    unfold ExecuteCall.act
    dsimp only
    split
    next b howed hclosing =>
      have hgone : y.request.bridge? = none := h (by rw [hclosing]; rfl)
      have hbefore : y.own? = b.own? := by
        simp only [own?, bridge?, hclosing, Option.some_or, Option.bind_some]
      have hafter : ({ y with closing := none } : ExecuteCall σ α).own? = none := by
        simp only [own?, bridge?, hgone, Option.none_or, Option.bind_none]
      refine ⟨nofun, ?_⟩
      rw [hbefore, hafter]
      exact b.uses_close t s
    next => exact ⟨h, .nothing⟩
  | join now =>
    unfold ExecuteCall.act
    dsimp only
    split
    next => exact ⟨h, .nothing⟩
    next x hrequest =>
      split
      next => exact ⟨h, .nothing⟩
      next hjoin => exact h.goOn hrequest (Execution.joins_of_join hjoin).effect
  | round now move =>
    unfold ExecuteCall.act
    dsimp only
    split
    next => exact ⟨h, .nothing⟩
    next x hrequest =>
      split
      next => exact ⟨h, .nothing⟩
      next hround => exact h.goOn hrequest (Execution.turns_of_round hround).effect
  | tick now =>
    unfold ExecuteCall.act
    dsimp only
    split
    next => exact ⟨h, .nothing⟩
    next x hrequest =>
      obtain ⟨request, closing, owed⟩ := y
      cases hrequest
      exact ⟨h, .nothing⟩

theorem Returned.bridge?_eq (h : y.Returned) : y.bridge? = none := by
  obtain ⟨request, closing, owed⟩ := y
  obtain ⟨hended, hclosed, -⟩ := h
  cases hclosed
  cases request with
  | refused e => rfl
  | begun x =>
    obtain ⟨result, hresult⟩ := Option.isSome_iff_exists.mp (hended x rfl)
    obtain ⟨rest, hphase⟩ := Execution.exists_phase_of_result? hresult
    simp only [bridge?, Request.bridge?, Execution.bridge?, hphase, Option.or_none]

theorem Returned.own?_eq (h : y.Returned) : y.own? = none := by
  rw [own?, h.bridge?_eq, Option.bind_none]

/-- Nothing that follows a return has anything to do with the transport. -/
theorem Returned.act (h : y.Returned) (p : Party σ α) (t : Transport τ) (s : τ) (a : Act) :
    (y.act p t s a).1.Returned ∧ (y.act p t s a).2 = s := by
  have hbridge := h.bridge?_eq
  obtain ⟨request, closing, owed⟩ := y
  obtain ⟨hended, hclosed, hanswered⟩ := h
  cases hclosed
  cases hanswered
  have hreturned : (⟨request, none, []⟩ : ExecuteCall σ α).Returned := ⟨hended, rfl, rfl⟩
  cases request with
  | refused e => cases a <;> exact ⟨hreturned, rfl⟩
  | begun x =>
    obtain ⟨result, hresult⟩ := Option.isSome_iff_exists.mp (hended x rfl)
    obtain ⟨rest, hphase⟩ := Execution.exists_phase_of_result? hresult
    cases a with
    | take =>
      unfold ExecuteCall.act
      dsimp only
      rw [hbridge]
      exact ⟨hreturned, rfl⟩
    | answer => exact ⟨hreturned, rfl⟩
    | stop => exact ⟨hreturned, rfl⟩
    | join now =>
      simp only [ExecuteCall.act, Execution.join, hphase]
      exact ⟨hreturned, trivial⟩
    | round now move =>
      simp only [ExecuteCall.act]
      split
      next => exact ⟨hreturned, rfl⟩
      next hround =>
        cases Execution.turns_of_round hround with
        | goOn hphase' _ _ => cases hphase.symm.trans hphase'
        | ends hphase' _ _ => cases hphase.symm.trans hphase'
        | afterEnd _ _ =>
          refine ⟨⟨?_, ?_, rfl⟩, rfl⟩
          · rintro _ ⟨⟩
            rfl
          · simp [goOn, Execution.bridge?, hphase]
    | tick now => exact ⟨⟨fun _ hx => by cases hx; exact hended x rfl, rfl, rfl⟩, rfl⟩

/-- Performs acts one after the other. -/
def perform (p : Party σ α) (t : Transport τ) : List Act → ExecuteCall σ α → τ → ExecuteCall σ α × τ
  | [], y, s => (y, s)
  | a :: acts, y, s => perform p t acts (y.act p t s a).1 (y.act p t s a).2

/-- Once the dispatcher has answered what it owes, it stops, and the call returns. -/
theorem HasEnded.returns (h : y.HasEnded) (p : Party σ α) (t : Transport τ) (s : τ) :
    (perform p t (List.replicate y.owed.length .answer ++ [.stop]) y s).1.Returned := by
  obtain ⟨request, closing, owed⟩ := y
  induction owed generalizing s with
  | nil =>
    cases closing with
    | none => exact ⟨h, rfl, rfl⟩
    | some b => exact ⟨h, rfl, rfl⟩
  | cons d owed ih => exact ih (t.post d s) h

/-- What an execution does by itself, told of the same execution where its end comes later. -/
inductive Delays (t : Transport τ) (x x' : Execution σ α) (s' : τ) : τ → Prop
  | live (hbridge : x'.bridge?.isSome) : Delays t x x' s' s'
  | ends {b : Bridge} {left : τ} (hbridge : x.bridge? = some b) (hbridge' : x'.bridge? = none)
      (hclose : s' = (b.close t left).2) : Delays t x x' s' left
  | ended (hbridge : x.bridge? = none) (hbridge' : x'.bridge? = none) : Delays t x x' s' s'

theorem Delays.act_stop {left : τ} (h : Delays t x x' s' left) :
    ((start (.begun x)).goOn x x').act p t left .stop = (start (.begun x'), s') := by
  cases h with
  | live hbridge => simp [goOn, start, ExecuteCall.act, hbridge]
  | ends hbridge hbridge' hclose => simp [goOn, start, ExecuteCall.act, hbridge, hbridge', hclose]
  | ended hbridge hbridge' => simp [goOn, start, ExecuteCall.act, hbridge, hbridge']

/-- A move of the barrier is an act, with the end of the dispatcher if it was the last. -/
theorem act_stop_act_join {now : Nat} {events : List Event}
    (h : x.join t now s = some (events, x', s')) :
    ((start (.begun x)).act p t s (.join now)).1.act p t
      ((start (.begun x)).act p t s (.join now)).2 .stop = (start (.begun x'), s') := by
  obtain ⟨left, hkeeping, hdelays⟩ : ∃ left, x.join t.keeping now s = some (events, x', left) ∧
      Delays t x x' s' left := by
    unfold Execution.join at h ⊢
    split at h
    next bridge barrier party hphase =>
      obtain ⟨⟨barrier', bridge', left⟩, hb, he⟩ := Option.map_eq_some_iff.mp h
      have hkeeping : barrier.step bridge t.keeping x.deadline now s =
        some (barrier', bridge', left) := hb
      have hclose : (bridge'.close t.keeping left).2 = left := by
        unfold Bridge.close
        split <;> rfl
      simp only [hkeeping, Option.map_some]
      dsimp only at he
      split at he
      next hresult =>
        cases he
        exact ⟨s', rfl, .live rfl⟩
      next hresult =>
        cases he
        exact ⟨s', rfl, .live rfl⟩
      next e hresult =>
        cases he
        have hspent := (Barrier.steps_of_step hb).2.spent
        refine ⟨left, ?_, .ends (Execution.bridge?_of_joining hphase) rfl (hspent.close_eq t left)⟩
        simp only [Execution.close, hclose]
    next => cases h
  have hact : (start (.begun x)).act p t s (.join now) = ((start (.begun x)).goOn x x', left) := by
    simp only [act, start, hkeeping]
  rw [hact]
  exact hdelays.act_stop

/-- A move of the rounds is an act, with the end of the dispatcher if it was the last. -/
theorem act_stop_act_round {now : Nat} {move : Rounds.Move} {events : List Event}
    (h : x.round p t now move s = some (events, x', s')) :
    ((start (.begun x)).act p t s (.round now move)).1.act p t
      ((start (.begun x)).act p t s (.round now move)).2 .stop = (start (.begun x'), s') := by
  obtain ⟨left, hkeeping, hdelays⟩ : ∃ left,
      x.round p t.keeping now move s = some (events, x', left) ∧ Delays t x x' s' left := by
    unfold Execution.round at h ⊢
    split at h
    next b r hphase =>
      obtain ⟨⟨r', b', left⟩, hr, he⟩ := Option.map_eq_some_iff.mp h
      have hkeeping : r.step p t.keeping x.deadline move b s = some (r', b', left) := hr
      have hclose : (b'.close t.keeping left).2 = left := by
        unfold Bridge.close
        split <;> rfl
      simp only [hkeeping, Option.map_some]
      dsimp only at he
      split at he
      next result hwatch =>
        cases he
        have hspent := (Rounds.steps_of_step hr).spent
        refine ⟨left, ?_, .ends (Execution.bridge?_of_rounds hphase) rfl (hspent.close_eq t left)⟩
        simp only [Execution.close, hclose]
      next hwatch =>
        cases he
        exact ⟨s', rfl, .live rfl⟩
    next result r hphase =>
      split at h
      next hmove =>
        obtain ⟨r', hwork, he⟩ := Option.map_eq_some_iff.mp h
        cases he
        refine ⟨s, ?_, .ended (by simp only [Execution.bridge?, hphase]) rfl⟩
        simp only [hmove, if_true, hwork, Option.map_some]
      next => cases h
    next => cases h
  have hact : (start (.begun x)).act p t s (.round now move) =
      ((start (.begun x)).goOn x x', left) := by
    simp only [act, start, hkeeping]
  rw [hact]
  exact hdelays.act_stop

/-- The two halves of a dispatch make up the whole of it. -/
theorem act_answer_act_take {events : List Event} (h : x.dispatch t s = some (events, x', s')) :
    ((start (.begun x)).act p t s .take).1.act p t
      ((start (.begun x)).act p t s .take).2 .answer = (start (.begun x'), s') := by
  rw [Execution.dispatch_eq] at h
  obtain ⟨b, hbridge, hmap⟩ := Option.bind_eq_some_iff.mp h
  obtain ⟨⟨event, b', _⟩, hstep, he⟩ := Option.map_eq_some_iff.mp hmap
  cases he
  have hat : (start (.begun x)).bridge? = some b := by
    simp only [start, bridge?, Request.bridge?, hbridge, Option.none_or]
  have htake {drafts : List Draft} {mid : τ}
      (hdraft : b.step t.drafting (s, []) = some (event, b', mid, drafts)) :
      (start (.begun x)).act p t s .take =
        (⟨.begun (x.setBridge b'), none, drafts⟩, mid) := by
    have howed : (start (.begun x)).owed = [] := rfl
    simp only [act, howed, hat, hdraft]
    rfl
  have hreceive : t.drafting.receive b.subscription (s, []) =
    ((t.receive b.subscription s).1, (t.receive b.subscription s).2, []) := rfl
  cases Bridge.steps_of_step hstep with
  | @take inbound mid _ _ _ hopen hr hdispatch =>
    rw [hr] at hreceive
    obtain ⟨drafts, hdraft, hleft, hdrafts⟩ := b.dispatch_drafting t inbound mid
    rw [hdispatch] at hdraft hleft
    rw [htake ((Bridge.step_of_envelope hopen hreceive).trans (congrArg some hdraft))]
    dsimp only at hleft
    rcases hdrafts with rfl | rfl
    · rw [hleft]
      rfl
    · rw [hleft]
      rfl
  | shut hopen hr =>
    rw [hr] at hreceive
    have hdraft := Bridge.step_of_end hopen hreceive
    rw [Bridge.close_of_isOpen hopen] at hdraft
    rw [htake hdraft]
    rfl

theorem exists_acts_of_step {now : Nat} {move : Execution.Move} {events : List Event}
    (h : x.step p t now move s = some (events, x', s')) :
    ∃ first second, ((start (.begun x)).act p t s first).1.act p t
      ((start (.begun x)).act p t s first).2 second = (start (.begun x'), s') := by
  cases move with
  | dispatch => exact ⟨.take, .answer, act_answer_act_take h⟩
  | join => exact ⟨.join now, .stop, act_stop_act_join h⟩
  | rounds move => exact ⟨.round now move, .stop, act_stop_act_round h⟩

theorem returned_start (h : x.result?.isSome) : (start (.begun x)).Returned :=
  ⟨fun _ hx => by cases hx; exact h, rfl, rfl⟩

end ExecuteCall

end ThresholdSigning
