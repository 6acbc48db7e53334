import ThresholdSigning.Proofs.Outcome

namespace ThresholdSigning

variable {σ α τ : Type}

namespace EventKind

/-- The kinds of event that report the end of an execution. -/
def isTerminal : EventKind → Bool
  | executionCompleted => true
  | executionFailed => true
  | executionTimeout => true
  | _ => false

/-- What an end is to be reported as. -/
def ofResult : Except Error α → EventKind
  | .ok _ => executionCompleted
  | .error e => if e.isTimeout then executionTimeout else executionFailed

theorem isTerminal_ofResult (result : Except Error α) : (ofResult result).isTerminal = true := by
  unfold ofResult
  split
  next => rfl
  next => split <;> rfl

theorem executionCompleted_eq_ofResult_iff {result : Except Error α} :
    executionCompleted = ofResult result ↔ ∃ output, result = .ok output := by
  cases result with
  | ok output => exact ⟨fun _ => ⟨output, rfl⟩, fun _ => rfl⟩
  | error e =>
    constructor
    · intro h
      simp only [ofResult] at h
      split at h <;> cases h
    · rintro ⟨output, houtput⟩
      cases houtput

end EventKind

/-- No end is reported. -/
def Quiet (log : List Event) : Prop := ∀ e ∈ log, e.kind.isTerminal = false

theorem quiet_nil : Quiet [] := List.forall_mem_nil _

theorem quiet_append {log log' : List Event} : Quiet (log ++ log') ↔ Quiet log ∧ Quiet log' :=
  List.forall_mem_append

theorem quiet_singleton {e : Event} : Quiet [e] ↔ e.kind.isTerminal = false := by
  simp only [Quiet, List.mem_singleton, forall_eq]

theorem Quiet.ne_of_isTerminal {log : List Event} {e : Event} {k : EventKind} (h : Quiet log)
    (hmem : e ∈ log) (hk : k.isTerminal = true) : e.kind ≠ k := by
  rintro rfl
  have hquiet := h e hmem
  rw [hk] at hquiet
  cases hquiet

namespace Plan

variable {plan : Plan} {result : Except Error α} {log rest : List Event} {last : Event}

/-- An event that reports the end of an execution of the plan, as what it was. -/
structure Reports (plan : Plan) (result : Except Error α) (last : Event) : Prop where
  kind : last.kind = .ofResult result
  execution : last.correlationId = some plan.group.id
  member : last.member = some plan.group.localMember.text
  protocol : last.protocol = some plan.protocol.name
  error : last.error = match result with
    | .ok _ => none
    | .error e => some e.message

/-- The end is reported once, after everything else. -/
def Reported (plan : Plan) (result : Except Error α) (log : List Event) : Prop :=
  ∃ before last, log = before ++ [last] ∧ plan.Reports result last ∧ Quiet before

theorem reports_ended (plan : Plan) (elapsed : Nat) (result : Except Error α) :
    plan.Reports result (plan.ended elapsed result) := by
  cases result with
  | ok output => exact ⟨rfl, rfl, rfl, rfl, rfl⟩
  | error e => exact ⟨rfl, rfl, rfl, rfl, rfl⟩

theorem Reports.isTerminal (h : plan.Reports result last) : last.kind.isTerminal = true := by
  rw [h.kind, EventKind.isTerminal_ofResult]

theorem not_reported_of_quiet (h : Quiet log) : ¬ plan.Reported result log := by
  rintro ⟨before, last, rfl, hlast, -⟩
  have hquiet := quiet_singleton.mp (quiet_append.mp h).2
  rw [hlast.isTerminal] at hquiet
  cases hquiet

theorem quiet_started (plan : Plan) : Quiet [plan.started] := quiet_singleton.mpr rfl

/-- Ways for an execution of the plan to end before there is a bridge. -/
inductive Abandons (plan : Plan) (t : Transport τ) (makeParty : Group → Except PartyError σ)
    (elapsed : Nat) (s : τ) : Error → Prop
  | setup {e : PartyError} (hmade : makeParty plan.group = .error e) :
      plan.Abandons t makeParty elapsed s (.protocolFailure e.cause)
  | connection {party : σ} {e : Error} {left : τ} (hmade : makeParty plan.group = .ok party)
      (htime : Deadline.nanosOf elapsed < plan.timeout.inNanos)
      (hconnect : Bridge.connect plan.group t s = (.error e, left)) :
      plan.Abandons t makeParty elapsed s e

theorem Abandons.unique {t : Transport τ} {makeParty : Group → Except PartyError σ} {elapsed : Nat}
    {s : τ} {e e' : Error} (h : plan.Abandons t makeParty elapsed s e)
    (h' : plan.Abandons t makeParty elapsed s e') : e' = e := by
  cases h with
  | setup hmade =>
    cases h' with
    | setup hmade' =>
      cases hmade.symm.trans hmade'
      rfl
    | connection hmade' _ _ => cases hmade.symm.trans hmade'
  | connection hmade _ hconnect =>
    cases h' with
    | setup hmade' => cases hmade.symm.trans hmade'
    | connection _ _ hconnect' =>
      cases hconnect.symm.trans hconnect'
      rfl

end Plan

theorem Bridge.kind_of_step {b b' : Bridge} {t : Transport τ} {s s' : τ} {event : Option Event}
    (h : b.step t s = some (event, b', s')) : ∀ e ∈ event, e.kind = .messageDropped := by
  cases steps_of_step h with
  | @take inbound left _ _ _ _ _ hdispatch =>
    have hevent : (b.dispatch t inbound left).1 = event := by rw [hdispatch]
    rw [← hevent]
    unfold dispatch
    split
    next =>
      rintro _ ⟨⟩
      rfl
    next => rintro _ ⟨⟩
  | shut _ _ => rintro _ ⟨⟩

namespace Execution

variable {p : Party σ α} {t : Transport τ} {x x' : Execution σ α} {now : Nat} {s s' : τ}
  {events : List Event}

/-- What an execution has ended with, if all went well. -/
def output? (x : Execution σ α) : Option α := x.result?.bind Except.toOption

theorem output?_eq_some_iff {output : α} :
    x.output? = some output ↔ x.result? = some (.ok output) := by
  constructor
  · intro h
    obtain ⟨result, hended, hok⟩ := Option.bind_eq_some_iff.mp h
    cases result with
    | error e => cases hok
    | ok _ =>
      cases hok
      exact hended
  · intro h
    rw [output?, h]
    rfl

theorem quiet_barrierEvents (plan : Plan) (e : Error) : Quiet (barrierEvents plan e) := by
  unfold barrierEvents
  split
  next => exact quiet_singleton.mpr rfl
  next => exact quiet_nil

/-- All that a step can log. -/
inductive Tells (x : Execution σ α) : List Event → Execution σ α → Prop
  | goesOn {events : List Event} {x' : Execution σ α} (hgoing : x.result? = none)
      (hgoing' : x'.result? = none) (hquiet : Quiet events) : x.Tells events x'
  | ends {before : List Event} {elapsed : Nat} {result : Except Error α} {x' : Execution σ α}
      (hgoing : x.result? = none) (hended : x'.result? = some result) (hquiet : Quiet before) :
      x.Tells (before ++ [x.plan.ended elapsed result]) x'
  | rests {result : Except Error α} {x' : Execution σ α} (hended : x.result? = some result)
      (hended' : x'.result? = some result) : x.Tells [] x'

theorem Joins.tells (h : x.Joins t now s events x' s') : x.Tells events x' := by
  have hgoing {bridge : Bridge} {barrier : Barrier} {party : σ}
      (hphase : x.phase = .joining bridge barrier party) : x.result? = none :=
    result?_of_bridge? (bridge?_of_joining hphase)
  cases h with
  | wait hphase _ _ _ => exact .goesOn (hgoing hphase) rfl quiet_nil
  | pass hphase _ _ _ => exact .goesOn (hgoing hphase) rfl (quiet_singleton.mpr rfl)
  | fail hphase _ _ _ => exact .ends (hgoing hphase) rfl (quiet_barrierEvents _ _)

theorem Turns.tells (h : x.Turns p t now s events x' s') : x.Tells events x' := by
  cases h with
  | goOn hphase _ _ =>
    exact .goesOn (result?_of_bridge? (bridge?_of_rounds hphase)) rfl quiet_nil
  | ends hphase _ _ =>
    exact .ends (result?_of_bridge? (bridge?_of_rounds hphase)) rfl quiet_nil
  | afterEnd hphase _ => exact .rests (by simp only [result?, hphase]) rfl

theorem Steps.tells (h : x.Steps p t now s events x' s') : x.Tells events x' := by
  cases h with
  | @dispatch bridge bridge' event left hbridge hstep =>
    have hgoing := result?_of_bridge? hbridge
    refine .goesOn hgoing ((result?_setBridge bridge').trans hgoing) ?_
    intro e he
    rw [Bridge.kind_of_step hstep e (Option.mem_toList.mp he)]
    rfl
  | join hjoins => exact hjoins.tells
  | round hturns => exact hturns.tells

end Execution

/-- A request with all that was logged of it. -/
structure Report (σ α : Type) where
  request : Request σ α
  log : List Event

namespace Report

/-- What a request can become with its log. Between two steps anything may happen to the transport,
and the timer may have its turn. -/
inductive Becomes (p : Party σ α) (t : Transport τ) (r : Report σ α) : Report σ α → Prop
  | refl : r.Becomes p t r
  | step {x x' : Execution σ α} {log events : List Event} {move : Execution.Move} {now : Nat}
      {s s' : τ} (h : r.Becomes p t ⟨.begun x, log⟩)
      (hstep : x.step p t now move s = some (events, x', s')) :
      r.Becomes p t ⟨.begun x', log ++ events⟩
  | tick {x : Execution σ α} {log : List Event} (h : r.Becomes p t ⟨.begun x, log⟩) (now : Nat) :
      r.Becomes p t ⟨.begun (x.tick now), log⟩

variable {p : Party σ α} {t : Transport τ} {plan : Plan}
  {makeParty : Group → Except PartyError σ} {x x' : Execution σ α} {r r' : Report σ α}
  {now elapsed : Nat} {move : Execution.Move} {s s' left : τ} {log events : List Event}

theorem Becomes.request (h : r.Becomes p t r') : r.request.Becomes p t r'.request := by
  induction h with
  | refl => exact .refl
  | step _ hstep ih => exact ih.step hstep
  | tick _ now ih => exact ih.tick now

/-- The log is a record beside the request: every run of the request has one. -/
theorem exists_becomes_iff {start next : Request σ α} :
    (∃ log', (Report.mk start log).Becomes p t ⟨next, log'⟩) ↔ start.Becomes p t next := by
  constructor
  · rintro ⟨log', h⟩
    exact h.request
  · intro h
    induction h with
    | refl => exact ⟨log, .refl⟩
    | step _ hstep ih =>
      obtain ⟨log', h⟩ := ih
      exact ⟨_, h.step hstep⟩
    | tick _ now ih =>
      obtain ⟨log', h⟩ := ih
      exact ⟨_, h.tick now⟩

theorem Becomes.eq_of_refused {e : Error} (h : r.Becomes p t r') (hr : r.request = .refused e) :
    r' = r := by
  induction h with
  | refl => rfl
  | step _ _ ih =>
    rw [← ih] at hr
    cases hr
  | tick _ _ ih =>
    rw [← ih] at hr
    cases hr

/-- What is known of the log of an execution that may have been abandoned at its beginning. -/
inductive Told (plan : Plan) (abandons : Error → Prop) : Report σ α → Prop
  | going {x : Execution σ α} {rest : List Event} (hkept : ∀ e, ¬ abandons e)
      (hplan : x.plan = plan) (hgoing : x.result? = none) (hquiet : Quiet rest) :
      Told plan abandons ⟨.begun x, plan.started :: rest⟩
  | reported {x : Execution σ α} {rest : List Event} {last : Event} {result : Except Error α}
      (hkept : ∀ e, ¬ abandons e) (hended : x.result? = some result) (hquiet : Quiet rest)
      (hlast : plan.Reports result last) :
      Told plan abandons ⟨.begun x, plan.started :: rest ++ [last]⟩
  | silent {x : Execution σ α} {e : Error} (habandons : abandons e)
      (hended : x.result? = some (.error e)) : Told plan abandons ⟨.begun x, [plan.started]⟩

variable {abandons : Error → Prop}

theorem told_begun (h : Execution.begin? plan t makeParty now elapsed s = some (events, x, left)) :
    Told plan (plan.Abandons t makeParty elapsed s) ⟨.begun x, events⟩ := by
  unfold Execution.begin? at h
  split at h
  next => cases h
  next deadline hstart =>
    have hexpires : deadline.expiresAt ≤ now + elapsed ↔
        plan.timeout.inNanos ≤ Deadline.nanosOf elapsed :=
      Deadline.expiresAt_le_iff_of_start? hstart
    split at h
    next hmade =>
      cases h
      exact .silent (.setup hmade) rfl
    next party hmade =>
      split at h
      next hlate =>
        cases h
        have hkept (e : Error) : ¬ plan.Abandons t makeParty elapsed s e := by
          intro habandons
          cases habandons with
          | setup hfailed => cases hmade.symm.trans hfailed
          | connection _ htime _ => omega
        exact .reported hkept rfl quiet_nil (plan.reports_ended elapsed _)
      next hearly =>
        rw [Option.some.injEq, Prod.mk.injEq] at h
        obtain ⟨rfl, hx⟩ := h
        unfold Execution.connect at hx
        split at hx
        next hconnect =>
          cases hx
          exact .silent (.connection hmade (by omega) hconnect) rfl
        next bridge after hconnect =>
          cases hx
          refine .going ?_ rfl rfl quiet_nil
          intro e habandons
          cases habandons with
          | setup hfailed => cases hmade.symm.trans hfailed
          | connection _ _ hrefused => cases hconnect.symm.trans hrefused

theorem Told.step (h : Told plan abandons ⟨.begun x, log⟩)
    (hstep : x.step p t now move s = some (events, x', s')) :
    Told plan abandons ⟨.begun x', log ++ events⟩ := by
  have hsteps := Execution.steps_of_step hstep
  have htells := hsteps.tells
  cases h with
  | @going _ rest hkept hplan hgoing hquiet =>
    cases htells with
    | goesOn _ hgoing' hmore =>
      exact .going hkept (hsteps.plan_eq.trans hplan) hgoing' (quiet_append.mpr ⟨hquiet, hmore⟩)
    | @ends before elapsed result _ _ hended hmore =>
      rw [hplan, ← List.append_assoc]
      exact .reported hkept hended (quiet_append.mpr ⟨hquiet, hmore⟩) (plan.reports_ended _ _)
    | rests hended _ => cases hgoing.symm.trans hended
  | @reported _ rest last result hkept hended hquiet hlast =>
    cases htells with
    | goesOn hgoing _ _ => cases hgoing.symm.trans hended
    | ends hgoing _ _ => cases hgoing.symm.trans hended
    | rests hended' hended'' =>
      cases hended.symm.trans hended'
      rw [List.append_nil]
      exact .reported hkept hended'' hquiet hlast
  | silent habandons hended =>
    cases htells with
    | goesOn hgoing _ _ => cases hgoing.symm.trans hended
    | ends hgoing _ _ => cases hgoing.symm.trans hended
    | rests hended' hended'' =>
      cases hended.symm.trans hended'
      exact .silent habandons hended''

theorem Told.becomes (h : Told plan abandons r) (hbecomes : r.Becomes p t r') :
    Told plan abandons r' := by
  induction hbecomes with
  | refl => exact h
  | step _ hstep ih => exact ih.step hstep
  | tick _ now ih =>
    cases ih with
    | going hkept hplan hgoing hquiet => exact .going hkept hplan hgoing hquiet
    | reported hkept hended hquiet hlast => exact .reported hkept hended hquiet hlast
    | silent habandons hended => exact .silent habandons hended

/-- Whatever the party, the transport, the traffic and the timing are: an execution is reported as
started first of all, and not as ended before it is; its end is reported once, last and as what it
was, unless the execution was abandoned before there was a bridge. Of an abandoned one nothing but
the start is ever logged. -/
theorem reported_iff_not_abandons
    (hbegin : Execution.begin? plan t makeParty now elapsed s = some (events, x, left))
    (h : (Report.mk (.begun x) events).Becomes p t ⟨.begun x', log⟩) :
    log.head? = some plan.started ∧ (x'.result? = none → Quiet log) ∧
      (∀ result, x'.result? = some result →
        (plan.Reported result log ↔ ∀ e, ¬ plan.Abandons t makeParty elapsed s e)) ∧
      ∀ e, plan.Abandons t makeParty elapsed s e →
        x'.result? = some (.error e) ∧ log = [plan.started] := by
  have hstarted := plan.quiet_started
  cases (told_begun hbegin).becomes h with
  | @going _ rest hkept _ hgoing hquiet =>
    refine ⟨rfl, fun _ => quiet_append.mpr ⟨hstarted, hquiet⟩, ?_, ?_⟩
    · intro result hended
      cases hgoing.symm.trans hended
    · intro e habandons
      exact absurd habandons (hkept e)
  | @reported _ rest last result hkept hended hquiet hlast =>
    refine ⟨rfl, ?_, ?_, ?_⟩
    · intro hgoing
      cases hgoing.symm.trans hended
    · intro result' hended'
      cases hended.symm.trans hended'
      have hbefore : Quiet (plan.started :: rest) := quiet_append.mpr ⟨hstarted, hquiet⟩
      exact ⟨fun _ => hkept, fun _ => ⟨_, last, rfl, hlast, hbefore⟩⟩
    · intro e habandons
      exact absurd habandons (hkept e)
  | @silent _ e habandons hended =>
    refine ⟨rfl, fun _ => hstarted, ?_, ?_⟩
    · intro result _
      constructor
      · intro hreported
        exact absurd hreported (Plan.not_reported_of_quiet hstarted)
      · intro hkept
        exact absurd habandons (hkept e)
    · intro e' habandons'
      rw [habandons.unique habandons']
      exact ⟨hended, rfl⟩

/-- Performs moves one after the other at one moment, unless one is impossible. -/
def run? (p : Party σ α) (t : Transport τ) (now : Nat) :
    List Execution.Move → Execution σ α → List Event → τ → Option (Execution σ α × List Event)
  | [], x, log, _ => some (x, log)
  | move :: moves, x, log, s =>
    match x.step p t now move s with
    | none => none
    | some (events, x, s) => run? p t now moves x (log ++ events) s

theorem Becomes.run? {moves : List Execution.Move} (h : r.Becomes p t ⟨.begun x, log⟩)
    {log' : List Event} (hrun : run? p t now moves x log s = some (x', log')) :
    r.Becomes p t ⟨.begun x', log'⟩ := by
  induction moves generalizing x log s with
  | nil =>
    cases hrun
    exact h
  | cons move moves ih =>
    unfold Report.run? at hrun
    split at hrun
    next => cases hrun
    next hstep => exact ih (h.step hstep) hrun

/-- A signing that is completed, with its log. -/
def completed : Option (Execution Nat Unit × List Event) :=
  (Execution.begin? Chronicle.signingPlan (Link.transport Screening.b) (fun _ => .ok 0) 0 0
      Chronicle.mailbox).bind
    fun (events, x, l) =>
      run? Chronicle.picky (Link.transport Screening.b) 0 Chronicle.course x events l

theorem view_completed :
    (completed.map fun r => (r.1.output?, r.2.map Event.kind)) =
      some (some (), [.executionStarted, .joinCompleted, .executionCompleted]) := by
  decide +kernel

theorem reported_completed :
    ∃ events x left x' log,
      Execution.begin? Chronicle.signingPlan (Link.transport Screening.b) (fun _ => .ok 0) 0 0
          Chronicle.mailbox = some (events, x, left) ∧
        (Report.mk (.begun x) events).Becomes Chronicle.picky (Link.transport Screening.b)
          ⟨.begun x', log⟩ ∧
        x'.result? = some (.ok ()) ∧
        Chronicle.signingPlan.Reported (.ok () : Except Error Unit) log := by
  obtain ⟨⟨x', log⟩, hcompleted, hview⟩ := Option.map_eq_some_iff.mp view_completed
  obtain ⟨⟨events, x, left⟩, hbegin, hrun⟩ := Option.bind_eq_some_iff.mp hcompleted
  obtain ⟨houtput, hkinds⟩ := Prod.mk.inj hview
  have hended : x'.result? = some (.ok ()) := Execution.output?_eq_some_iff.mp houtput
  have hbecomes := Becomes.refl.run? hrun
  obtain ⟨-, -, hreported, hsilent⟩ := reported_iff_not_abandons hbegin hbecomes
  refine ⟨events, x, left, x', log, hbegin, hbecomes, hended, (hreported _ hended).mpr ?_⟩
  intro e habandons
  rw [(hsilent e habandons).2] at hkinds
  cases hkinds

theorem view_foreign :
    ((Execution.begin? Chronicle.signingPlan (Link.transport Screening.a) (fun _ => .ok 0) 0 0
        Chronicle.mailbox).map fun r =>
      (r.1, ((r.2.1 : Execution Nat Unit).result?).isSome)) =
      some ([Chronicle.signingPlan.started], true) := by
  decide +kernel

/-- The end goes unreported where the party cannot be set up, and where the transport is another
member's. -/
theorem unreported_refusals :
    (∃ events x left result,
      Execution.begin? Chronicle.signingPlan (Link.transport Screening.b)
          (fun _ => .error (.failure "cannot set up")) 0 0 Chronicle.mailbox =
            some (events, (x : Execution Nat Unit), left) ∧
        x.result? = some result ∧ ¬ Chronicle.signingPlan.Reported result events) ∧
      ∃ events x left result,
        Execution.begin? Chronicle.signingPlan (Link.transport Screening.a) (fun _ => .ok 0) 0 0
            Chronicle.mailbox = some (events, (x : Execution Nat Unit), left) ∧
          x.result? = some result ∧ ¬ Chronicle.signingPlan.Reported result events := by
  have hunreported (result : Except Error Unit) :
      ¬ Chronicle.signingPlan.Reported result [Chronicle.signingPlan.started] :=
    Plan.not_reported_of_quiet Chronicle.signingPlan.quiet_started
  obtain ⟨⟨events, x, left⟩, hbegin, hview⟩ := Option.map_eq_some_iff.mp view_foreign
  obtain ⟨rfl, hended⟩ := Prod.mk.inj hview
  obtain ⟨result, hresult⟩ := Option.isSome_iff_exists.mp hended
  constructor
  · exact ⟨_, _, _, _, rfl, rfl, hunreported _⟩
  · exact ⟨_, x, left, result, hbegin, hresult, hunreported result⟩

end Report

end ThresholdSigning
