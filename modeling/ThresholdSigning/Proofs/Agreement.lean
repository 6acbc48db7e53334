import ThresholdSigning.Proofs.Group
import ThresholdSigning.Proofs.Report
import ThresholdSigning.Proofs.Signing

namespace ThresholdSigning

variable {σ α β τ : Type}

/-- An event of some kind about the execution of an id is in the log. -/
def Logged (id : String) (k : EventKind) (log : List Event) : Prop :=
  ∃ e ∈ log, e.kind = k ∧ e.correlationId = some id

instance (id : String) (k : EventKind) (log : List Event) : Decidable (Logged id k log) :=
  inferInstanceAs (Decidable (∃ e ∈ log, e.kind = k ∧ e.correlationId = some id))

/-- The log of an execution and what its caller got say the same: it is logged as completed exactly
if the caller got something, and once it is logged as started so is the end that an error means. -/
structure Agrees (id : String) (log : List Event) (result : Except Error β) : Prop where
  completed : Logged id .executionCompleted log ↔ ∃ b, result = .ok b
  failed : Logged id .executionStarted log → ∀ e, result = .error e →
    Logged id .executionFailed log ∨ Logged id .executionTimeout log

section

variable {plan : Plan} {result : Except Error α} {log rest : List Event} {last : Event}
  {id : String} {k : EventKind}

theorem not_logged_nil : ¬ Logged id k [] := by
  rintro ⟨e, hmem, -⟩
  cases hmem

/-- Nothing needs to be logged of what was not begun. -/
theorem agrees_nil (id : String) (e : Error) : Agrees id [] (.error e : Except Error β) where
  completed := by
    refine ⟨fun hlogged => absurd hlogged not_logged_nil, ?_⟩
    rintro ⟨b, hb⟩
    cases hb
  failed := fun hlogged => absurd hlogged not_logged_nil

theorem Quiet.not_logged (h : Quiet log) (hk : k.isTerminal = true) : ¬ Logged id k log := by
  rintro ⟨e, hmem, hkind, -⟩
  exact h.ne_of_isTerminal hmem hk hkind

theorem logged_started (plan : Plan) (rest : List Event) :
    Logged plan.group.id .executionStarted (plan.started :: rest) :=
  ⟨plan.started, List.mem_cons_self, rfl, rfl⟩

theorem not_agrees_of_abandoned (plan : Plan) (e : Error) :
    ¬ Agrees plan.group.id [plan.started] (.error e : Except Error β) := by
  intro hagrees
  have hquiet := plan.quiet_started
  rcases hagrees.failed (logged_started plan []) e rfl with hfailed | htimeout
  · exact hquiet.not_logged rfl hfailed
  · exact hquiet.not_logged rfl htimeout

/-- Of the kinds of event that report an end, only that of the result is logged. -/
theorem Plan.Reports.logged_iff (hlast : plan.Reports result last) (hquiet : Quiet rest)
    (hk : k.isTerminal = true) :
    Logged plan.group.id k (plan.started :: rest ++ [last]) ↔ k = .ofResult result := by
  constructor
  · rintro ⟨e, hmem, rfl, -⟩
    have hbefore : Quiet (plan.started :: rest) := quiet_append.mpr ⟨plan.quiet_started, hquiet⟩
    rcases List.mem_append.mp hmem with hold | hnew
    · exact absurd rfl (hbefore.ne_of_isTerminal hold hk)
    · rw [List.mem_singleton.mp hnew, hlast.kind]
  · rintro rfl
    exact ⟨last, List.mem_append_right _ List.mem_cons_self, hlast.kind, hlast.execution⟩

theorem Plan.Reports.logged_error {e : Error}
    (hlast : plan.Reports (.error e : Except Error α) last) (hquiet : Quiet rest) :
    Logged plan.group.id .executionFailed (plan.started :: rest ++ [last]) ∨
      Logged plan.group.id .executionTimeout (plan.started :: rest ++ [last]) := by
  cases htimeout : e.isTimeout with
  | true =>
    refine Or.inr ((hlast.logged_iff hquiet rfl).mpr ?_)
    rw [EventKind.ofResult, if_pos htimeout]
  | false =>
    refine Or.inl ((hlast.logged_iff hquiet rfl).mpr ?_)
    rw [EventKind.ofResult, htimeout]
    rfl

end

namespace Signing

variable {p : Party σ Signature} {t : Transport τ} {makeParty : Group → Except PartyError σ}
  {settings : Settings} {signer : Signer} {digest : ByteArray} {participants : List MemberId}
  {r start : Request σ Signature} {x : Execution σ Signature} {now elapsed : Nat} {s left : τ}
  {earlier events log : List Event} {accepted : Plan} {result : Except Error Signature}

theorem plan_eq_ok (h : plan settings signer digest participants = .ok (earlier, accepted)) :
    earlier = [] ∧ accepted.group.id = signingId signer.group.id digest := by
  have hadmits := admits settings signer digest participants
  rw [h] at hadmits
  cases hadmits with
  | accepted _ _ _ hgroup => exact ⟨rfl, (Group.create_eq_ok_iff.mp hgroup).1⟩

/-- The ways for a signing to end, each with what is logged of it and what its caller gets. -/
inductive Settled (settings : Settings) (signer : Signer) (digest : ByteArray)
    (participants : List MemberId) (abandons : Plan → Error → Prop) :
    Request σ Signature → List Event → Except Error Signature → Prop
  | refused {e : Error} (hplan : plan settings signer digest participants = .error e) :
      Settled settings signer digest participants abandons (.refused e) [] (.error e)
  | abandoned {accepted : Plan} {x : Execution σ Signature} {e : Error}
      (hplan : plan settings signer digest participants = .ok ([], accepted))
      (habandons : abandons accepted e) (hended : x.result? = some (.error e)) :
      Settled settings signer digest participants abandons (.begun x) [accepted.started] (.error e)
  | reported {accepted : Plan} {x : Execution σ Signature} {ending : Except Error Signature}
      {rest : List Event} {last : Event}
      (hplan : plan settings signer digest participants = .ok ([], accepted))
      (hkept : ∀ e, ¬ abandons accepted e) (hended : x.result? = some ending) (hquiet : Quiet rest)
      (hlast : accepted.Reports ending last) :
      Settled settings signer digest participants abandons (.begun x)
        (accepted.started :: rest ++ [last]) (ending.bind (conclude signer digest))

theorem settled_of_result?
    (hbegin : Request.begin? (plan settings signer digest participants) t makeParty now elapsed s =
      some (events, start, left)) (h : (Report.mk start events).Becomes p t ⟨r, log⟩)
    (hresult : r.result? (conclude signer digest) = some result) :
    Settled settings signer digest participants
      (fun accepted => accepted.Abandons t makeParty elapsed s) r log result := by
  unfold Request.begin? at hbegin
  split at hbegin
  next e hplan =>
    cases hbegin
    cases h.eq_of_refused rfl
    cases hresult
    exact .refused hplan
  next earlier accepted hplan =>
    obtain ⟨rfl, -⟩ := plan_eq_ok hplan
    obtain ⟨⟨more, x, left'⟩, hx, he⟩ := Option.map_eq_some_iff.mp hbegin
    cases he
    have htold := (Report.told_begun hx).becomes h
    cases htold with
    | going _ _ hgoing _ =>
      rw [Request.result?, hgoing] at hresult
      cases hresult
    | reported hkept hended hquiet hlast =>
      rw [Request.result?, hended] at hresult
      cases hresult
      exact .reported hplan hkept hended hquiet hlast
    | silent habandons hended =>
      rw [Request.result?, hended] at hresult
      cases hresult
      exact .abandoned hplan habandons hended

theorem not_yields_refused {e : Error} {output : Signature} :
    ¬ (Request.refused e : Request σ Signature).Yields output := by
  rintro ⟨x, hx, -⟩
  cases hx

theorem yields_begun_iff {ending : Except Error Signature} (hended : x.result? = some ending)
    {output : Signature} : (Request.begun x).Yields output ↔ ending = .ok output := by
  constructor
  · rintro ⟨y, hy, hyields⟩
    cases hy
    exact Option.some.inj (hended.symm.trans hyields)
  · rintro rfl
    exact ⟨x, rfl, hended⟩

theorem not_yields_of_error {e : Error} (hended : x.result? = some (.error e))
    {output : Signature} : ¬ (Request.begun x).Yields output := by
  intro hyields
  cases (yields_begun_iff hended).mp hyields

namespace Settled

variable {abandons : Plan → Error → Prop}

theorem completed_iff
    (h : Settled settings signer digest participants abandons r log result) :
    Logged (signingId signer.group.id digest) .executionCompleted log ↔
      ∃ output, r.Yields output := by
  cases h with
  | refused hplan =>
    constructor
    · intro hlogged
      exact absurd hlogged not_logged_nil
    · rintro ⟨output, houtput⟩
      exact absurd houtput not_yields_refused
  | @abandoned accepted _ _ _ _ hended =>
    constructor
    · intro hlogged
      exact absurd hlogged (accepted.quiet_started.not_logged rfl)
    · rintro ⟨output, houtput⟩
      exact absurd houtput (not_yields_of_error hended)
  | reported hplan _ hended hquiet hlast =>
    simp only [yields_begun_iff hended]
    rw [← (plan_eq_ok hplan).2, hlast.logged_iff hquiet rfl]
    exact EventKind.executionCompleted_eq_ofResult_iff

/-- Log and result are apart for one of two reasons. -/
theorem agrees_iff
    (h : Settled settings signer digest participants abandons r log result) :
    Agrees (signingId signer.group.id digest) log result ↔
      (∀ accepted e, plan settings signer digest participants = .ok ([], accepted) →
        ¬ abandons accepted e) ∧
      ∀ output, r.Yields output → output.verify signer.key.ecdsaPub digest = true := by
  have hcompleted := h.completed_iff
  cases h with
  | @refused e hplan =>
    constructor
    · intro _
      refine ⟨?_, fun output houtput => absurd houtput not_yields_refused⟩
      intro accepted e' haccepted
      cases hplan.symm.trans haccepted
    · intro _
      exact agrees_nil _ e
  | @abandoned accepted _ e hplan habandons _ =>
    rw [← (plan_eq_ok hplan).2]
    constructor
    · intro hagrees
      exact absurd hagrees (not_agrees_of_abandoned accepted e)
    · rintro ⟨hkept, -⟩
      exact absurd habandons (hkept accepted e hplan)
  | @reported accepted _ ending _ _ hplan hkept hended hquiet hlast =>
    simp only [yields_begun_iff hended] at hcompleted ⊢
    constructor
    · intro hagrees
      refine ⟨?_, ?_⟩
      · intro accepted' e haccepted
        cases hplan.symm.trans haccepted
        exact hkept e
      · rintro output rfl
        obtain ⟨sig, hsig⟩ := hagrees.completed.mp (hcompleted.mpr ⟨output, rfl⟩)
        exact (conclude_eq_ok_iff.mp hsig).1
    · rintro ⟨-, hverified⟩
      cases ending with
      | error e =>
        have hfailed := hlast.logged_error hquiet
        rw [(plan_eq_ok hplan).2] at hfailed
        refine ⟨hcompleted.trans ?_, fun _ _ _ => hfailed⟩
        constructor
        · rintro ⟨output, houtput⟩
          cases houtput
        · rintro ⟨sig, hsig⟩
          cases hsig
      | ok output =>
        have hok : conclude signer digest output = .ok output.normalize :=
          conclude_eq_ok_iff.mpr ⟨hverified output rfl, rfl⟩
        refine ⟨⟨fun _ => ⟨_, hok⟩, fun _ => hcompleted.mpr ⟨output, rfl⟩⟩, ?_⟩
        intro _ e herror
        cases hok.symm.trans herror

theorem of_unverified {output : Signature}
    (h : Settled settings signer digest participants abandons r log result)
    (hyields : r.Yields output) (hunverified : output.verify signer.key.ecdsaPub digest = false) :
    result = .error (.protocolFailure .unverifiedSignature) ∧
      ¬ Logged (signingId signer.group.id digest) .executionFailed log ∧
      ¬ Logged (signingId signer.group.id digest) .executionTimeout log := by
  cases h with
  | refused hplan => exact absurd hyields not_yields_refused
  | abandoned _ _ hended => exact absurd hyields (not_yields_of_error hended)
  | reported hplan _ hended hquiet hlast =>
    obtain rfl := (yields_begun_iff hended).mp hyields
    rw [← (plan_eq_ok hplan).2]
    refine ⟨conclude_of_unverified hunverified, ?_, ?_⟩
    · rw [hlast.logged_iff hquiet rfl]
      intro hkind
      cases hkind
    · rw [hlast.logged_iff hquiet rfl]
      intro hkind
      cases hkind

end Settled

/-- Whatever the party is and whatever comes in: a signing is logged as completed exactly if its
execution has an output, which is not yet to say that the caller gets a signature. Log and result
say the same unless the execution was abandoned or its output does not verify; and of an output that
does not verify no failure is logged. -/
theorem agrees_iff_kept_and_verified
    (hbegin : Request.begin? (plan settings signer digest participants) t makeParty now elapsed s =
      some (events, start, left)) (h : (Report.mk start events).Becomes p t ⟨r, log⟩)
    (hresult : r.result? (conclude signer digest) = some result) :
    (Logged (signingId signer.group.id digest) .executionCompleted log ↔
        ∃ output, r.Yields output) ∧
      (Agrees (signingId signer.group.id digest) log result ↔
        (∀ accepted e, plan settings signer digest participants = .ok ([], accepted) →
          ¬ accepted.Abandons t makeParty elapsed s e) ∧
        ∀ output, r.Yields output → output.verify signer.key.ecdsaPub digest = true) ∧
      ∀ output, r.Yields output → output.verify signer.key.ecdsaPub digest = false →
        result = .error (.protocolFailure .unverifiedSignature) ∧
          ¬ Logged (signingId signer.group.id digest) .executionFailed log ∧
          ¬ Logged (signingId signer.group.id digest) .executionTimeout log := by
  have hsettled := settled_of_result? hbegin h hresult
  refine ⟨hsettled.completed_iff, hsettled.agrees_iff, ?_⟩
  intro output hyields hunverified
  exact hsettled.of_unverified hyields hunverified

/-- Gives a signature that verifies under no key. -/
def emptyHanded : Party Unit Signature := { readyParty with result := fun s => (.ok ⟨0, 0, 0⟩, s) }

/-- A signing of the zero digest that is run to the end of its execution. -/
def signed (p : Party Unit Signature) : Option (Execution Unit Signature × List Event) :=
  match Request.begin? (plan {} signerOfOne zeroDigest [first, second]) (Link.transport first)
    (fun _ => .ok ()) 0 0 link with
  | some (events, .begun x, left) =>
    Report.run? p (Link.transport first) 0
      [.dispatch, .join, .join, .join, .join, .rounds .work, .rounds .work, .rounds .work,
        .rounds .finish, .rounds .send] x events left
  | _ => none

theorem becomes_of_signed {p : Party Unit Signature} {x : Execution Unit Signature}
    {log : List Event} (h : signed p = some (x, log)) :
    ∃ events start left,
      Request.begin? (plan {} signerOfOne zeroDigest [first, second]) (Link.transport first)
          (fun _ => .ok ()) 0 0 link = some (events, start, left) ∧
        (Report.mk start events).Becomes p (Link.transport first) ⟨.begun x, log⟩ := by
  unfold signed at h
  split at h
  next events y left hbegin => exact ⟨events, .begun y, left, hbegin, Report.Becomes.refl.run? h⟩
  next => cases h

theorem view_signed_readyParty :
    (signed readyParty).map (fun r => r.1.output?) = some (some highSignature) := by
  decide +kernel

theorem view_signed_emptyHanded :
    ((signed emptyHanded).map fun r =>
      (r.1.output?, decide (Logged (signingId "g" zeroDigest) .executionCompleted r.2))) =
      some (some ⟨0, 0, 0⟩, true) := by
  decide +kernel

theorem view_connected :
    (plan {} signerOfOne zeroDigest [first, second]).toOption.map (fun accepted =>
      (Bridge.connect accepted.2.group (Link.transport first) link).1.toOption.isSome) =
      some true := by
  decide +kernel

theorem agrees_highSignature :
    ∃ events start left x log result,
      Request.begin? (plan {} signerOfOne zeroDigest [first, second]) (Link.transport first)
          (fun _ => .ok ()) 0 0 link = some (events, start, left) ∧
        (Report.mk start events).Becomes readyParty (Link.transport first) ⟨.begun x, log⟩ ∧
        (Request.begun x).result? (conclude signerOfOne zeroDigest) = some result ∧
        Agrees (signingId "g" zeroDigest) log result := by
  obtain ⟨⟨x, log⟩, hsigned, hview⟩ := Option.map_eq_some_iff.mp view_signed_readyParty
  obtain ⟨events, start, left, hbegin, hbecomes⟩ := becomes_of_signed hsigned
  have hended := Execution.output?_eq_some_iff.mp hview
  have hyields : (Request.begun x).Yields highSignature := ⟨x, rfl, hended⟩
  have hresult := hyields.result?_eq (conclude signerOfOne zeroDigest)
  obtain ⟨-, hagrees, -⟩ := agrees_iff_kept_and_verified hbegin hbecomes hresult
  refine ⟨events, start, left, x, log, _, hbegin, hbecomes, hresult, hagrees.mpr ⟨?_, ?_⟩⟩
  · intro accepted e hplan habandons
    have hconnected := view_connected
    rw [hplan] at hconnected
    cases habandons with
    | setup hmade => cases hmade
    | connection _ _ hrefused =>
      simp only [Except.toOption, Option.map_some, hrefused] at hconnected
      cases hconnected
  · intro output hyields
    cases (yields_begun_iff hended).mp hyields
    decide +kernel

/-- An output that does not verify is logged as a completed signing, and the caller is given an
error. -/
theorem not_agrees_emptyHanded :
    ∃ events start left x log result,
      Request.begin? (plan {} signerOfOne zeroDigest [first, second]) (Link.transport first)
          (fun _ => .ok ()) 0 0 link = some (events, start, left) ∧
        (Report.mk start events).Becomes emptyHanded (Link.transport first) ⟨.begun x, log⟩ ∧
        (Request.begun x).result? (conclude signerOfOne zeroDigest) = some result ∧
        result = .error (.protocolFailure .unverifiedSignature) ∧
        Logged (signingId "g" zeroDigest) .executionCompleted log ∧
        ¬ Agrees (signingId "g" zeroDigest) log result := by
  obtain ⟨⟨x, log⟩, hsigned, hview⟩ := Option.map_eq_some_iff.mp view_signed_emptyHanded
  obtain ⟨houtput, hlogged⟩ := Prod.mk.inj hview
  obtain ⟨events, start, left, hbegin, hbecomes⟩ := becomes_of_signed hsigned
  have hended := Execution.output?_eq_some_iff.mp houtput
  have hcompleted := of_decide_eq_true hlogged
  have hunverified :
      (⟨0, 0, 0⟩ : Signature).verify signerOfOne.key.ecdsaPub zeroDigest = false := by
    decide +kernel
  have hyields : (Request.begun x).Yields ⟨0, 0, 0⟩ := ⟨x, rfl, hended⟩
  have hresult : (Request.begun x).result? (conclude signerOfOne zeroDigest) =
      some (.error (.protocolFailure .unverifiedSignature)) := by
    rw [hyields.result?_eq, conclude_of_unverified hunverified]
  refine ⟨events, start, left, x, log, _, hbegin, hbecomes, hresult, rfl, hcompleted, ?_⟩
  intro hagrees
  obtain ⟨sig, hsig⟩ := hagrees.completed.mp hcompleted
  cases hsig

end Signing

end ThresholdSigning
