import ThresholdSigning.Proofs.Group
import ThresholdSigning.Proofs.Outcome
import ThresholdSigning.Proofs.Signing

namespace ThresholdSigning

variable {σ α β τ : Type}

/-- What a caller can ask for: what becomes of the arguments, and what becomes of an output. -/
inductive Asked : {α β : Type} → Except Error (List Event × Plan) → (α → Except Error β) → Prop
  | keyGeneration (settings : Settings) (group : Group) (preParams : Option PreParams) :
      Asked (KeyGeneration.plan settings group preParams) (KeyGeneration.conclude group)
  | signing (settings : Settings) (signer : Signer) (digest : ByteArray)
      (participants : List MemberId) :
      Asked (Signing.plan settings signer digest participants) (Signing.conclude signer digest)

/-- The message is for a member that is no peer, and cannot be sent in the group. -/
def Outbound.Strays (m : Outbound) (group : Group) (rejection : Rejection) : Prop :=
  ∃ recipient, m.target = .only recipient ∧ group.isPeer recipient = false ∧
    rejection = .notAPeer recipient group.id

/-- An error that does not speak of an unexpected message. -/
def Error.IsOther (e : Error) : Prop := ∀ rejection, e ≠ .unexpectedMessage rejection

theorem Settings.isOther_of_validate {settings : Settings} {e : Error}
    (h : settings.validate = .error e) : e.IsOther := by
  obtain ⟨_, _, _, -, -, rfl⟩ := Settings.validate_eq_error_iff.mp h
  nofun

theorem Group.isOther_of_create {id : String} {m : MemberId} {members : List MemberId}
    {threshold : Nat} {e : Error} (h : Group.create id m members threshold = .error e) :
    e.IsOther := by
  cases Group.create_eq_error_iff.mp h with
  | small _ => nofun
  | wide _ _ => nofun
  | repeated _ _ _ _ _ => nofun
  | absent _ _ _ _ => nofun

namespace Asked

variable {asked : Except Error (List Event × Plan)} {conclude : α → Except Error β} {e : Error}

theorem isOther_of_refused (h : Asked asked conclude) (he : asked = .error e) : e.IsOther := by
  cases h with
  | keyGeneration settings group preParams =>
    have hadmits := KeyGeneration.admits settings group preParams
    rw [he] at hadmits
    cases hadmits with
    | invalid hinvalid => exact Settings.isOther_of_validate hinvalid
    | missing _ _ _ => nofun
  | signing settings signer digest participants =>
    have hadmits := Signing.admits settings signer digest participants
    rw [he] at hadmits
    cases hadmits with
    | invalid hinvalid => exact Settings.isOther_of_validate hinvalid
    | length _ _ => nofun
    | outsider _ _ _ => nofun
    | groupless _ _ _ hgroup => exact Group.isOther_of_create hgroup

theorem isOther_of_concluded (h : Asked asked conclude) {output : α}
    (he : conclude output = .error e) : e.IsOther := by
  cases h with
  | keyGeneration settings group preParams => cases he
  | signing settings signer digest participants =>
    unfold Signing.conclude at he
    split at he
    next => cases he
    next =>
      cases he
      nofun

end Asked

namespace Bridge

variable {b : Bridge} {t : Transport τ} {s left : τ} {e : Error} {rejection : Rejection}

theorem isOther_of_publish {envelope : Envelope} {target : Target}
    (h : b.publish t envelope target s = (.error e, left)) : e.IsOther := by
  unfold publish at h
  split at h
  next hencode =>
    cases h
    rw [(Envelope.encode_eq_error_iff.mp hencode).2]
    nofun
  next =>
    split at h
    next =>
      cases h
      nofun
    next => cases h

theorem isOther_of_connect {group : Group} (h : connect group t s = (.error e, left)) :
    e.IsOther := by
  unfold connect at h
  split at h
  next =>
    cases h
    nofun
  next =>
    split at h
    next =>
      cases h
      nofun
    next =>
      split at h
      next hencode =>
        cases h
        rw [(Envelope.encode_eq_error_iff.mp hencode).2]
        nofun
      next => cases h

theorem refusal?_eq_some_iff {m : Outbound} :
    b.refusal? m.target = some rejection ↔ m.Strays b.group rejection := by
  unfold refusal? Outbound.Strays
  cases m.target with
  | everyone => simp
  | only recipient =>
    constructor
    · intro h
      dsimp only at h
      split at h
      next => cases h
      next hpeer =>
        cases h
        exact ⟨recipient, rfl, by simpa using hpeer, rfl⟩
    · rintro ⟨_, ⟨⟩, hpeer, rfl⟩
      simp only [hpeer, Bool.false_eq_true, if_false]

/-- Sending is refused for the recipient alone. -/
theorem send_eq_refused_iff {m : Outbound} :
    (b.send t m.payload m.target s).1 = .error (.unexpectedMessage rejection) ↔
      m.Strays b.group rejection := by
  rw [← refusal?_eq_some_iff]
  unfold send
  cases hrefusal : b.refusal? m.target with
  | some other => simp
  | none =>
    simp only [reduceCtorEq, iff_false]
    intro herror
    exact isOther_of_publish (Prod.ext herror rfl) rejection rfl

end Bridge

theorem Plan.isOther_errorOf {plan : Plan} {cause : Cause}
    (h : ∀ e, cause = .sendFailed e → e.IsOther) : (plan.errorOf cause).IsOther := by
  cases cause with
  | sendFailed e => exact h e rfl
  | joinExpired missing => nofun
  | joinFailed e => nofun
  | feedEnded => nofun
  | roundsExpired =>
    unfold errorOf
    cases plan.protocol <;> nofun
  | partyFailed e => cases e <;> nofun

namespace Execution

variable {t : Transport τ} {plan : Plan} {makeParty : Group → Except PartyError σ}
  {x : Execution σ α} {now elapsed : Nat} {s left : τ} {events : List Event} {e : Error}
  {move : Move} {m : Outbound} {answer : Except Error Unit}

theorem isOther_of_begin? (h : begin? plan t makeParty now elapsed s = some (events, x, left))
    (hended : x.result? = some (.error e)) : e.IsOther := by
  unfold begin? at h
  split at h
  next => cases h
  next =>
    split at h
    next =>
      cases h
      cases hended
      nofun
    next =>
      split at h
      next =>
        cases h
        cases hended
        rw [← plan.errorOf_roundsExpired]
        exact Plan.isOther_errorOf nofun
      next =>
        rw [Option.some.injEq, Prod.mk.injEq] at h
        obtain ⟨-, hx⟩ := h
        unfold connect at hx
        split at hx
        next hconnect =>
          cases hx
          cases hended
          exact Bridge.isOther_of_connect hconnect
        next =>
          cases hx
          cases hended

/-- Something is handed to the bridge only by sending what is queued first. -/
theorem mem_handed_iff :
    (m, answer) ∈ x.handed t move s ↔
      ∃ b r outbox, x.phase = .rounds b r ∧ move = .rounds .send ∧ r.isOver = false ∧
        x.deadline.isExpired = false ∧ r.outbox = m :: outbox ∧
        answer = (b.send t m.payload m.target s).1 := by
  unfold handed
  constructor
  · intro h
    split at h
    next roundsMove b r hphase =>
      unfold Rounds.handed at h
      split at h
      next hmay =>
        obtain ⟨rfl, hover, hlive⟩ := hmay
        obtain ⟨m', hm', he⟩ := List.mem_map.mp h
        obtain ⟨outbox, houtbox⟩ := List.head?_eq_some_iff.mp (Option.mem_toList.mp hm')
        cases he
        exact ⟨b, r, outbox, hphase, rfl, hover, hlive, houtbox, rfl⟩
      next => cases h
    next => cases h
  · rintro ⟨b, r, outbox, hphase, rfl, hover, hlive, houtbox, rfl⟩
    simp only [hphase, Rounds.handed, hover, hlive, houtbox, and_self, if_true, List.head?_cons,
      Option.toList_some, List.map_cons, List.map_nil, List.mem_singleton]

theorem handed_of_result? {result : Except Error α} (h : x.result? = some result) :
    x.handed t move s = [] := by
  obtain ⟨rest, hphase⟩ := exists_phase_of_result? h
  refine List.eq_nil_iff_forall_not_mem.mpr ?_
  rintro ⟨m, answer⟩ hmem
  obtain ⟨b, r, outbox, hrounds, -⟩ := mem_handed_iff.mp hmem
  cases hphase.symm.trans hrounds

end Execution

namespace Chronicle

variable {p : Party σ α} {t : Transport τ} {plan : Plan}
  {makeParty : Group → Except PartyError σ} {made : Except PartyError σ} {x after : Execution σ α}
  {c d : Chronicle σ α} {now elapsed : Nat} {s s' left : τ} {events : List Event}
  {move : Execution.Move} {rejection : Rejection} {m : Outbound}

/-- An execution ends with an unexpected message exactly if its party had one sent that strays. -/
structure Blames (plan : Plan) (c : Chronicle σ α) : Prop where
  produced : ∀ m ∈ c.handed.map Prod.fst, m ∈ c.calls.flatMap Call.produced
  answered : ∀ m answer, (m, answer) ∈ c.handed → ∀ rejection,
    answer = .error (.unexpectedMessage rejection) ↔ m.Strays plan.group rejection
  ended : ∀ rejection, c.execution.result? = some (.error (.unexpectedMessage rejection)) ↔
    ∃ m, (m, .error (.unexpectedMessage rejection)) ∈ c.handed

theorem blames_begun
    (h : Execution.begin? plan t makeParty now elapsed s = some (events, x, left)) :
    (begun x).Blames plan where
  produced := nofun
  answered := nofun
  ended := by
    intro rejection
    constructor
    · intro hended
      exact absurd rfl (Execution.isOther_of_begin? h hended rejection)
    · rintro ⟨m, hmem⟩
      cases hmem

/-- What is handed to the bridge was produced before. -/
theorem produced_of_handed (h : c.Told p made) {answer : Except Error Unit}
    (hmem : (m, answer) ∈ c.execution.handed t move s) : m ∈ c.calls.flatMap Call.produced := by
  obtain ⟨b, r, outbox, hphase, -, hover, -, houtbox, -⟩ := Execution.mem_handed_iff.mp hmem
  obtain ⟨_, -, -, -, htold⟩ := h.of_rounds hphase
  have hproduced := (htold.accounted.of_not_over hover).1
  rw [← hproduced, houtbox]
  exact List.mem_append_left _ (List.mem_append_right _ List.mem_cons_self)

/-- A step ends an execution with an unexpected message exactly if sending was refused in it. -/
theorem refused_iff_of_step {bytes : ByteArray} (h : c.Told p made) (hbound : c.Bound plan)
    (hencode : (Envelope.join plan.group.localMember).encode = .ok bytes)
    (hgoing : c.execution.result? = none)
    (hstep : c.execution.step p t now move s = some (events, after, s')) :
    after.result? = some (.error (.unexpectedMessage rejection)) ↔
      ∃ m, (m, .error (.unexpectedMessage rejection)) ∈ c.execution.handed t move s := by
  constructor
  · intro hended
    obtain ⟨cause, hmeets, herror⟩ := exists_meets h hbound hencode hgoing hstep hended
    -- Every other cause gives an error of its own kind; only sending hands on what the bridge says.
    by_cases hsent : ∃ e, cause = .sendFailed e
    · obtain ⟨e, rfl⟩ := hsent
      obtain rfl : .unexpectedMessage rejection = e := herror
      cases hmeets with
      | @sendFailed b r m outbox _ left hphase hlive houtbox hsend =>
        refine ⟨m, Execution.mem_handed_iff.mpr ⟨b, r, outbox, hphase, rfl, ?_, hlive, houtbox, ?_⟩⟩
        · obtain ⟨_, -, -, hover, -⟩ := h.of_rounds hphase
          exact hover
        · rw [hsend]
    · have hother : (plan.errorOf cause).IsOther :=
        Plan.isOther_errorOf fun e he => absurd ⟨e, he⟩ hsent
      exact absurd herror.symm (hother rejection)
  · rintro ⟨m, hmem⟩
    obtain ⟨b, r, outbox, hphase, rfl, -, hlive, houtbox, hanswer⟩ :=
      Execution.mem_handed_iff.mp hmem
    have hsend : b.send t m.payload m.target s =
        (.error (.unexpectedMessage rejection), (b.send t m.payload m.target s).2) :=
      Prod.ext hanswer.symm rfl
    have hmeets : c.Meets t now s (.rounds .send) (.sendFailed (.unexpectedMessage rejection)) :=
      .sendFailed hphase hlive houtbox hsend
    obtain ⟨events', after', left, hstep', hended⟩ := hmeets.ends h hbound
    cases hstep.symm.trans hstep'
    exact hended

theorem Blames.step (h : c.Blames plan) (htold : c.Told p made) (hbound : c.Bound plan)
    (hencode : c.execution.result? = none →
      ∃ bytes, (Envelope.join plan.group.localMember).encode = .ok bytes)
    (hstep : c.execution.step p t now move s = some (events, after, s')) :
    (c.add p t now move s after).Blames plan := by
  have hhanded : (c.add p t now move s after).handed = c.handed ++ c.execution.handed t move s :=
    rfl
  refine ⟨?_, ?_, ?_⟩
  · intro m hm
    have hcalls : (c.add p t now move s after).calls.flatMap Call.produced =
        c.calls.flatMap Call.produced ++ (c.execution.calls p move).flatMap Call.produced :=
      List.flatMap_append
    rw [hcalls]
    refine List.mem_append_left _ ?_
    rw [hhanded, List.map_append] at hm
    rcases List.mem_append.mp hm with hold | hnew
    · exact h.produced m hold
    · obtain ⟨⟨_, answer⟩, hmem, rfl⟩ := List.mem_map.mp hnew
      exact produced_of_handed htold hmem
  · intro m answer hmem rejection
    rw [hhanded] at hmem
    rcases List.mem_append.mp hmem with hold | hnew
    · exact h.answered m answer hold rejection
    · obtain ⟨b, r, outbox, hphase, -, -, -, -, rfl⟩ := Execution.mem_handed_iff.mp hnew
      rw [Bridge.send_eq_refused_iff, hbound.group b (Execution.bridge?_of_rounds hphase)]
  · intro rejection
    rw [hhanded]
    cases hresult : c.execution.result? with
    | none =>
      obtain ⟨bytes, hbytes⟩ := hencode hresult
      have hnone (m : Outbound) : (m, .error (.unexpectedMessage rejection)) ∉ c.handed := by
        intro hmem
        have hended := (h.ended rejection).mpr ⟨m, hmem⟩
        cases hresult.symm.trans hended
      have hiff : after.result? = some (.error (.unexpectedMessage rejection)) ↔ _ :=
        refused_iff_of_step htold hbound hbytes hresult hstep
      simp only [add, List.mem_append, hnone, false_or]
      exact hiff
    | some result =>
      have hsame : after.result? = some result :=
        (htold.of_ended hresult (Becomes.refl.step hstep)).1
      rw [Execution.handed_of_result? hresult, List.append_nil, ← h.ended rejection, hresult]
      simp only [add, hsame]

theorem Blames.becomes (h : c.Blames plan) (htold : c.Told p made) (hbound : c.Bound plan)
    (hencode : c.execution.result? = none →
      ∃ bytes, (Envelope.join plan.group.localMember).encode = .ok bytes)
    (hbecomes : c.Becomes p t d) : d.Blames plan := by
  induction hbecomes with
  | refl => exact h
  | tick _ _ ih => exact ⟨ih.produced, ih.answered, ih.ended⟩
  | @step d now move s s' events after hd hstep ih =>
    refine ih.step (htold.becomes hd) (hbound.becomes hd) ?_ hstep
    intro hgoing
    refine hencode ?_
    cases hresult : c.execution.result? with
    | none => rfl
    | some result => cases hgoing.symm.trans (htold.of_ended hresult hd).1

theorem blames_of_begin?
    (hbegin : Execution.begin? plan t makeParty now elapsed s = some (events, x, left))
    (h : (begun x).Becomes p t c) : c.Blames plan := by
  obtain ⟨hbound, hencode⟩ := bound_begun hbegin
  have htold : (begun x).Told p (makeParty plan.group) := told_begun hbegin
  refine (blames_begun hbegin).becomes htold hbound ?_ h
  intro hgoing
  rcases htold.cases_of_going hgoing with ⟨b, _, _, hphase, -⟩ | ⟨b, _, _, hphase, -, -⟩
  · exact hencode (Option.isSome_of_eq_some (Execution.bridge?_of_joining hphase))
  · exact hencode (Option.isSome_of_eq_some (Execution.bridge?_of_rounds hphase))

theorem Blames.iff_strays (h : c.Blames plan) (rejection : Rejection) :
    c.execution.result? = some (.error (.unexpectedMessage rejection)) ↔
      ∃ m ∈ c.handed.map Prod.fst, m.Strays plan.group rejection := by
  rw [h.ended]
  constructor
  · rintro ⟨m, hmem⟩
    exact ⟨m, List.mem_map.mpr ⟨_, hmem, rfl⟩, (h.answered m _ hmem rejection).mp rfl⟩
  · rintro ⟨m, hm, hstrays⟩
    obtain ⟨⟨_, answer⟩, hmem, rfl⟩ := List.mem_map.mp hm
    have hanswer := (h.answered _ answer hmem rejection).mpr hstrays
    rw [hanswer] at hmem
    exact ⟨_, hmem⟩

/-- Only screening speaks of unexpected messages without an end: what is refused there is logged,
and leaves the execution as it is. -/
theorem step_of_screened {b : Bridge} {inbound : Inbound} {e : Error}
    (hbridge : x.bridge? = some b) (hopen : b.isOpen = true)
    (hreceive : t.receive b.subscription s = (.envelope inbound, left))
    (hscreen : b.screen inbound = .error e) :
    x.step p t now .dispatch s = some ([b.dropped inbound e], x, left) := by
  have hstep : b.step t s = some (some (b.dropped inbound e), b, left) := by
    simp only [Bridge.step, hopen, if_true, hreceive, Bridge.dispatch, hscreen]
  have hdispatch : x.dispatch t s = some ([b.dropped inbound e], x.setBridge b, left) := by
    rw [Execution.dispatch_eq, hbridge, Option.bind_some, hstep]
    rfl
  rw [Execution.setBridge_of_bridge? hbridge] at hdispatch
  exact hdispatch

end Chronicle

namespace Asked

variable {asked : Except Error (List Event × Plan)} {conclude : α → Except Error β}
  {t : Transport τ} {makeParty : Group → Except PartyError σ} {x : Execution σ α}
  {start : Request σ α} {now elapsed : Nat} {s left : τ} {events : List Event}
  {rejection : Rejection}

/-- An output is never concluded to be an unexpected message. -/
theorem result?_eq_unexpected_iff (h : Asked asked conclude) :
    (Request.begun x).result? conclude = some (.error (.unexpectedMessage rejection)) ↔
      x.result? = some (.error (.unexpectedMessage rejection)) := by
  constructor
  · intro hresult
    obtain ⟨result, hended, he⟩ := Option.map_eq_some_iff.mp hresult
    cases result with
    | error e =>
      cases he
      exact hended
    | ok output => exact absurd rfl (h.isOther_of_concluded he rejection)
  · intro hended
    rw [Request.result?, hended]
    rfl

/-- Whatever a caller asks for, whatever the party is and whatever comes in: the caller is told of
an unexpected message exactly if the party had a message sent to someone who is no peer, and then of
that message. Arguments are never refused so, and what is refused by screening is only logged. -/
theorem unexpectedMessage_iff_strays (hasked : Asked asked conclude)
    (hbegin : Request.begin? asked t makeParty now elapsed s = some (events, start, left)) :
    (∀ e, start = .refused e → ∀ rejection, e ≠ .unexpectedMessage rejection) ∧
      ∀ x, start = .begun x → ∃ earlier plan, asked = .ok (earlier, plan) ∧
        ∀ (p : Party σ α) (c : Chronicle σ α), (Chronicle.begun x).Becomes p t c →
          (∀ rejection, (Request.begun c.execution).result? conclude =
              some (.error (.unexpectedMessage rejection)) ↔
            ∃ m ∈ c.handed.map Prod.fst, m.Strays plan.group rejection) ∧
          (∀ rejection, (Request.begun c.execution).result? conclude =
              some (.error (.unexpectedMessage rejection)) →
            ∃ m ∈ c.calls.flatMap Call.produced, m.Strays plan.group rejection) ∧
          ∀ moment s b inbound left e, c.execution.bridge? = some b → b.isOpen = true →
            t.receive b.subscription s = (.envelope inbound, left) →
            b.screen inbound = .error e →
            c.execution.step p t moment .dispatch s =
              some ([b.dropped inbound e], c.execution, left) := by
  cases hrequest : asked with
  | error e =>
    rw [hrequest] at hbegin
    cases hbegin
    constructor
    · rintro _ ⟨⟩
      exact hasked.isOther_of_refused hrequest
    · rintro _ ⟨⟩
  | ok accepted =>
    obtain ⟨earlier, plan⟩ := accepted
    rw [hrequest] at hbegin
    obtain ⟨⟨more, x, left'⟩, hx, he⟩ := Option.map_eq_some_iff.mp hbegin
    cases he
    constructor
    · rintro _ ⟨⟩
    · rintro _ ⟨⟩
      refine ⟨earlier, plan, rfl, ?_⟩
      intro p c hbecomes
      have hblames := Chronicle.blames_of_begin? hx hbecomes
      refine ⟨?_, ?_, ?_⟩
      · intro rejection
        rw [hasked.result?_eq_unexpected_iff, hblames.iff_strays]
      · intro rejection hresult
        rw [hasked.result?_eq_unexpected_iff, hblames.iff_strays] at hresult
        obtain ⟨m, hm, hstrays⟩ := hresult
        exact ⟨m, hblames.produced m hm, hstrays⟩
      · intro moment s b inbound left e hbridge hopen hreceive hscreen
        exact Chronicle.step_of_screened hbridge hopen hreceive hscreen

def outsider : MemberId := ⟨⟨#[99]⟩⟩

/-- Has a message for someone who is not in the group. -/
def stranger : Party Unit Signature :=
  { Signing.readyParty with drain := fun s => ([⟨⟨#[1]⟩, .only outsider⟩], s) }

def begun? : Option (List Event × Request Unit Signature × Link) :=
  Request.begin? (Signing.plan {} Signing.signerOfOne Signing.zeroDigest
    [Signing.first, Signing.second]) (Link.transport Signing.first) (fun _ => .ok ()) 0 0
    Signing.link

/-- A signing up to the attempt to send that message. -/
def strayed : Option (Chronicle Unit Signature) :=
  match begun? with
  | some (_, .begun x, left) =>
    Chronicle.run? stranger (Link.transport Signing.first) 0
      [.dispatch, .join, .join, .join, .join, .rounds .work, .rounds .work, .rounds .send]
      (Chronicle.begun x) left
  | _ => none

theorem becomes_of_strayed {c : Chronicle Unit Signature} (h : strayed = some c) :
    ∃ events x left, begun? = some (events, .begun x, left) ∧
      (Chronicle.begun x).Becomes stranger (Link.transport Signing.first) c := by
  unfold strayed at h
  split at h
  next events x left hbegin => exact ⟨events, x, left, hbegin, Chronicle.Becomes.refl.run? h⟩
  next => cases h

def failure? (c : Chronicle Unit Signature) : Option Error :=
  match (Request.begun c.execution).result?
    (Signing.conclude Signing.signerOfOne Signing.zeroDigest) with
  | some (.error e) => some e
  | _ => none

theorem result?_of_failure? {c : Chronicle Unit Signature} {e : Error} (h : failure? c = some e) :
    (Request.begun c.execution).result?
      (Signing.conclude Signing.signerOfOne Signing.zeroDigest) = some (.error e) := by
  unfold failure? at h
  split at h
  next hresult =>
    cases h
    exact hresult
  next => cases h

theorem view_strayed :
    (strayed.map fun c => (failure? c, c.handed.map Prod.fst)) =
      some (some (.unexpectedMessage
        (.notAPeer outsider (signingId "g" Signing.zeroDigest))), [⟨⟨#[1]⟩, .only outsider⟩]) := by
  decide +kernel

theorem strays_stranger :
    ∃ events x left c m, begun? = some (events, .begun x, left) ∧
      (Chronicle.begun x).Becomes stranger (Link.transport Signing.first) c ∧
      m ∈ c.handed.map Prod.fst ∧ m.target = .only outsider := by
  obtain ⟨c, hstrayed, hview⟩ := Option.map_eq_some_iff.mp view_strayed
  obtain ⟨events, x, left, hbegin, hbecomes⟩ := becomes_of_strayed hstrayed
  obtain ⟨hfailure, -⟩ := Prod.mk.inj hview
  have hasked := Asked.signing {} Signing.signerOfOne Signing.zeroDigest
    [Signing.first, Signing.second]
  obtain ⟨-, hbegun⟩ := unexpectedMessage_iff_strays hasked hbegin
  obtain ⟨earlier, plan, -, hevery⟩ := hbegun x rfl
  obtain ⟨hiff, -, -⟩ := hevery stranger c hbecomes
  obtain ⟨m, hm, recipient, htarget, -, hrejection⟩ := (hiff _).mp (result?_of_failure? hfailure)
  obtain ⟨rfl, -⟩ := Rejection.notAPeer.inj hrejection
  exact ⟨events, x, left, c, m, hbegin, hbecomes, hm, htarget⟩

/-- The signing ends with an unexpected message: its own party's. -/
theorem unexpectedMessage_stranger :
    ∃ events x left c, begun? = some (events, .begun x, left) ∧
      (Chronicle.begun x).Becomes stranger (Link.transport Signing.first) c ∧
      (Request.begun c.execution).result?
          (Signing.conclude Signing.signerOfOne Signing.zeroDigest) =
        some (.error (.unexpectedMessage
          (.notAPeer outsider (signingId "g" Signing.zeroDigest)))) := by
  obtain ⟨c, hstrayed, hview⟩ := Option.map_eq_some_iff.mp view_strayed
  obtain ⟨events, x, left, hbegin, hbecomes⟩ := becomes_of_strayed hstrayed
  obtain ⟨hfailure, -⟩ := Prod.mk.inj hview
  exact ⟨events, x, left, c, hbegin, hbecomes, result?_of_failure? hfailure⟩

end Asked

end ThresholdSigning
