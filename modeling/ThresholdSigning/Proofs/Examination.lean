import ThresholdSigning.Proofs.Admission
import ThresholdSigning.Proofs.Deadline
import ThresholdSigning.Proofs.Execution
import ThresholdSigning.Proofs.Group
import ThresholdSigning.Proofs.Signing

namespace ThresholdSigning

namespace Execution

variable {σ α τ : Type} {plan : Plan} {t : Transport τ} {makeParty : Group → Except PartyError σ}
  {now elapsed : Nat} {s : τ} {deadline : Deadline} {x : Execution σ α}

/-- Nothing more is ever done for the execution. -/
def Inert (x : Execution σ α) (t : Transport τ) : Prop :=
  ∀ (p : Party σ α) (y : Execution σ α), (Request.begun x).Becomes p t (.begun y) →
    ∀ moment move s, y.step p t moment move s = none

theorem step_of_ended {p : Party σ α} {result : Except Error α} {move : Move}
    (h : x.phase = .ended result none) : x.step p t now move s = none := by
  cases move with
  | dispatch => simp only [step, dispatch, h]
  | join => simp only [step, join, h]
  | rounds move => simp only [step, round, h]

/-- An execution that ended without rounds has no worker that could go on. -/
theorem inert_of_ended {result : Except Error α} (h : x.phase = .ended result none) :
    x.Inert t := by
  intro p y hbecomes
  have hkept (r : Request σ α) (hr : (Request.begun x).Becomes p t r) :
      ∀ y, r = .begun y → y.phase = .ended result none := by
    induction hr with
    | refl =>
      rintro _ ⟨⟩
      exact h
    | step _ hstep ih =>
      rw [step_of_ended (ih _ rfl)] at hstep
      cases hstep
    | tick _ _ ih =>
      rintro _ ⟨⟩
      have hended := ih _ rfl
      exact hended
  intro moment move s
  exact step_of_ended (hkept _ hbecomes y rfl)

theorem begin?_of_failed {e : PartyError}
    (hdeadline : Deadline.start? now plan.timeout = some deadline)
    (hmade : makeParty plan.group = .error e) :
    begin? (α := α) plan t makeParty now elapsed s =
      some ([plan.started],
        ⟨plan, now, deadline, .ended (.error (.protocolFailure e.cause)) none⟩, s) := by
  simp only [begin?, hdeadline, hmade]

theorem begin?_of_late {party : σ}
    (hdeadline : Deadline.start? now plan.timeout = some deadline)
    (hmade : makeParty plan.group = .ok party)
    (hlate : plan.timeout.inNanos ≤ Deadline.nanosOf elapsed) :
    begin? (α := α) plan t makeParty now elapsed s =
      some ([plan.started, plan.ended elapsed (.error plan.timeoutError : Except Error α)],
        ⟨plan, now, deadline, .ended (.error plan.timeoutError) none⟩, s) := by
  have hover : deadline.expiresAt ≤ now + elapsed :=
    (Deadline.expiresAt_le_iff_of_start? hdeadline).mpr hlate
  simp only [begin?, hdeadline, hmade, hover, if_true]

theorem begin?_of_timely {party : σ}
    (hdeadline : Deadline.start? now plan.timeout = some deadline)
    (hmade : makeParty plan.group = .ok party)
    (htimely : Deadline.nanosOf elapsed < plan.timeout.inNanos) :
    begin? (α := α) plan t makeParty now elapsed s =
      some ([plan.started], connect plan deadline t party now s) := by
  have hlive : ¬ deadline.expiresAt ≤ now + elapsed := by
    rw [Deadline.expiresAt_le_iff_of_start? hdeadline]
    exact Nat.not_le.mpr htimely
  simp only [begin?, hdeadline, hmade, hlive, if_false]

/-- Nothing but the clock keeps an execution from beginning, whatever its party and its transport
do. -/
theorem begin?_eq_none_iff :
    begin? (α := α) plan t makeParty now elapsed s = none ↔
      Deadline.Overflows now plan.timeout := by
  rw [← Deadline.start?_eq_none_iff]
  cases hstart : Deadline.start? now plan.timeout with
  | none => simp only [begin?, hstart]
  | some deadline =>
    cases hmade : makeParty plan.group with
    | error e =>
      rw [begin?_of_failed hstart hmade]
      simp only [reduceCtorEq]
    | ok party =>
      rcases Nat.lt_or_ge (Deadline.nanosOf elapsed) plan.timeout.inNanos with htimely | hlate
      · rw [begin?_of_timely hstart hmade htimely]
        simp only [reduceCtorEq]
      · rw [begin?_of_late hstart hmade hlate]
        simp only [reduceCtorEq]

end Execution

/-- Arguments that are refused are refused at any time. -/
theorem Request.begin?_eq_none_iff {σ α τ : Type} {t : Transport τ}
    {makeParty : Group → Except PartyError σ} {now elapsed : Nat} {s : τ}
    {plan : Except Error (List Event × Plan)} :
    Request.begin? (α := α) plan t makeParty now elapsed s = none ↔
      ∃ events accepted, plan = .ok (events, accepted) ∧
        Deadline.Overflows now accepted.timeout := by
  cases plan with
  | error e => simp only [Request.begin?, reduceCtorEq, false_and, exists_false]
  | ok accepted =>
    obtain ⟨events, plan⟩ := accepted
    simp only [Request.begin?, Option.map_eq_none_iff, Execution.begin?_eq_none_iff]
    constructor
    · intro h
      exact ⟨events, plan, rfl, h⟩
    · rintro ⟨_, _, ⟨⟩, h⟩
      exact h

namespace Signing

variable {settings : Settings} {signer : Signer} {digest : ByteArray}
  {participants : List MemberId} {e : Error}

/-- What a signing asks of its arguments. -/
structure Admissible (settings : Settings) (signer : Signer) (digest : ByteArray)
    (participants : List MemberId) : Prop where
  positive : settings.Positive
  length : digest.size = digestLength
  members : ∀ m ∈ participants, m ∈ signer.group.members
  group : Group.Valid signer.group.localMember participants signer.group.threshold

/-- The first thing that is wrong with the arguments of a signing, with the error that says so. -/
inductive FirstFault (settings : Settings) (signer : Signer) (digest : ByteArray)
    (participants : List MemberId) : Error → Prop
  | setting {before after : List (String × UInt64)} {name : String}
      (htimes : settings.times = before ++ (name, 0) :: after)
      (hbefore : ∀ time ∈ before, 0 < time.2) :
      FirstFault settings signer digest participants (.setting (.notPositive name))
  | length (hpositive : settings.Positive) (hlength : digest.size ≠ digestLength) :
      FirstFault settings signer digest participants
        (.invalidDigestLength digestLength digest.size)
  | outsider {before after : List MemberId} {m : MemberId} (hpositive : settings.Positive)
      (hlength : digest.size = digestLength) (hparticipants : participants = before ++ m :: after)
      (hbefore : ∀ k ∈ before, k ∈ signer.group.members) (houtside : m ∉ signer.group.members) :
      FirstFault settings signer digest participants (.memberNotInGroup m)
  | group {e : Error} (hpositive : settings.Positive) (hlength : digest.size = digestLength)
      (hmembers : ∀ m ∈ participants, m ∈ signer.group.members)
      (hbreaks : Group.Breaks signer.group.localMember participants signer.group.threshold e) :
      FirstFault settings signer digest participants e

theorem isMember_iff {m : MemberId} : signer.group.isMember m = true ↔ m ∈ signer.group.members :=
  decide_eq_true_iff

theorem find?_eq_none_iff :
    participants.find? (!signer.group.isMember ·) = none ↔
      ∀ m ∈ participants, m ∈ signer.group.members := by
  simp only [List.find?_eq_none, Bool.not_eq_true', Bool.not_eq_false, isMember_iff]

theorem find?_eq_some_iff {m : MemberId} :
    participants.find? (!signer.group.isMember ·) = some m ↔
      ∃ before after, participants = before ++ m :: after ∧
        (∀ k ∈ before, k ∈ signer.group.members) ∧ m ∉ signer.group.members := by
  simp only [List.find?_eq_some_iff_append, Bool.not_eq_true', Bool.not_not, isMember_iff,
    ← Bool.not_eq_true]
  grind

/-- Where nothing is wrong before, the group of the participants decides. -/
theorem plan_of_members (hpositive : settings.Positive) (hlength : digest.size = digestLength)
    (hmembers : ∀ m ∈ participants, m ∈ signer.group.members) :
    plan settings signer digest participants =
      (Group.create (signingId signer.group.id digest) signer.group.localMember participants
        signer.group.threshold).map fun group =>
          ([], ⟨.signing, settings.signingTimeout, settings.joinInterval, group⟩) := by
  simp only [plan, Settings.validate_eq_ok_iff.mpr hpositive, find?_eq_none_iff.mpr hmembers,
    hlength]
  cases Group.create (signingId signer.group.id digest) signer.group.localMember participants
    signer.group.threshold with
  | error e => rfl
  | ok group => rfl

theorem plan_eq_error_iff :
    plan settings signer digest participants = .error e ↔
      FirstFault settings signer digest participants e := by
  constructor
  · intro h
    have hadmits := admits settings signer digest participants
    rw [h] at hadmits
    cases hadmits with
    | invalid hinvalid =>
      obtain ⟨before, name, after, htimes, hbefore, rfl⟩ :=
        Settings.validate_eq_error_iff.mp hinvalid
      exact .setting htimes hbefore
    | length hvalid hlength => exact .length (Settings.validate_eq_ok_iff.mp hvalid) hlength
    | outsider hvalid hlength hfirst =>
      obtain ⟨before, after, hparticipants, hbefore, houtside⟩ := find?_eq_some_iff.mp hfirst
      exact .outsider (Settings.validate_eq_ok_iff.mp hvalid) hlength hparticipants hbefore
        houtside
    | groupless hvalid hlength hmembers hgroup =>
      exact .group (Settings.validate_eq_ok_iff.mp hvalid) hlength
        (fun m hm => isMember_iff.mp (hmembers m hm)) (Group.create_eq_error_iff.mp hgroup)
  · intro h
    cases h with
    | setting htimes hbefore =>
      have hinvalid := Settings.validate_eq_error_iff.mpr ⟨_, _, _, htimes, hbefore, rfl⟩
      simp only [plan, hinvalid]
      rfl
    | length hpositive hlength =>
      simp only [plan, Settings.validate_eq_ok_iff.mpr hpositive]
      exact if_pos hlength
    | outsider hpositive hlength hparticipants hbefore houtside =>
      have hfirst := find?_eq_some_iff.mpr ⟨_, _, hparticipants, hbefore, houtside⟩
      simp only [plan, Settings.validate_eq_ok_iff.mpr hpositive, hlength, hfirst]
      rfl
    | group hpositive hlength hmembers hbreaks =>
      rw [plan_of_members hpositive hlength hmembers, Group.create_eq_error_iff.mpr hbreaks]
      rfl

/-- The group that signs: the participants under the key's threshold, with an id of their own. -/
structure Convenes (signer : Signer) (digest : ByteArray) (participants : List MemberId)
    (group : Group) : Prop where
  id : group.id = signingId signer.group.id digest
  localMember : group.localMember = signer.group.localMember
  members : group.members = participants
  threshold : group.threshold = signer.group.threshold

/-- The plan under which a group signs. -/
def planOf (settings : Settings) (group : Group) : Plan :=
  ⟨.signing, settings.signingTimeout, settings.joinInterval, group⟩

theorem plan_of_admissible (h : Admissible settings signer digest participants) :
    ∃ group, Convenes signer digest participants group ∧
      plan settings signer digest participants = .ok ([], planOf settings group) := by
  obtain ⟨group, hgroup⟩ : ∃ group, Group.create (signingId signer.group.id digest)
      signer.group.localMember participants signer.group.threshold = .ok group :=
    Group.exists_create_iff.mpr h.group
  obtain ⟨hid, hlocal, hmembers, hthreshold⟩ := Group.create_eq_ok_iff.mp hgroup
  refine ⟨group, ⟨hid, hlocal, hmembers, hthreshold⟩, ?_⟩
  rw [plan_of_members h.positive h.length h.members, hgroup]
  rfl

theorem exists_plan_iff :
    (∃ accepted, plan settings signer digest participants = .ok accepted) ↔
      Admissible settings signer digest participants := by
  constructor
  · rintro ⟨accepted, h⟩
    have hadmits := admits settings signer digest participants
    rw [h] at hadmits
    cases hadmits with
    | accepted hvalid hlength hmembers hgroup =>
      exact ⟨Settings.validate_eq_ok_iff.mp hvalid, hlength,
        fun m hm => isMember_iff.mp (hmembers m hm), Group.exists_create_iff.mp ⟨_, hgroup⟩⟩
  · intro h
    obtain ⟨group, -, hplan⟩ := plan_of_admissible h
    exact ⟨_, hplan⟩

theorem begin?_eq_none_iff {σ τ : Type} {t : Transport τ}
    {makeParty : Group → Except PartyError σ} {now elapsed : Nat} {s : τ} :
    Request.begin? (α := Signature) (plan settings signer digest participants) t makeParty
        now elapsed s = none ↔
      Admissible settings signer digest participants ∧
        Deadline.Overflows now settings.signingTimeout := by
  rw [Request.begin?_eq_none_iff]
  constructor
  · rintro ⟨events, accepted, hplan, hover⟩
    have hadmissible := exists_plan_iff.mp ⟨_, hplan⟩
    obtain ⟨group, -, hplanned⟩ := plan_of_admissible hadmissible
    rw [hplanned] at hplan
    cases hplan
    exact ⟨hadmissible, hover⟩
  · rintro ⟨hadmissible, hover⟩
    obtain ⟨group, -, hplanned⟩ := plan_of_admissible hadmissible
    exact ⟨_, _, hplanned, hover⟩

/-- Under a clock that can be started a signing begins, with its party or with the reason why it has
none. -/
theorem exists_begun {σ τ : Type} (group : Group) {deadline : Deadline} {now : Nat}
    (hdeadline : Deadline.start? now settings.signingTimeout = some deadline) (t : Transport τ)
    (makeParty : Group → Except PartyError σ) (elapsed : Nat) (s : τ) :
    ∃ events, ∃ x : Execution σ Signature, ∃ left,
      Execution.begin? (planOf settings group) t makeParty now elapsed s =
          some (events, x, left) ∧
        (∀ e, makeParty group = .error e →
          x.result? = some (.error (.protocolFailure e.cause)) ∧ left = s ∧ x.Inert t) ∧
        ∀ party, makeParty group = .ok party →
          (1000 * settings.signingSecs.toNat ≤ elapsed →
            x.result? = some (.error (.signingTimeout settings.signingTimeout)) ∧
              left = s ∧ x.Inert t) ∧
          (elapsed < 1000 * settings.signingSecs.toNat →
            (x, left) = Execution.connect (planOf settings group) deadline t party now s) := by
  have hstart : Deadline.start? now (planOf settings group).timeout = some deadline := hdeadline
  have hlong : (planOf settings group).timeout.inNanos ≤ Deadline.nanosOf elapsed ↔
      1000 * settings.signingSecs.toNat ≤ elapsed := by
    rw [planOf, Settings.signingTimeout, Duration.inNanos_ofSecs, Deadline.nanosOf_le_iff]
  cases hmade : makeParty group with
  | error e =>
    refine ⟨_, _, _, Execution.begin?_of_failed hstart hmade, ?_, ?_⟩
    · rintro _ ⟨⟩
      exact ⟨rfl, rfl, Execution.inert_of_ended rfl⟩
    · rintro _ ⟨⟩
  | ok party =>
    have hmakes : makeParty (planOf settings group).group = .ok party := hmade
    by_cases hlate : 1000 * settings.signingSecs.toNat ≤ elapsed
    · refine ⟨_, _, _, Execution.begin?_of_late hstart hmakes (hlong.mpr hlate), ?_, ?_⟩
      · rintro _ ⟨⟩
      · rintro _ ⟨⟩
        refine ⟨fun _ => ⟨rfl, rfl, Execution.inert_of_ended rfl⟩, fun htimely => ?_⟩
        exact absurd htimely (Nat.not_lt.mpr hlate)
    · have htimely := Nat.not_le.mp (mt hlong.mp hlate)
      refine ⟨_, _, _, Execution.begin?_of_timely hstart hmakes htimely, ?_, ?_⟩
      · rintro _ ⟨⟩
      · rintro _ ⟨⟩
        exact ⟨fun hover => absurd hover hlate, fun _ => rfl⟩

/-- A signing is refused for the first thing that is wrong with its arguments, before anything is
asked of the transport. If nothing is wrong, its clock is started and its party is made, for the
group of the participants; if that fails or takes too long, the signing ends so, and nothing was or
will be asked of the transport either. What is not refused is not begun only if the clock cannot add
the timeout. -/
theorem admission (settings : Settings) (signer : Signer) (digest : ByteArray)
    (participants : List MemberId) :
    ((∃ accepted, plan settings signer digest participants = .ok accepted) ↔
        Admissible settings signer digest participants) ∧
      (∀ e, plan settings signer digest participants = .error e ↔
        FirstFault settings signer digest participants e) ∧
      ∀ {σ τ : Type} (t : Transport τ) (makeParty : Group → Except PartyError σ)
        (now elapsed : Nat) (s : τ),
        let begun := Request.begin? (α := Signature) (plan settings signer digest participants) t
          makeParty now elapsed s
        (∀ e, FirstFault settings signer digest participants e →
          begun = some ([], .refused e, s)) ∧
        (begun = none ↔ Admissible settings signer digest participants ∧
          Deadline.clockLimit ≤ now / 1000 + settings.signingSecs.toNat) ∧
        (Admissible settings signer digest participants →
          now / 1000 + settings.signingSecs.toNat < Deadline.clockLimit →
            ∃ group deadline events x left, Convenes signer digest participants group ∧
              Deadline.start? now settings.signingTimeout = some deadline ∧
              begun = some (events, .begun x, left) ∧
              (∀ e, makeParty group = .error e →
                x.result? = some (.error (.protocolFailure e.cause)) ∧ left = s ∧ x.Inert t) ∧
              ∀ party, makeParty group = .ok party →
                (1000 * settings.signingSecs.toNat ≤ elapsed →
                  x.result? = some (.error (.signingTimeout settings.signingTimeout)) ∧
                    left = s ∧ x.Inert t) ∧
                (elapsed < 1000 * settings.signingSecs.toNat →
                  (x, left) =
                    Execution.connect (planOf settings group) deadline t party now s)) := by
  refine ⟨exists_plan_iff, fun e => plan_eq_error_iff, ?_⟩
  intro σ τ t makeParty now elapsed s
  have hover : Deadline.Overflows now settings.signingTimeout ↔
      Deadline.clockLimit ≤ now / 1000 + settings.signingSecs.toNat :=
    Deadline.overflows_ofSecs_iff
  refine ⟨?_, by rw [begin?_eq_none_iff, hover], ?_⟩
  · intro e hfault
    rw [plan_eq_error_iff.mpr hfault]
    rfl
  · intro hadmissible hroom
    obtain ⟨group, hconvenes, hplan⟩ := plan_of_admissible hadmissible
    rw [← Nat.not_le, ← hover] at hroom
    obtain ⟨deadline, hdeadline⟩ : ∃ deadline,
        Deadline.start? now settings.signingTimeout = some deadline :=
      ⟨_, Deadline.start?_eq_some_iff.mpr ⟨hroom, rfl⟩⟩
    obtain ⟨events, x, left, hbegun, hfailed, hmade⟩ :=
      exists_begun group hdeadline t makeParty elapsed s
    refine ⟨group, deadline, [] ++ events, x, left, hconvenes, hdeadline, ?_, hfailed, hmade⟩
    rw [hplan]
    exact congrArg (Option.map _) hbegun

/-- As long as can be said: no limit, in effect. -/
def unlimited : Settings where
  signingSecs := 0xffffffffffffffff

/-- Nothing is wrong with these arguments, and yet no signing is ever begun with them. -/
theorem unlimited_never_begins :
    Admissible unlimited signerOfOne zeroDigest [first, second] ∧
      (∀ e, ¬ FirstFault unlimited signerOfOne zeroDigest [first, second] e) ∧
      ∀ {σ τ : Type} (t : Transport τ) (makeParty : Group → Except PartyError σ)
        (now elapsed : Nat) (s : τ),
        Request.begin? (α := Signature) (plan unlimited signerOfOne zeroDigest [first, second]) t
          makeParty now elapsed s = none := by
  have hadmissible : Admissible unlimited signerOfOne zeroDigest [first, second] :=
    ⟨by decide, by decide, by decide, by decide, by decide, by decide, by decide⟩
  have hover (now : Nat) : Deadline.Overflows now unlimited.signingTimeout :=
    Deadline.overflows_ofSecs_iff.mpr (Nat.le_add_left_of_le (by decide))
  refine ⟨hadmissible, fun e hfault => ?_, fun t makeParty now elapsed s => ?_⟩
  · obtain ⟨accepted, haccepted⟩ := exists_plan_iff.mpr hadmissible
    cases haccepted.symm.trans (plan_eq_error_iff.mpr hfault)
  · exact begin?_eq_none_iff.mpr ⟨hadmissible, hover now⟩

/-- Of several faults the first is reported. -/
example : plan { signingSecs := 0 } signerOfOne ⟨#[1]⟩ [second, second] =
    .error (.setting (.notPositive Settings.signingName)) :=
  rfl

theorem two_le_length_iff {localMember : MemberId} (hlocal : localMember ∈ participants)
    (hnodup : participants.Nodup) :
    2 ≤ participants.length ↔ participants ≠ [localMember] := by
  constructor
  · rintro hlength rfl
    simp at hlength
  · intro hothers
    have hpos : 0 < participants.length := List.length_pos_of_mem hlocal
    by_contra hshort
    obtain ⟨m, rfl⟩ := List.length_eq_one_iff.mp (by omega : participants.length = 1)
    rw [List.mem_singleton.mp hlocal] at hothers
    exact hothers rfl

theorem admissible_iff_of_members (hpositive : settings.Positive)
    (hlength : digest.size = digestLength)
    (hmembers : ∀ m ∈ participants, m ∈ signer.group.members) (hnodup : participants.Nodup)
    (hlocal : signer.group.localMember ∈ participants) :
    Admissible settings signer digest participants ↔
      2 ≤ participants.length ∧ signer.group.quorum ≤ participants.length :=
  ⟨fun h => ⟨h.group.two_le, h.group.threshold_lt⟩, fun ⟨htwo, hquorum⟩ =>
    ⟨hpositive, hlength, hmembers, htwo, hquorum, hnodup, hlocal⟩⟩

/-- Members can sign together exactly if they are at least two and at least as many as the quorum.
So the quorum is the least number that can sign where someone may be dishonest. Where no one may be,
it is one, and that is too few: of the sets of members the local member alone is refused. -/
theorem accepted_iff_quorum_le (hpositive : settings.Positive)
    (hlength : digest.size = digestLength)
    (hmembers : ∀ m ∈ participants, m ∈ signer.group.members) (hnodup : participants.Nodup)
    (hlocal : signer.group.localMember ∈ participants) :
    ((∃ accepted, plan settings signer digest participants = .ok accepted) ↔
        2 ≤ participants.length ∧ signer.group.quorum ≤ participants.length) ∧
      (0 < signer.group.threshold →
        ((∃ accepted, plan settings signer digest participants = .ok accepted) ↔
          signer.group.quorum ≤ participants.length)) ∧
      (signer.group.threshold = 0 →
        signer.group.quorum ≤ participants.length ∧
          ((∃ accepted, plan settings signer digest participants = .ok accepted) ↔
            participants ≠ [signer.group.localMember])) ∧
      (participants = [signer.group.localMember] →
        plan settings signer digest participants = .error (.invalidGroupSize 1)) := by
  have haccepted := exists_plan_iff.trans
    (admissible_iff_of_members hpositive hlength hmembers hnodup hlocal)
  have hpos : 0 < participants.length := List.length_pos_of_mem hlocal
  have hquorum : signer.group.quorum = signer.group.threshold + 1 := rfl
  refine ⟨haccepted, ?_, ?_, ?_⟩
  · intro hthreshold
    rw [haccepted]
    omega
  · intro hthreshold
    have hreached : signer.group.quorum ≤ participants.length := by omega
    rw [haccepted, ← two_le_length_iff hlocal hnodup]
    exact ⟨hreached, fun h => h.1, fun h => ⟨h, hreached⟩⟩
  · intro halone
    refine plan_eq_error_iff.mpr (.group hpositive hlength hmembers ?_)
    have hsmall : participants.length < 2 := by
      rw [halone]
      exact Nat.one_lt_two
    have hbreaks : Group.Breaks signer.group.localMember participants signer.group.threshold
        (.invalidGroupSize participants.length) := .small hsmall
    rwa [halone] at hbreaks ⊢

theorem accepted_pair :
    signerOfOne.group.quorum ≤ [second, first].length ∧
      ∃ accepted, plan {} signerOfOne zeroDigest [second, first] = .ok accepted := by
  have hquorum : signerOfOne.group.quorum ≤ [second, first].length := by decide
  have haccepted : (∃ accepted, plan {} signerOfOne zeroDigest [second, first] = .ok accepted) ↔
      signerOfOne.group.quorum ≤ [second, first].length :=
    (accepted_iff_quorum_le (by decide) (by decide) (by decide) (by decide) (by decide)).2.1
      (by decide)
  exact ⟨hquorum, haccepted.mpr hquorum⟩

/-- A key whose holders all trust each other. -/
def trustingSigner : Signer :=
  { signerOfOne with
    group := ⟨"g", first, [first, second], 0, by decide, by decide, by decide, by decide⟩ }

/-- One member is a quorum there, and yet cannot sign. -/
theorem quorum_refused :
    ({} : Settings).Positive ∧ zeroDigest.size = digestLength ∧
      (∀ m ∈ [first], m ∈ trustingSigner.group.members) ∧ [first].Nodup ∧
      trustingSigner.group.localMember ∈ [first] ∧
      trustingSigner.group.quorum ≤ [first].length ∧
      ¬ ∃ accepted, plan {} trustingSigner zeroDigest [first] = .ok accepted := by
  refine ⟨by decide, by decide, by decide, by decide, by decide, by decide, ?_⟩
  rintro ⟨accepted, haccepted⟩
  exact absurd (exists_plan_iff.mp ⟨accepted, haccepted⟩).group.two_le (by decide)

end Signing

end ThresholdSigning
