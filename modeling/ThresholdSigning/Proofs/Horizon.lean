import ThresholdSigning.Proofs.Examination

namespace ThresholdSigning

theorem KeyGeneration.begin?_eq_none_iff {σ τ : Type} {t : Transport τ}
    {makeParty : Group → Except PartyError σ} {now elapsed : Nat} {s : τ} {settings : Settings}
    {group : Group} {preParams : Option PreParams} :
    Request.begin? (α := ThresholdKey) (KeyGeneration.plan settings group preParams) t makeParty
        now elapsed s = none ↔
      settings.Positive ∧ (preParams = none → settings.requirePreParams = false) ∧
        Deadline.Overflows now settings.keyGenerationTimeout := by
  rw [Request.begin?_eq_none_iff]
  have hadmits := KeyGeneration.admits settings group preParams
  constructor
  · rintro ⟨events, accepted, hplan, hover⟩
    rw [hplan] at hadmits
    cases hadmits with
    | accepted hvalid henough => exact ⟨Settings.validate_eq_ok_iff.mp hvalid, henough, hover⟩
  · rintro ⟨hpositive, henough, hover⟩
    have hvalid := Settings.validate_eq_ok_iff.mpr hpositive
    generalize KeyGeneration.plan settings group preParams = plan at hadmits
    cases hadmits with
    | invalid hinvalid =>
      rw [hvalid] at hinvalid
      cases hinvalid
    | missing _ hnone hrequired =>
      rw [henough hnone] at hrequired
      cases hrequired
    | accepted => exact ⟨_, _, rfl, hover⟩

namespace Settings

/-- Valid settings say nothing against a timeout that the clock cannot add. Of what is accepted, a
key generation or a signing begins exactly if the present second and the seconds of its timeout stay
below the clock's limit, and then its deadline is that many seconds away; else there is no beginning
at all. -/
theorem begins_within_horizon (settings : Settings) (now : Nat) :
    (∀ group preParams {σ τ : Type} (t : Transport τ) (makeParty : Group → Except PartyError σ)
        (elapsed : Nat) (s : τ),
        Request.begin? (α := ThresholdKey) (KeyGeneration.plan settings group preParams) t
            makeParty now elapsed s = none ↔
          settings.Positive ∧ (preParams = none → settings.requirePreParams = false) ∧
            Deadline.clockLimit ≤ now / 1000 + settings.keyGenerationSecs.toNat) ∧
      (∀ signer digest participants {σ τ : Type} (t : Transport τ)
        (makeParty : Group → Except PartyError σ) (elapsed : Nat) (s : τ),
        Request.begin? (α := Signature) (Signing.plan settings signer digest participants) t
            makeParty now elapsed s = none ↔
          Signing.Admissible settings signer digest participants ∧
            Deadline.clockLimit ≤ now / 1000 + settings.signingSecs.toNat) ∧
      (∀ deadline, Deadline.start? now settings.keyGenerationTimeout = some deadline ↔
        now / 1000 + settings.keyGenerationSecs.toNat < Deadline.clockLimit ∧
          deadline = ⟨settings.keyGenerationTimeout,
            Deadline.nanosOf (now + 1000 * settings.keyGenerationSecs.toNat), false⟩) ∧
      ∀ deadline, Deadline.start? now settings.signingTimeout = some deadline ↔
        now / 1000 + settings.signingSecs.toNat < Deadline.clockLimit ∧
          deadline = ⟨settings.signingTimeout,
            Deadline.nanosOf (now + 1000 * settings.signingSecs.toNat), false⟩ := by
  have hkeys : Deadline.Overflows now settings.keyGenerationTimeout ↔
      Deadline.clockLimit ≤ now / 1000 + settings.keyGenerationSecs.toNat :=
    Deadline.overflows_ofSecs_iff
  have hsigns : Deadline.Overflows now settings.signingTimeout ↔
      Deadline.clockLimit ≤ now / 1000 + settings.signingSecs.toNat :=
    Deadline.overflows_ofSecs_iff
  refine ⟨?_, ?_, ?_, ?_⟩
  · intro group preParams σ τ t makeParty elapsed s
    rw [KeyGeneration.begin?_eq_none_iff, hkeys]
  · intro signer digest participants σ τ t makeParty elapsed s
    rw [Signing.begin?_eq_none_iff, hsigns]
  · intro deadline
    rw [Deadline.start?_eq_some_iff, hkeys, Nat.not_le, keyGenerationTimeout,
      Duration.inNanos_ofSecs, Deadline.nanosOf_add]
  · intro deadline
    rw [Deadline.start?_eq_some_iff, hsigns, Nat.not_le, signingTimeout, Duration.inNanos_ofSecs,
      Deadline.nanosOf_add]

/-- As long as can be said: no timeout at all, in effect. -/
def endless : Settings where
  keyGenerationSecs := 0xffffffffffffffff
  signingSecs := 0xffffffffffffffff

/-- They are valid, and with them no key generation and no signing ever begins. -/
theorem endless_never_begins :
    endless.validate = .ok () ∧
      ∀ now, Deadline.start? now endless.keyGenerationTimeout = none ∧
        Deadline.start? now endless.signingTimeout = none ∧
        ∀ {σ τ : Type} (t : Transport τ) (makeParty : Group → Except PartyError σ) (elapsed : Nat)
          (s : τ),
          Request.begin? (α := ThresholdKey)
              (KeyGeneration.plan endless Signing.signerOfOne.group none) t makeParty now elapsed
              s = none ∧
            Request.begin? (α := Signature)
              (Signing.plan endless Signing.signerOfOne Signing.zeroDigest
                [Signing.first, Signing.second]) t makeParty now elapsed s = none := by
  have hpositive : endless.Positive := by decide
  have hadmissible : Signing.Admissible endless Signing.signerOfOne Signing.zeroDigest
      [Signing.first, Signing.second] :=
    ⟨hpositive, by decide, by decide, by decide, by decide, by decide, by decide⟩
  refine ⟨validate_eq_ok_iff.mpr hpositive, fun now => ?_⟩
  have hover : Deadline.Overflows now (.ofSecs 0xffffffffffffffff) :=
    Deadline.overflows_ofSecs_iff.mpr (by simp only [Deadline.clockLimit]; omega)
  refine ⟨Deadline.start?_eq_none_iff.mpr hover, Deadline.start?_eq_none_iff.mpr hover, ?_⟩
  intro σ τ t makeParty elapsed s
  exact ⟨KeyGeneration.begin?_eq_none_iff.mpr ⟨hpositive, fun _ => rfl, hover⟩,
    Signing.begin?_eq_none_iff.mpr ⟨hadmissible, hover⟩⟩

end Settings

end ThresholdSigning
