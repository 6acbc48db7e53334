import ThresholdSigning.Link
import ThresholdSigning.Proofs.Curve
import ThresholdSigning.Proofs.Execution
import ThresholdSigning.Proofs.Frame
import ThresholdSigning.Proofs.Normalization
import ThresholdSigning.Signing

namespace ThresholdSigning.Signing

open Curve

variable {σ τ : Type} {p : Party σ Signature} {t : Transport τ} {settings : Settings}
  {signer : Signer} {digest : ByteArray} {participants : List MemberId}
  {r : Request σ Signature}

theorem conclude_eq_ok_iff {output sig : Signature} :
    conclude signer digest output = .ok sig ↔
      output.verify signer.key.ecdsaPub digest = true ∧ sig = output.normalize := by
  unfold conclude
  rw [Signature.verify_normalize]
  constructor
  · intro h
    split at h
    next hverify =>
      cases h
      exact ⟨hverify, rfl⟩
    next => cases h
  · rintro ⟨hverify, rfl⟩
    exact if_pos hverify

theorem conclude_of_unverified {output : Signature}
    (h : output.verify signer.key.ecdsaPub digest = false) :
    conclude signer digest output = .error (.protocolFailure .unverifiedSignature) := by
  unfold conclude
  rw [Signature.verify_normalize, h]
  rfl

theorem conclude_twin {other : Signer} (hkey : other.key.ecdsaPub = signer.key.ecdsaPub)
    (output : Signature) : conclude other digest output.twin = conclude signer digest output := by
  cases hverify : output.verify signer.key.ecdsaPub digest with
  | false =>
    have htwin : output.twin.verify other.key.ecdsaPub digest = false := by
      rw [Signature.verify_twin, hkey, hverify]
    rw [conclude_of_unverified hverify, conclude_of_unverified htwin]
  | true =>
    obtain ⟨hpos, hlt⟩ := Signature.s_range_of_verify hverify
    have htwin : output.twin.verify other.key.ecdsaPub digest = true := by
      rw [Signature.verify_twin, hkey, hverify]
    rw [conclude_eq_ok_iff.mpr ⟨hverify, rfl⟩, conclude_eq_ok_iff.mpr ⟨htwin, rfl⟩,
      Signature.normalize_twin hpos hlt]

/-- A signing that was asked for with some arguments, at any moment. -/
def Attempt (p : Party σ Signature) (t : Transport τ) (settings : Settings) (signer : Signer)
    (digest : ByteArray) (participants : List MemberId) (r : Request σ Signature) : Prop :=
  ∃ (makeParty : Group → Except PartyError σ) (now elapsed : Nat) (s left : τ)
    (events : List Event) (start : Request σ Signature),
    Request.begin? (plan settings signer digest participants) t makeParty now elapsed s =
      some (events, start, left) ∧ start.Becomes p t r

theorem Attempt.carriesOut (h : Attempt p t settings signer digest participants r) :
    r.CarriesOut (plan settings signer digest participants) p := by
  obtain ⟨makeParty, now, elapsed, s, left, events, start, hbegin, hbecomes⟩ := h
  exact (Request.carriesOut_of_begin? hbegin).becomes hbecomes

theorem Attempt.accepted (h : Attempt p t settings signer digest participants r)
    {output : Signature} (hyields : r.Yields output) :
    ∃ accepted, plan settings signer digest participants = .ok accepted := by
  obtain ⟨x, rfl, -⟩ := hyields
  obtain ⟨⟨events, hplan⟩, -⟩ := h.carriesOut
  exact ⟨_, hplan⟩

/-- Whatever the party is and whatever happens to its traffic: a signing gives a signature exactly
when its arguments were accepted and its execution has an output that verifies, and then gives the
low form of the output. Two signings under one key give the same where one party's output is the
twin of the other's. -/
theorem result?_eq_ok_iff_verify (h : Attempt p t settings signer digest participants r) :
    (∀ sig, r.result? (conclude signer digest) = some (.ok sig) ↔
        (∃ accepted, plan settings signer digest participants = .ok accepted) ∧
          ∃ output, r.Yields output ∧ output.verify signer.key.ecdsaPub digest = true ∧
            sig = output.normalize) ∧
      (∀ sig, r.result? (conclude signer digest) = some (.ok sig) →
        1 ≤ sig.r.toNat ∧ sig.r.toNat < order ∧ 1 ≤ sig.s.toNat ∧
          sig.s.toNat ≤ (order - 1) / 2 ∧ sig.verify signer.key.ecdsaPub digest = true) ∧
      (∀ output, r.Yields output → p.Gives output ∧
        (output.verify signer.key.ecdsaPub digest = false →
          r.result? (conclude signer digest) =
            some (.error (.protocolFailure .unverifiedSignature)))) ∧
      ∀ {σ' τ' : Type} {p' : Party σ' Signature} {t' : Transport τ'} {settings' : Settings}
        {signer' : Signer} {participants' : List MemberId} {r' : Request σ' Signature},
        Attempt p' t' settings' signer' digest participants' r' →
        signer'.key.ecdsaPub = signer.key.ecdsaPub →
        ∀ output, r.Yields output → r'.Yields output.twin →
          r'.result? (conclude signer' digest) = r.result? (conclude signer digest) := by
  refine ⟨?_, ?_, ?_, ?_⟩
  · intro sig
    rw [Request.result?_eq_ok_iff]
    constructor
    · rintro ⟨output, hyields, hconclude⟩
      obtain ⟨hverify, hsig⟩ := conclude_eq_ok_iff.mp hconclude
      exact ⟨h.accepted hyields, output, hyields, hverify, hsig⟩
    · rintro ⟨-, output, hyields, hverify, hsig⟩
      exact ⟨output, hyields, conclude_eq_ok_iff.mpr ⟨hverify, hsig⟩⟩
  · intro sig hresult
    obtain ⟨output, -, hconclude⟩ := Request.result?_eq_ok_iff.mp hresult
    obtain ⟨hverify, rfl⟩ := conclude_eq_ok_iff.mp hconclude
    obtain ⟨hr, hrlt, hs, hle⟩ := Signature.range_of_verify hverify
    rw [Signature.normalize_r, Signature.verify_normalize]
    exact ⟨hr, hrlt, hs, hle, hverify⟩
  · intro output hyields
    refine ⟨h.carriesOut.gives hyields, fun hverify => ?_⟩
    rw [hyields.result?_eq, conclude_of_unverified hverify]
  · intro _ _ _ _ _ _ _ _ _ hkey output hyields htwin
    rw [htwin.result?_eq, hyields.result?_eq, conclude_twin hkey]

def first : MemberId := ⟨⟨#[97]⟩⟩
def second : MemberId := ⟨⟨#[98]⟩⟩

/-- The key whose secret is one, in the hands of the first of two members. -/
def signerOfOne : Signer where
  group := ⟨"g", first, [first, second], 1, by decide, by decide, by decide, by decide⟩
  key := ⟨⟨⟨.zero, .zero, .zero⟩, .zero, .zero, .zero⟩, ⟨.zero, .zero⟩, [], [], [], [], [], [],
    .affine baseX baseY onCurve_base⟩

def zeroDigest : ByteArray := ⟨⟨List.replicate 32 0⟩⟩

/-- Signs the zero digest with one as the secret and the nonce, in the high form. -/
def highSignature : Signature := ⟨BitVec.ofNat 256 baseX, BitVec.ofNat 256 (order - baseX), 0⟩

def readyParty : Party Unit Signature where
  start s := (.ok (), s)
  feed _ s := (.ok (), s)
  drain s := ([], s)
  isComplete _ := true
  result s := (.ok highSignature, s)

/-- The second member has announced itself already. -/
def link : Link :=
  { Link.create first none false with
    inbox := [⟨signingId "g" zeroDigest, second, (Envelope.announce second).framed⟩] }

def ended : Option (Request Unit Signature) :=
  match Request.begin? (plan {} signerOfOne zeroDigest [first, second]) (Link.transport first)
    (fun _ => .ok ()) 0 0 link with
  | some (_, .begun x, left) =>
    (x.perform? readyParty (Link.transport first) 0
      [.dispatch, .join, .join, .join, .join, .rounds .work, .rounds .work, .rounds .work,
        .rounds .finish, .rounds .send] left).map fun y => .begun y.1
  | _ => none

theorem attempt_of_ended {r : Request Unit Signature} (h : ended = some r) :
    Attempt readyParty (Link.transport first) {} signerOfOne zeroDigest [first, second] r := by
  unfold ended at h
  split at h
  next events x left hbegin =>
    obtain ⟨⟨y, last⟩, hperform, rfl⟩ := Option.map_eq_some_iff.mp h
    exact ⟨_, _, _, _, _, _, _, hbegin, Request.becomes_of_perform? hperform⟩
  next => cases h

theorem ended_bind_result? :
    (ended.bind (·.result? .ok)).bind Except.toOption = some highSignature := by
  decide +kernel

theorem exists_yields_highSignature : ∃ r, ended = some r ∧ r.Yields highSignature := by
  obtain ⟨result, hresult, hok⟩ := Option.bind_eq_some_iff.mp ended_bind_result?
  obtain ⟨r, hr, hresult⟩ := Option.bind_eq_some_iff.mp hresult
  cases result with
  | error e => cases hok
  | ok output =>
    cases hok
    obtain ⟨output, hyields, he⟩ := Request.result?_eq_ok_iff.mp hresult
    cases he
    exact ⟨r, hr, hyields⟩

theorem result?_highSignature :
    ∃ r, Attempt readyParty (Link.transport first) {} signerOfOne zeroDigest [first, second] r ∧
      r.result? (conclude signerOfOne zeroDigest) =
        some (.ok ⟨BitVec.ofNat 256 baseX, BitVec.ofNat 256 baseX, 1⟩) := by
  obtain ⟨r, hr, hyields⟩ := exists_yields_highSignature
  have hattempt := attempt_of_ended hr
  have hverify : highSignature.verify signerOfOne.key.ecdsaPub zeroDigest = true := by
    decide +kernel
  have hlow : (⟨BitVec.ofNat 256 baseX, BitVec.ofNat 256 baseX, 1⟩ : Signature) =
      highSignature.normalize := by
    decide +kernel
  refine ⟨r, hattempt, ((result?_eq_ok_iff_verify hattempt).1 _).mpr ⟨?_, ?_⟩⟩
  · exact hattempt.accepted hyields
  · exact ⟨highSignature, hyields, hverify, hlow⟩

end ThresholdSigning.Signing
