import ThresholdSigning.KeyGeneration
import ThresholdSigning.Signing

namespace ThresholdSigning

namespace Settings

variable {s : Settings} {e : Error}

/-- Every length of time is positive. -/
def Positive (s : Settings) : Prop := ∀ time ∈ s.times, 0 < time.2

instance (s : Settings) : Decidable s.Positive :=
  inferInstanceAs (Decidable (∀ time ∈ s.times, 0 < time.2))

theorem pos_iff {time : String × UInt64} : 0 < time.2 ↔ ¬ time.2 = 0 := UInt64.pos_iff_ne_zero

theorem validate_eq_ok_iff : s.validate = .ok () ↔ s.Positive := by
  unfold validate Positive
  constructor
  · intro h
    split at h
    next => cases h
    next hnone =>
      intro time hmem
      exact pos_iff.mpr (by simpa using List.find?_eq_none.mp hnone time hmem)
  · intro h
    have hnone : s.times.find? (·.2 = 0) = none :=
      List.find?_eq_none.mpr fun time hmem => by simpa using pos_iff.mp (h time hmem)
    rw [hnone]

/-- The settings are refused for the first length of time that is not positive. -/
theorem validate_eq_error_iff :
    s.validate = .error e ↔
      ∃ before name after, s.times = before ++ (name, 0) :: after ∧
        (∀ time ∈ before, 0 < time.2) ∧ e = .setting (.notPositive name) := by
  unfold validate
  constructor
  · intro h
    split at h
    next name value hfind =>
      cases h
      obtain ⟨hzero, before, after, htimes, hbefore⟩ := List.find?_eq_some_iff_append.mp hfind
      obtain rfl : value = 0 := by simpa using hzero
      refine ⟨before, name, after, htimes, ?_, rfl⟩
      intro time hmem
      exact pos_iff.mpr (by simpa using hbefore time hmem)
    next => cases h
  · rintro ⟨before, name, after, htimes, hbefore, rfl⟩
    have hfind : s.times.find? (·.2 = 0) = some (name, 0) := by
      refine List.find?_eq_some_iff_append.mpr ⟨by simp, before, after, htimes, ?_⟩
      intro time hmem
      simpa using pos_iff.mp (hbefore time hmem)
    rw [hfind]

end Settings

namespace KeyGeneration

/-- All that can become of the arguments of a key generation. -/
inductive Admits (settings : Settings) (group : Group) (preParams : Option PreParams) :
    Except Error (List Event × Plan) → Prop
  | invalid {e : Error} (hinvalid : settings.validate = .error e) :
      Admits settings group preParams (.error e)
  | missing (hvalid : settings.validate = .ok ()) (hnone : preParams = none)
      (hrequired : settings.requirePreParams = true) :
      Admits settings group preParams (.error .missingPreParams)
  | accepted (hvalid : settings.validate = .ok ())
      (henough : preParams = none → settings.requirePreParams = false) :
      Admits settings group preParams
        (.ok (if preParams.isNone then [preParamsMissing group] else [],
          ⟨.keyGeneration, settings.keyGenerationTimeout, settings.joinInterval, group⟩))

theorem admits (settings : Settings) (group : Group) (preParams : Option PreParams) :
    Admits settings group preParams (plan settings group preParams) := by
  unfold plan
  cases hvalid : settings.validate with
  | error e => exact .invalid hvalid
  | ok _ =>
    simp only [bind, Except.bind]
    split
    next hmissing =>
      rw [Bool.and_eq_true, Option.isNone_iff_eq_none] at hmissing
      exact .missing hvalid hmissing.1 hmissing.2
    next henough =>
      refine .accepted hvalid ?_
      rintro rfl
      simpa using henough

end KeyGeneration

namespace Signing

/-- All that can become of the arguments of a signing. -/
inductive Admits (settings : Settings) (signer : Signer) (digest : ByteArray)
    (participants : List MemberId) : Except Error (List Event × Plan) → Prop
  | invalid {e : Error} (hinvalid : settings.validate = .error e) :
      Admits settings signer digest participants (.error e)
  | length (hvalid : settings.validate = .ok ()) (hlength : digest.size ≠ digestLength) :
      Admits settings signer digest participants
        (.error (.invalidDigestLength digestLength digest.size))
  | outsider {m : MemberId} (hvalid : settings.validate = .ok ())
      (hlength : digest.size = digestLength)
      (hfirst : participants.find? (!signer.group.isMember ·) = some m) :
      Admits settings signer digest participants (.error (.memberNotInGroup m))
  | groupless {e : Error} (hvalid : settings.validate = .ok ())
      (hlength : digest.size = digestLength)
      (hmembers : ∀ m ∈ participants, signer.group.isMember m = true)
      (hgroup : Group.create (signingId signer.group.id digest) signer.group.localMember
        participants signer.group.threshold = .error e) :
      Admits settings signer digest participants (.error e)
  | accepted {group : Group} (hvalid : settings.validate = .ok ())
      (hlength : digest.size = digestLength)
      (hmembers : ∀ m ∈ participants, signer.group.isMember m = true)
      (hgroup : Group.create (signingId signer.group.id digest) signer.group.localMember
        participants signer.group.threshold = .ok group) :
      Admits settings signer digest participants
        (.ok ([], ⟨.signing, settings.signingTimeout, settings.joinInterval, group⟩))

theorem admits (settings : Settings) (signer : Signer) (digest : ByteArray)
    (participants : List MemberId) :
    Admits settings signer digest participants (plan settings signer digest participants) := by
  unfold plan
  cases hvalid : settings.validate with
  | error e => exact .invalid hvalid
  | ok _ =>
    simp only [bind, Except.bind]
    split
    next hlength => exact .length hvalid hlength
    next hlength =>
      have hsize : digest.size = digestLength := Decidable.not_not.mp hlength
      split
      next hfirst => exact .outsider hvalid hsize hfirst
      next hnone =>
        have hmembers : ∀ m ∈ participants, signer.group.isMember m = true := by
          simpa using List.find?_eq_none.mp hnone
        split
        next hgroup => exact .groupless hvalid hsize hmembers hgroup
        next hgroup => exact .accepted hvalid hsize hmembers hgroup

end Signing

end ThresholdSigning
