import Mathlib.Data.List.Basic
import Mathlib.Order.WellFounded
import ThresholdSigning.Proofs.Admission

namespace ThresholdSigning

/-- What can be set. -/
inductive Setting
  | keyGeneration
  | signing
  | preParams
  | joinInterval
  | requirePreParams
deriving DecidableEq

/-- What a setting is set to. -/
inductive Choice
  | word (n : UInt64)
  | flag (b : Bool)
deriving DecidableEq

namespace Setting

def name : Setting → String
  | keyGeneration => Settings.keyGenerationName
  | signing => Settings.signingName
  | preParams => Settings.preParamsName
  | joinInterval => Settings.joinIntervalName
  | requirePreParams => Settings.requirePreParamsName

/-- All of them, in the order in which they are declared. -/
def all : List Setting := [keyGeneration, signing, preParams, joinInterval, requirePreParams]

instance : LT Setting := ⟨fun x y => all.idxOf x < all.idxOf y⟩

variable {x y : Setting}

theorem mem_all (x : Setting) : x ∈ all := by cases x <;> decide

theorem lt_iff : x < y ↔ all.idxOf x < all.idxOf y := Iff.rfl

instance (x y : Setting) : Decidable (x < y) := decidable_of_iff _ lt_iff.symm

theorem lt_iff_mem : y < x ↔ y ∈ all.takeWhile (· ≠ x) := by
  cases x <;> cases y <;> decide

/-- There is only one first setting with a given property. -/
theorem eq_of_first {p : Setting → Prop} (hx : p x) (hfirst : ∀ z < x, ¬ p z) (hy : p y)
    (hfirst' : ∀ z < y, ¬ p z) : x = y := by
  rcases Nat.lt_trichotomy (all.idxOf x) (all.idxOf y) with hlt | heq | hlt
  · exact absurd hx (hfirst' x hlt)
  · exact (List.idxOf_inj (mem_all x)).mp heq
  · exact absurd hy (hfirst y hlt)

/-- If some settings have a property, one of them is the first. -/
theorem exists_first {p : Setting → Prop} (hsome : ∃ x, p x) : ∃ x, p x ∧ ∀ y < x, ¬ p y := by
  obtain ⟨x, hx, hfirst⟩ := (measure all.idxOf).wf.has_min {x | p x} hsome
  exact ⟨x, hx, fun y hlt hy => hfirst y hy hlt⟩

end Setting

namespace Settings

variable {s s' : Settings} {e : Error}

def get (s : Settings) : Setting → Choice
  | .keyGeneration => .word s.keyGenerationSecs
  | .signing => .word s.signingSecs
  | .preParams => .word s.preParamsSecs
  | .joinInterval => .word s.joinIntervalMillis
  | .requirePreParams => .flag s.requirePreParams

theorem eq_of_get (h : ∀ x, s.get x = s'.get x) : s = s' := by
  obtain ⟨keyGeneration, signing, preParams, joinInterval, require⟩ := s
  obtain rfl := Choice.word.inj (h .keyGeneration)
  obtain rfl := Choice.word.inj (h .signing)
  obtain rfl := Choice.word.inj (h .preParams)
  obtain rfl := Choice.word.inj (h .joinInterval)
  obtain rfl := Choice.flag.inj (h .requirePreParams)
  rfl

theorem validate_eq_ok_iff_get : s.validate = .ok () ↔ ∀ x, s.get x ≠ .word 0 := by
  rw [validate_eq_ok_iff, Positive]
  simp only [times, List.forall_mem_cons, pos_iff]
  constructor
  · rintro ⟨hkeyGeneration, hsigning, hpreParams, hjoinInterval, -⟩ x
    cases x <;> simp [get, *]
  · intro h
    have hword {x : Setting} {n : UInt64} (hx : s.get x = .word n) : n ≠ 0 := by
      rintro rfl
      exact h x hx
    refine ⟨@hword .keyGeneration _ rfl, @hword .signing _ rfl, @hword .preParams _ rfl,
      @hword .joinInterval _ rfl, ?_⟩
    simp

theorem validate_of_first {x : Setting} (hzero : s.get x = .word 0)
    (hfirst : ∀ y < x, s.get y ≠ .word 0) :
    s.validate = .error (.setting (.notPositive x.name)) := by
  have hpos {y : Setting} {n : UInt64} (hy : s.get y = .word n) (hlt : y < x) : n ≠ 0 := by
    rintro rfl
    exact hfirst y hlt hy
  cases x with
  | keyGeneration =>
    have h := Choice.word.inj hzero
    simp [validate, times, Setting.name, h]
  | signing =>
    have h := Choice.word.inj hzero
    have hkeyGeneration := @hpos .keyGeneration _ rfl (by decide)
    simp [validate, times, Setting.name, *]
  | preParams =>
    have h := Choice.word.inj hzero
    have hkeyGeneration := @hpos .keyGeneration _ rfl (by decide)
    have hsigning := @hpos .signing _ rfl (by decide)
    simp [validate, times, Setting.name, *]
  | joinInterval =>
    have h := Choice.word.inj hzero
    have hkeyGeneration := @hpos .keyGeneration _ rfl (by decide)
    have hsigning := @hpos .signing _ rfl (by decide)
    have hpreParams := @hpos .preParams _ rfl (by decide)
    simp [validate, times, Setting.name, *]
  | requirePreParams => cases hzero

/-- The first setting that is zero is the one that is reported. -/
theorem validate_eq_error_iff_get :
    s.validate = .error e ↔
      ∃ x, s.get x = .word 0 ∧ (∀ y < x, s.get y ≠ .word 0) ∧
        e = .setting (.notPositive x.name) := by
  constructor
  · intro h
    have hzero : ∃ x, s.get x = .word 0 := by
      by_contra hnone
      cases h.symm.trans (validate_eq_ok_iff_get.mpr (not_exists.mp hnone))
    obtain ⟨x, hx, hfirst⟩ := Setting.exists_first hzero
    exact ⟨x, hx, hfirst, Except.error.inj (h.symm.trans (validate_of_first hx hfirst))⟩
  · rintro ⟨x, hx, hfirst, rfl⟩
    exact validate_of_first hx hfirst

end Settings

end ThresholdSigning
