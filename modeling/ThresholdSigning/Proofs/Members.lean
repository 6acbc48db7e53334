import ThresholdSigning.Json

namespace ThresholdSigning.Json

theorem word?_eq_some_iff {j : Json} {n : UInt64} :
    j.word? = some n ↔ j = .number (some n.toNat) := by
  unfold word?
  constructor
  · intro h
    split at h
    next m =>
      split at h
      next hfits =>
        cases h
        rw [UInt64.toNat_ofNat_of_lt' hfits]
      next => cases h
    next => cases h
  · rintro rfl
    dsimp only
    rw [if_pos (show n.toNat < wordLimit from n.toNat_lt), UInt64.ofNat_toNat]

theorem flag?_eq_some_iff {j : Json} {b : Bool} : j.flag? = some b ↔ j = .bool b := by
  unfold flag?
  constructor
  · intro h
    split at h
    next => rw [Option.some.inj h]
    next => cases h
  · rintro rfl
    rfl

theorem text?_eq_some_iff {j : Json} {s : String} : j.text? = some s ↔ j = .ofText s := by
  unfold text? ofText
  constructor
  · intro h
    split at h
    next => rw [h]
    next => cases h
  · rintro rfl
    rfl

/-- Null means that there is no value. -/
inductive OrNull {α : Type} (means : Json → α → Prop) : Json → Option α → Prop
  | null : OrNull means .null none
  | value {j : Json} {v : α} (hmeans : means j v) : OrNull means j (some v)

theorem option?_eq_some_iff {α : Type} {read : Json → Option α} {means : Json → α → Prop}
    {j : Json} {v : Option α} (hnull : ∀ v, ¬ means .null v)
    (hread : ∀ {j v}, read j = some v ↔ means j v) :
    j.option? read = some v ↔ OrNull means j v := by
  unfold option?
  constructor
  · intro h
    split at h
    next =>
      cases h
      exact .null
    next =>
      obtain ⟨w, hw, rfl⟩ := Option.map_eq_some_iff.mp h
      exact .value (hread.mp hw)
  · intro h
    cases h with
    | null => rfl
    | value hmeans =>
      split
      next => exact absurd hmeans (hnull _)
      next => rw [hread.mpr hmeans, Option.map_some]

/-- The members of an object whose names are all texts. -/
def named (members : List (String × Json)) : List (Option String × Json) :=
  members.map fun m => (some m.1, m.2)

/-- What stands under a name among the members: nothing, or one value. -/
inductive Slot (members : List (String × Json)) (name : String) : Option Json → Prop
  | absent (hnone : name ∉ members.map Prod.fst) : Slot members name none
  | given {j : Json} (honce : (members.map Prod.fst).count name = 1)
      (hmem : (name, j) ∈ members) : Slot members name (some j)

variable {members : List (String × Json)} {name : String} {slot : Option Json}

theorem named_filter (members : List (String × Json)) (name : String) :
    (named members).filter (·.1 = some name) = named (members.filter (·.1 = name)) := by
  simp only [named, List.filter_map]
  congr 1
  refine List.filter_congr fun m _ => ?_
  simp

theorem count_eq_length (members : List (String × Json)) (name : String) :
    (members.map Prod.fst).count name = (members.filter (·.1 = name)).length := by
  rw [List.count, List.countP_map, List.countP_eq_length_filter]
  rfl

/-- There is a slot under a name unless the name is repeated. -/
theorem member?_cases (members : List (String × Json)) (name : String) :
    (1 < (members.map Prod.fst).count name ∧ member? (named members) name = none) ∨
      ∃ slot, Slot members name slot ∧ member? (named members) name = some slot := by
  unfold member?
  rw [named_filter, count_eq_length]
  cases hfilter : members.filter (·.1 = name) with
  | nil =>
    refine .inr ⟨none, .absent fun hmem => ?_, rfl⟩
    rw [← List.count_pos_iff, count_eq_length, hfilter] at hmem
    exact absurd hmem (by simp)
  | cons m tail =>
    cases tail with
    | nil =>
      obtain ⟨hmem, hname⟩ := List.mem_filter.mp (hfilter ▸ List.mem_singleton_self m)
      obtain ⟨name', j⟩ := m
      obtain rfl : name' = name := by simpa using hname
      exact .inr ⟨some j, .given (by rw [count_eq_length, hfilter]; rfl) hmem, rfl⟩
    | cons next tail => exact .inl ⟨by simp, rfl⟩

theorem Slot.unique {slot' : Option Json} (h : Slot members name slot)
    (h' : Slot members name slot') : slot = slot' := by
  have hname {j : Json} (hmem : (name, j) ∈ members) : name ∈ members.map Prod.fst :=
    List.mem_map_of_mem hmem
  cases h with
  | absent hnone =>
    cases h' with
    | absent => rfl
    | given _ hmem => exact absurd (hname hmem) hnone
  | given honce hmem =>
    cases h' with
    | absent hnone => exact absurd (hname hmem) hnone
    | given _ hmem' =>
      rw [count_eq_length] at honce
      obtain ⟨m, hfilter⟩ := List.length_eq_one_iff.mp honce
      have heq {j : Json} (hmem : (name, j) ∈ members) : (name, j) = m := by
        rw [← List.mem_singleton, ← hfilter]
        exact List.mem_filter.mpr ⟨hmem, by simp⟩
      rw [(Prod.mk.inj ((heq hmem).trans (heq hmem').symm)).2]

theorem Slot.count_le_one (h : Slot members name slot) : (members.map Prod.fst).count name ≤ 1 := by
  cases h with
  | absent hnone =>
    rw [List.count_eq_zero.mpr hnone]
    exact Nat.zero_le 1
  | given honce => exact Nat.le_of_eq honce

section

variable {α : Type} {means : Json → α → Prop} {unset : Option α} {read : Option Json → Option α}
  {v : α}

/-- What a field comes to: what the value under its name means, or what it is left at where no
member has its name. If it is left at nothing, it has to be given. -/
inductive Filled (members : List (String × Json)) (name : String) (means : Json → α → Prop)
    (unset : Option α) : α → Prop
  | absent {v : α} (habsent : Slot members name none) (hunset : unset = some v) :
      Filled members name means unset v
  | given {j : Json} {v : α} (hgiven : Slot members name (some j)) (hmeans : means j v) :
      Filled members name means unset v

/-- A name is repeated, or missing though it has to be there, or what stands under it means
nothing. -/
inductive Misfilled (members : List (String × Json)) (name : String) (means : Json → α → Prop)
    (unset : Option α) : Prop
  | repeated (hmany : 1 < (members.map Prod.fst).count name)
  | missing (hnone : name ∉ members.map Prod.fst) (hunset : unset = none)
  | senseless {j : Json} (hmem : (name, j) ∈ members) (hnone : ∀ v, ¬ means j v)

/-- The value that is read from what stands under a name. -/
def field (members : List (String × Json)) (name : String) (read : Option Json → Option α) :
    Option α :=
  (member? (named members) name).bind read

theorem Filled.exists_slot (h : Filled members name means unset v) :
    ∃ slot, Slot members name slot := by
  cases h with
  | absent habsent => exact ⟨none, habsent⟩
  | given hgiven => exact ⟨_, hgiven⟩

theorem filled_iff_of_absent (habsent : Slot members name none) :
    Filled members name means unset v ↔ unset = some v := by
  constructor
  · intro h
    cases h with
    | absent _ hunset => exact hunset
    | given hgiven => cases habsent.unique hgiven
  · exact .absent habsent

theorem filled_iff_of_given {j : Json} (hgiven : Slot members name (some j)) :
    Filled members name means unset v ↔ means j v := by
  constructor
  · intro h
    cases h with
    | absent habsent => cases habsent.unique hgiven
    | given hgiven' hmeans =>
      obtain rfl := Option.some.inj (hgiven.unique hgiven')
      exact hmeans
  · exact .given hgiven

theorem Filled.unique {w : α} (hv : Filled members name means unset v)
    (hw : Filled members name means unset w) (hmeans : ∀ {j v w}, means j v → means j w → v = w) :
    v = w := by
  obtain ⟨slot, hslot⟩ := hv.exists_slot
  cases slot with
  | none =>
    rw [filled_iff_of_absent hslot] at hv hw
    exact Option.some.inj (hv.symm.trans hw)
  | some j =>
    rw [filled_iff_of_given hslot] at hv hw
    exact hmeans hv hw

theorem field_eq_some_iff (hunset : read none = unset)
    (hread : ∀ {j v}, read (some j) = some v ↔ means j v) :
    field members name read = some v ↔ Filled members name means unset v := by
  unfold field
  obtain ⟨hmany, hmember⟩ | ⟨slot, hslot, hmember⟩ := member?_cases members name
  · rw [hmember, Option.bind_none]
    constructor
    · rintro ⟨⟩
    · intro hfilled
      obtain ⟨slot, hslot⟩ := hfilled.exists_slot
      exact absurd hslot.count_le_one (Nat.not_le.mpr hmany)
  · rw [hmember, Option.bind_some]
    cases slot with
    | none => rw [filled_iff_of_absent hslot, hunset]
    | some j => rw [filled_iff_of_given hslot, hread]

theorem misfilled_iff :
    Misfilled members name means unset ↔ ∀ v, ¬ Filled members name means unset v := by
  constructor
  · intro h v hfilled
    obtain ⟨slot, hslot⟩ := hfilled.exists_slot
    cases h with
    | repeated hmany => exact absurd hslot.count_le_one (Nat.not_le.mpr hmany)
    | missing hnone hunset =>
      rw [filled_iff_of_absent (.absent hnone), hunset] at hfilled
      cases hfilled
    | senseless hmem hnone =>
      have hone := List.count_pos_iff.mpr (List.mem_map_of_mem (f := Prod.fst) hmem)
      have honce := Nat.le_antisymm hslot.count_le_one hone
      exact hnone v ((filled_iff_of_given (.given honce hmem)).mp hfilled)
  · intro h
    obtain ⟨hmany, -⟩ | ⟨slot, hslot, -⟩ := member?_cases members name
    · exact .repeated hmany
    cases hslot with
    | absent hnone =>
      cases unset with
      | none => exact .missing hnone rfl
      | some v => exact absurd (.absent (.absent hnone) rfl) (h v)
    | given honce hmem =>
      exact .senseless hmem fun v hmeans => h v (.given (.given honce hmem) hmeans)

theorem exists_filled (h : ¬ Misfilled members name means unset) :
    ∃ v, Filled members name means unset v :=
  Classical.byContradiction fun hnone => h (misfilled_iff.mpr (not_exists.mp hnone))

end

theorem record?_named (names : List String) (members : List (String × Json)) :
    record? names (.object (named members)) = names.mapM (member? (named members)) := by
  have hnamed : (named members).all (·.1.isSome) = true := by simp [named]
  rw [record?, if_pos hnamed]

end ThresholdSigning.Json
