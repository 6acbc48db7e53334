import Mathlib.Data.List.Induction

namespace ThresholdSigning

variable {α κ : Type} [DecidableEq κ] {key : α → κ}

/-- The entries whose key no earlier entry has. -/
def firstBy (key : α → κ) (xs : List α) : List α :=
  xs.eraseDupsBy fun x y => decide (key x = key y)

theorem firstBy_cons (x : α) (xs : List α) :
    firstBy key (x :: xs) = x :: firstBy key (xs.filter fun y => key y ≠ key x) := by
  simp only [firstBy, List.eraseDupsBy_cons, decide_not, decide_eq_false_iff_not]

theorem firstBy_append_singleton (xs : List α) (x : α) :
    firstBy key (xs ++ [x]) = firstBy key xs ++ if key x ∈ xs.map key then [] else [x] := by
  -- Later entries are filtered before they are looked at, so the tail is no case of the induction.
  induction h : xs.length using Nat.strongRecOn generalizing xs with
  | _ n ih =>
    cases xs with
    | nil => simp [firstBy, List.eraseDupsBy_cons]
    | cons y ys =>
      have hlen : (ys.filter fun z => key z ≠ key y).length < n := by
        have := List.length_filter_le (fun z => key z ≠ key y) ys
        rw [List.length_cons] at h
        omega
      have hih := ih _ hlen (ys.filter fun z => key z ≠ key y) rfl
      rw [List.cons_append, firstBy_cons, firstBy_cons, List.filter_append, List.cons_append]
      by_cases hxy : key x = key y
      · simp [hxy]
      · have hmem : key x ∈ (ys.filter fun z => key z ≠ key y).map key ↔ key x ∈ ys.map key := by
          simp only [List.mem_map, List.mem_filter]
          constructor
          · rintro ⟨z, ⟨hz, _⟩, he⟩
            exact ⟨z, hz, he⟩
          · rintro ⟨z, hz, he⟩
            exact ⟨z, ⟨hz, by simpa [he] using hxy⟩, he⟩
        have hsingle : [x].filter (fun z => key z ≠ key y) = [x] := by simp [hxy]
        rw [hsingle, hih]
        simp only [hmem, List.map_cons, List.mem_cons, hxy, false_or]

theorem filter_firstBy {p : α → Bool} (hp : ∀ x y, key x = key y → p x = p y) (xs : List α) :
    (firstBy key xs).filter p = firstBy key (xs.filter p) := by
  induction xs using List.reverseRecOn with
  | nil => rfl
  | append_singleton xs x ih =>
    rw [firstBy_append_singleton, List.filter_append, List.filter_append, ih]
    by_cases hx : p x = true
    · have hmem : key x ∈ (xs.filter p).map key ↔ key x ∈ xs.map key := by
        simp only [List.mem_map, List.mem_filter]
        constructor
        · rintro ⟨y, ⟨hy, _⟩, he⟩
          exact ⟨y, hy, he⟩
        · rintro ⟨y, hy, he⟩
          exact ⟨y, ⟨hy, by rw [hp y x he, hx]⟩, he⟩
      have hsingle : [x].filter p = [x] := by simp [hx]
      rw [hsingle, firstBy_append_singleton]
      simp only [hmem]
      split <;> simp [hx]
    · have hsingle : [x].filter p = [] := by simp [hx]
      rw [hsingle, List.append_nil]
      split <;> simp [hx]

/-- A key that tells the entries apart is as good as the entries themselves. -/
theorem firstBy_eq_eraseDups [DecidableEq α] {xs : List α}
    (hkey : ∀ x ∈ xs, ∀ y ∈ xs, key x = key y → x = y) : firstBy key xs = xs.eraseDups := by
  change firstBy key xs = firstBy id xs
  induction xs using List.reverseRecOn with
  | nil => rfl
  | append_singleton xs x ih =>
    have hold := ih (fun y hy z hz => hkey y (by simp [hy]) z (by simp [hz]))
    have hmem : key x ∈ xs.map key ↔ id x ∈ xs.map id := by
      simp only [List.mem_map, id_eq, exists_eq_right]
      constructor
      · rintro ⟨y, hy, he⟩
        rwa [← hkey y (by simp [hy]) x (by simp) he]
      · intro hx
        exact ⟨x, hx, rfl⟩
    rw [firstBy_append_singleton, firstBy_append_singleton, hold]
    simp only [hmem]

theorem mem_of_mem_firstBy {xs : List α} {x : α} (h : x ∈ firstBy key xs) : x ∈ xs := by
  induction xs using List.reverseRecOn with
  | nil => exact h
  | append_singleton xs y ih =>
    rw [firstBy_append_singleton] at h
    rcases List.mem_append.mp h with hold | hnew
    · exact List.mem_append_left _ (ih hold)
    · split at hnew
      next => cases hnew
      next => exact List.mem_append_right _ hnew

end ThresholdSigning
