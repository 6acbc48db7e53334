import Mathlib.Data.List.Induction
import Mathlib.Data.Nat.Basic

namespace ThresholdSigning

/-- When a join is due: at its tick, or later, when the join before it has ended. -/
structure Due where
  tick : Nat
  free : Nat

namespace Due

def moment (d : Due) : Nat := max d.tick d.free

/-- The due of the next join when one has ended. Ticks keep their grid unless a join began more than
five milliseconds after its tick. -/
def next (interval : Nat) (d : Due) (ended : Nat) : Due where
  tick := if d.tick + 5 < d.moment then d.moment + interval else d.tick + interval
  free := ended

/-- The due of a join after joins that ended at given moments. The ticks start where the first join
ends. -/
def after (interval first : Nat) (later : List Nat) : Due :=
  later.foldl (next interval) ⟨first + interval, first⟩

theorem after_concat (interval first : Nat) (later : List Nat) (ended : Nat) :
    after interval first (later ++ [ended]) = (after interval first later).next interval ended := by
  simp only [after, List.foldl_append, List.foldl_cons, List.foldl_nil]

end Due

/-- When a join begins after joins that ended at given moments: at once, if it is the first. -/
def dueAfter (since interval : Nat) : List Nat → Nat
  | [] => since
  | first :: later => (Due.after interval first later).moment

/-- Joins that began and ended at given moments: each began when it was due, and at most the last of
them has not ended. -/
structure Spaced (since interval : Nat) (begun ended : List Nat) : Prop where
  begun_eq : begun = (List.range begun.length).map fun k => dueAfter since interval (ended.take k)
  ended_le : ended.length ≤ begun.length
  begun_le : begun.length ≤ ended.length + 1

namespace Spaced

variable {since interval : Nat} {begun ended : List Nat}

theorem nil (since interval : Nat) : Spaced since interval [] [] :=
  ⟨rfl, Nat.le_refl _, Nat.zero_le _⟩

/-- A join begins when it is due. -/
theorem begin (h : Spaced since interval begun ended) (hlength : begun.length = ended.length) :
    Spaced since interval (begun ++ [dueAfter since interval ended]) ended := by
  refine ⟨?_, ?_, ?_⟩
  · rw [List.length_append, List.length_singleton, List.range_succ, List.map_append, ← h.begun_eq,
      hlength, List.map_singleton, List.take_length]
  · rw [List.length_append, hlength]
    exact Nat.le_add_right _ _
  · rw [List.length_append, hlength, List.length_singleton]

/-- The join that is under way ends. -/
theorem finish (h : Spaced since interval begun ended) (hlength : begun.length = ended.length + 1)
    (moment : Nat) : Spaced since interval begun (ended ++ [moment]) := by
  refine ⟨?_, ?_, ?_⟩
  · refine h.begun_eq.trans (List.map_congr_left fun k hk => ?_)
    have hk : k < begun.length := List.mem_range.mp hk
    rw [List.take_append_of_le_length (by omega)]
  · rw [List.length_append, hlength, List.length_singleton]
  · rw [List.length_append, hlength, List.length_singleton]
    exact Nat.le_succ _

end Spaced

/-- No join but the first takes longer than to the tick after it. -/
def Prompt (since interval : Nat) (ended : List Nat) : Prop :=
  ∀ before moment later, ended = before ++ moment :: later → before ≠ [] →
    moment ≤ dueAfter since interval before + interval

namespace Prompt

variable {since interval first moment : Nat} {ended before later : List Nat}

theorem nil (since interval : Nat) : Prompt since interval [] := by
  intro before moment later heq
  simp at heq

theorem of_append (h : Prompt since interval (before ++ later)) :
    Prompt since interval before := by
  rintro front moment back rfl hfront
  exact h front moment (back ++ later) (by simp) hfront

theorem concat (h : Prompt since interval ended)
    (hlast : moment ≤ dueAfter since interval ended + interval) :
    Prompt since interval (ended ++ [moment]) := by
  intro before e later heq hbefore
  rcases List.eq_nil_or_concat later with rfl | ⟨front, last, rfl⟩
  · obtain ⟨rfl, hsame⟩ := List.append_inj' heq rfl
    cases hsame
    exact hlast
  · rw [List.concat_eq_append, ← List.cons_append, ← List.append_assoc] at heq
    exact h before e front (List.append_inj' heq rfl).1 hbefore

/-- The ticks keep their grid, and no join is later than its tick. -/
theorem after_eq (h : Prompt since interval (first :: later)) :
    (Due.after interval first later).tick = first + (later.length + 1) * interval ∧
      (Due.after interval first later).free ≤ (Due.after interval first later).tick := by
  induction later using List.reverseRecOn with
  | nil =>
    rw [List.length_nil, Nat.zero_add, Nat.one_mul]
    exact ⟨rfl, Nat.le_add_right _ _⟩
  | append_singleton later ended ih =>
    have hkept : Prompt since interval (first :: later ++ [ended]) := h
    obtain ⟨htick, hfree⟩ := ih hkept.of_append
    have hmoment : (Due.after interval first later).moment =
        (Due.after interval first later).tick := Nat.max_eq_left hfree
    have hended := h (first :: later) ended [] rfl (List.cons_ne_nil _ _)
    rw [dueAfter, hmoment, htick] at hended
    rw [Due.after_concat, Due.next, hmoment, if_neg (by omega), List.length_append,
      List.length_singleton, htick, Nat.add_mul (later.length + 1), Nat.one_mul, ← Nat.add_assoc]
    exact ⟨rfl, hended⟩

theorem due_eq (h : Prompt since interval (first :: later)) :
    dueAfter since interval (first :: later) = first + (later.length + 1) * interval := by
  obtain ⟨htick, hfree⟩ := h.after_eq
  rw [dueAfter, Due.moment, Nat.max_eq_left hfree, htick]

end Prompt

namespace Spaced

variable {since interval first : Nat} {begun ended later : List Nat}

/-- Joins that are no later than their ticks: one at once, and the others on the grid that starts
with the end of the first. -/
theorem begun_of_prompt (h : Spaced since interval begun (first :: later))
    (hprompt : Prompt since interval (first :: later)) :
    begun =
      since :: (List.range (begun.length - 1)).map fun k => first + (k + 1) * interval := by
  have hsome : 1 ≤ begun.length := Nat.le_trans (Nat.le_add_left 1 later.length) h.ended_le
  have hfew := h.begun_le
  rw [List.length_cons] at hfew
  have heq := h.begun_eq
  generalize begun.length = n at hsome hfew heq
  obtain ⟨n, rfl⟩ := Nat.exists_eq_add_of_le' hsome
  rw [heq, List.range_succ_eq_map, List.map_cons, List.map_map, Nat.add_sub_cancel]
  refine congrArg (since :: ·) (List.map_congr_left fun k hk => ?_)
  have hk : k < n := List.mem_range.mp hk
  have hsub : Prompt since interval (first :: later.take k) := by
    rw [← List.take_append_drop k later, ← List.cons_append] at hprompt
    exact hprompt.of_append
  rw [Function.comp_apply, List.take_succ_cons, hsub.due_eq, List.length_take,
    Nat.min_eq_left (by omega)]

end Spaced

/-- The moments of a grid from its beginning up to a moment. -/
def ticks (since interval moment : Nat) : List Nat :=
  (List.range (1 + (moment - since) / interval)).map (since + · * interval)

section

variable {since interval moment n x : Nat}

theorem ticks_eq (hlast : since + n * interval ≤ moment)
    (hnext : moment < since + (n + 1) * interval) :
    ticks since interval moment =
      since :: (List.range n).map fun k => since + (k + 1) * interval := by
  have hcount : (moment - since) / interval = n := Nat.div_eq_of_lt_le (by omega) (by omega)
  rw [ticks, hcount, Nat.add_comm, List.range_succ_eq_map, List.map_cons, List.map_map,
    Nat.zero_mul, Nat.add_zero]
  rfl

end

end ThresholdSigning
