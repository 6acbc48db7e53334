import ThresholdSigning.Error
import ThresholdSigning.Text.Quoted
import ThresholdSigning.Text.Record

namespace ThresholdSigning

/-- The first entry that equals an earlier one. -/
def firstRepeated {α : Type} [DecidableEq α] (seen : List α) : List α → Option α
  | [] => none
  | x :: xs => if x ∈ seen then some x else firstRepeated (x :: seen) xs

/-- What makes a list of members, with one of them local, a group. -/
structure Group.Valid (localMember : MemberId) (members : List MemberId) (threshold : Nat) :
    Prop where
  two_le : 2 ≤ members.length
  threshold_lt : threshold < members.length
  nodup : members.Nodup
  local_mem : localMember ∈ members

/-- Who takes part in an execution, and how many of them may be dishonest. -/
structure Group where
  id : String
  localMember : MemberId
  members : List MemberId
  threshold : Nat
  valid : Group.Valid localMember members threshold
deriving DecidableEq

theorem firstRepeated_eq_none_iff {α : Type} [DecidableEq α] {seen xs : List α} :
    firstRepeated seen xs = none ↔ xs.Nodup ∧ ∀ x ∈ xs, x ∉ seen := by
  induction xs generalizing seen with
  | nil => simp [firstRepeated]
  | cons x xs ih =>
    by_cases h : x ∈ seen
    · simp [firstRepeated, h]
    · simp only [firstRepeated, h, if_false, ih, List.nodup_cons, List.mem_cons, forall_eq_or_imp,
        not_or, not_false_eq_true, true_and]
      constructor
      · rintro ⟨nodup, apart⟩
        exact ⟨⟨fun mem => (apart x mem).1 rfl, nodup⟩, fun y mem => (apart y mem).2⟩
      · rintro ⟨⟨fresh, nodup⟩, apart⟩
        exact ⟨nodup, fun y mem => ⟨fun eq => fresh (eq ▸ mem), apart y mem⟩⟩

namespace Group

/-- The first broken rule decides: size, threshold, repetition, the local member's absence. -/
def create (id : String) (localMember : MemberId) (members : List MemberId) (threshold : Nat) :
    Except Error Group :=
  if size : members.length < 2 then .error (.invalidGroupSize members.length)
  else if wide : members.length ≤ threshold then
    .error (.thresholdTooLarge members.length threshold)
  else
    match repeated : firstRepeated [] members with
    | some member => .error (.duplicateMember member)
    | none =>
      if mem : localMember ∈ members then
        .ok ⟨id, localMember, members, threshold, by omega, by omega,
          (firstRepeated_eq_none_iff.mp repeated).1, mem⟩
      else .error (.memberNotInGroup localMember)

def size (g : Group) : Nat := g.members.length

/-- The smallest number of cooperating members able to sign. -/
def quorum (g : Group) : Nat := g.threshold + 1

def isMember (g : Group) (m : MemberId) : Bool := decide (m ∈ g.members)

/-- The position of a member in the list of members. -/
def index? (g : Group) (m : MemberId) : Option Nat := g.members.idxOf? m

/-- Every member but the local one. -/
def peers (g : Group) : List MemberId := g.members.filter (· ≠ g.localMember)

/-- A member that is not the local one. -/
def isPeer (g : Group) (m : MemberId) : Bool := g.isMember m && decide (m ≠ g.localMember)

def debug (g : Group) : String :=
  recordText "GroupInfo"
    [("group_id", quoted g.id), ("member_id", g.localMember.debug),
      ("group_member_ids", MemberId.debugList g.members),
      ("dishonest_threshold", toString g.threshold)] false

end Group

end ThresholdSigning
