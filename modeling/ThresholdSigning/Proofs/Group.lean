import ThresholdSigning.Group

namespace ThresholdSigning

/-- A group is made of exactly what it was asked for, and every group could have been made so. -/
theorem Group.create_eq_ok_iff {id : String} {m : MemberId} {members : List MemberId}
    {threshold : Nat} {g : Group} :
    Group.create id m members threshold = .ok g ↔
      g.id = id ∧ g.localMember = m ∧ g.members = members ∧ g.threshold = threshold := by
  constructor
  · intro h
    unfold Group.create at h
    split at h
    next => cases h
    next =>
      split at h
      next => cases h
      next =>
        split at h
        next => cases h
        next =>
          split at h
          next =>
            cases h
            exact ⟨rfl, rfl, rfl, rfl⟩
          next => cases h
  · rintro ⟨rfl, rfl, rfl, rfl⟩
    have hv := g.valid
    have hsize : ¬ g.members.length < 2 := by
      have := hv.two_le
      omega
    have hwide : ¬ g.members.length ≤ g.threshold := by
      have := hv.threshold_lt
      omega
    have hrep : firstRepeated [] g.members = none :=
      firstRepeated_eq_none_iff.mpr ⟨hv.nodup, by simp⟩
    unfold Group.create
    rw [dif_neg hsize, dif_neg hwide]
    split
    next m hm =>
      rw [hrep] at hm
      cases hm
    next => rw [dif_pos hv.local_mem]

/-- What is reported as repeated is the first entry that was seen before. -/
theorem firstRepeated_eq_some_iff {α : Type} [DecidableEq α] {seen xs : List α} {x : α} :
    firstRepeated seen xs = some x ↔
      ∃ before after, xs = before ++ x :: after ∧ before.Nodup ∧ (∀ y ∈ before, y ∉ seen) ∧
        (x ∈ seen ∨ x ∈ before) := by
  induction xs generalizing seen with
  | nil => simp [firstRepeated]
  | cons y ys ih =>
    by_cases hy : y ∈ seen
    · simp only [firstRepeated, hy, if_true, Option.some.injEq]
      constructor
      · rintro rfl
        exact ⟨[], ys, rfl, List.nodup_nil, fun _ hz => absurd hz List.not_mem_nil, Or.inl hy⟩
      · rintro ⟨before, after, hys, -, hfresh, -⟩
        cases before with
        | nil => exact (List.cons.inj hys).1
        | cons z before =>
          obtain ⟨rfl, -⟩ := List.cons.inj hys
          exact absurd hy (hfresh y List.mem_cons_self)
    · simp only [firstRepeated, hy, if_false, ih]
      constructor
      · rintro ⟨before, after, rfl, hnodup, hfresh, hx⟩
        have hnew : y ∉ before := fun hmem => hfresh y hmem List.mem_cons_self
        refine ⟨y :: before, after, rfl, List.nodup_cons.mpr ⟨hnew, hnodup⟩, ?_, ?_⟩
        · rintro z (_ | ⟨_, hz⟩)
          · exact hy
          · exact fun hseen => hfresh z hz (List.mem_cons_of_mem y hseen)
        · simp only [List.mem_cons] at hx ⊢
          exact or_left_comm.mp (or_assoc.mp hx)
      · rintro ⟨before, after, hys, hnodup, hfresh, hx⟩
        cases before with
        | nil =>
          obtain ⟨rfl, -⟩ := List.cons.inj hys
          exact absurd (hx.resolve_right List.not_mem_nil) hy
        | cons z before =>
          obtain ⟨rfl, rfl⟩ := List.cons.inj hys
          obtain ⟨hnew, hnodup⟩ := List.nodup_cons.mp hnodup
          refine ⟨before, after, rfl, hnodup, ?_, ?_⟩
          · intro z hz hseen
            rcases List.mem_cons.mp hseen with rfl | hseen
            · exact hnew hz
            · exact hfresh z (List.mem_cons_of_mem _ hz) hseen
          · simp only [List.mem_cons] at hx ⊢
            exact or_assoc.mpr (or_left_comm.mp hx)

/-- The first rule of groups that a list of members breaks, with the error that reports it. -/
inductive Group.Breaks (localMember : MemberId) (members : List MemberId) (threshold : Nat) :
    Error → Prop
  | small (hsize : members.length < 2) :
      Breaks localMember members threshold (.invalidGroupSize members.length)
  | wide (hsize : 2 ≤ members.length) (hwide : members.length ≤ threshold) :
      Breaks localMember members threshold (.thresholdTooLarge members.length threshold)
  | repeated {before after : List MemberId} {m : MemberId} (hsize : 2 ≤ members.length)
      (hthreshold : threshold < members.length) (hmembers : members = before ++ m :: after)
      (hnodup : before.Nodup) (hmem : m ∈ before) :
      Breaks localMember members threshold (.duplicateMember m)
  | absent (hsize : 2 ≤ members.length) (hthreshold : threshold < members.length)
      (hnodup : members.Nodup) (hlocal : localMember ∉ members) :
      Breaks localMember members threshold (.memberNotInGroup localMember)

theorem Group.create_eq_error_iff {id : String} {m : MemberId} {members : List MemberId}
    {threshold : Nat} {e : Error} :
    Group.create id m members threshold = .error e ↔ Group.Breaks m members threshold e := by
  unfold Group.create
  constructor
  · intro h
    split at h
    next hsize =>
      cases h
      exact .small hsize
    next hsize =>
      have hsize := Nat.le_of_not_lt hsize
      split at h
      next hwide =>
        cases h
        exact .wide hsize hwide
      next hwide =>
        have hthreshold := Nat.lt_of_not_le hwide
        split at h
        next repeated hrepeated =>
          cases h
          obtain ⟨before, after, hmembers, hnodup, -, hmem⟩ :=
            firstRepeated_eq_some_iff.mp hrepeated
          exact .repeated hsize hthreshold hmembers hnodup (hmem.resolve_left List.not_mem_nil)
        next hunique =>
          split at h
          next => cases h
          next hlocal =>
            cases h
            exact .absent hsize hthreshold (firstRepeated_eq_none_iff.mp hunique).1 hlocal
  · intro h
    cases h with
    | small hsize => rw [dif_pos hsize]
    | wide hsize hwide => rw [dif_neg (Nat.not_lt.mpr hsize), dif_pos hwide]
    | @repeated before after repeated hsize hthreshold hmembers hnodup hmem =>
      have hfirst : firstRepeated [] members = some repeated :=
        firstRepeated_eq_some_iff.mpr
          ⟨before, after, hmembers, hnodup, fun _ _ => List.not_mem_nil, Or.inr hmem⟩
      rw [dif_neg (Nat.not_lt.mpr hsize), dif_neg (Nat.not_le.mpr hthreshold)]
      split
      next other hother =>
        cases hother.symm.trans hfirst
        rfl
      next hnone => cases hnone.symm.trans hfirst
    | absent hsize hthreshold hnodup hlocal =>
      have hnone : firstRepeated [] members = none :=
        firstRepeated_eq_none_iff.mpr ⟨hnodup, fun _ _ => List.not_mem_nil⟩
      rw [dif_neg (Nat.not_lt.mpr hsize), dif_neg (Nat.not_le.mpr hthreshold)]
      split
      next hsome => cases hnone.symm.trans hsome
      next => rw [dif_neg hlocal]

/-- There is a group exactly where no rule is broken. -/
theorem Group.exists_create_iff {id : String} {m : MemberId} {members : List MemberId}
    {threshold : Nat} :
    (∃ g, Group.create id m members threshold = .ok g) ↔ Group.Valid m members threshold := by
  constructor
  · rintro ⟨g, hg⟩
    obtain ⟨-, rfl, rfl, rfl⟩ := Group.create_eq_ok_iff.mp hg
    exact g.valid
  · intro hvalid
    exact ⟨⟨id, m, members, threshold, hvalid⟩,
      Group.create_eq_ok_iff.mpr ⟨rfl, rfl, rfl, rfl⟩⟩

theorem Group.mem_peers_iff {g : Group} {m : MemberId} : m ∈ g.peers ↔ g.isPeer m = true := by
  simp [Group.peers, Group.isPeer, Group.isMember]

theorem Group.isPeer_localMember (g : Group) : g.isPeer g.localMember = false := by
  simp [Group.isPeer]

/-- The members are numbered without repetition. -/
theorem Group.index?_eq_some_iff {g : Group} {m : MemberId} {i : Nat} :
    g.index? m = some i ↔ g.members[i]? = some m := by
  unfold Group.index?
  rw [List.idxOf?_eq_some_iff, List.getElem?_eq_some_iff]
  constructor
  · rintro ⟨hi, hm, -⟩
    exact ⟨hi, hm⟩
  · rintro ⟨hi, hm⟩
    refine ⟨hi, hm, fun j hj hsame => ?_⟩
    have hne := List.pairwise_iff_getElem.mp g.valid.nodup j i (by omega) hi hj
    exact hne (hsame.trans hm.symm)

theorem Group.getElem?_inj {g : Group} {m : MemberId} {i j : Nat} (hi : g.members[i]? = some m)
    (hj : g.members[j]? = some m) : j = i := by
  rw [← Group.index?_eq_some_iff] at hi hj
  exact Option.some.inj (hj.symm.trans hi)

theorem Group.isMember_iff_getElem? {g : Group} {m : MemberId} :
    g.isMember m = true ↔ ∃ i : Nat, g.members[i]? = some m := by
  unfold Group.isMember
  rw [decide_eq_true_iff, List.mem_iff_getElem?]

/-- The peers are what is left of the members without the local one. -/
theorem Group.exists_peers_eq (g : Group) :
    ∃ before after, g.members = before ++ g.localMember :: after ∧
      g.peers = before ++ after := by
  obtain ⟨before, after, hmembers⟩ := List.append_of_mem g.valid.local_mem
  have hnodup := g.valid.nodup
  rw [hmembers] at hnodup
  obtain ⟨-, htail, hapart⟩ := List.nodup_append.mp hnodup
  have hbefore : before.filter (· ≠ g.localMember) = before :=
    List.filter_eq_self.mpr fun k hk =>
      decide_eq_true (hapart k hk g.localMember List.mem_cons_self)
  have hafter : after.filter (· ≠ g.localMember) = after := by
    refine List.filter_eq_self.mpr fun k hk => decide_eq_true ?_
    rintro rfl
    exact (List.nodup_cons.mp htail).1 hk
  refine ⟨before, after, hmembers, ?_⟩
  unfold Group.peers
  rw [hmembers, List.filter_append, List.filter_cons_of_neg (by simp), hbefore, hafter]

/-- A group is created exactly if no rule is broken; else the first broken rule is reported, and of
a repetition the first entry that equals an earlier one. In a group, the peers are the members
without the local one, in their order; who is a member has one position and nobody else has any; and
the quorum can be reached. -/
theorem Group.created_or_first_broken (id : String) (m : MemberId) (members : List MemberId)
    (threshold : Nat) :
    ((∃ g, Group.create id m members threshold = .ok g) ↔
        2 ≤ members.length ∧ threshold < members.length ∧ members.Nodup ∧ m ∈ members) ∧
      (∀ e, Group.create id m members threshold = .error e ↔
        Group.Breaks m members threshold e) ∧
      ∀ g, Group.create id m members threshold = .ok g →
        (g.id = id ∧ g.localMember = m ∧ g.members = members ∧ g.threshold = threshold) ∧
          ((∃ before after, members = before ++ m :: after ∧ g.peers = before ++ after) ∧
            m ∉ g.peers ∧ g.peers.length = g.size - 1) ∧
          (∀ (k : MemberId) (i : Nat), g.index? k = some i ↔ members[i]? = some k) ∧
          (∀ (k : MemberId) (i j : Nat), members[i]? = some k → members[j]? = some k → j = i) ∧
          (∀ k : MemberId, g.isMember k = true ↔ ∃ i : Nat, g.index? k = some i) ∧
          1 ≤ g.quorum ∧ g.quorum ≤ g.size := by
  refine ⟨?_, fun _ => Group.create_eq_error_iff, ?_⟩
  · rw [Group.exists_create_iff]
    exact ⟨fun h => ⟨h.two_le, h.threshold_lt, h.nodup, h.local_mem⟩,
      fun ⟨hsize, hthreshold, hnodup, hlocal⟩ => ⟨hsize, hthreshold, hnodup, hlocal⟩⟩
  · intro g hg
    obtain ⟨rfl, rfl, rfl, rfl⟩ := Group.create_eq_ok_iff.mp hg
    obtain ⟨before, after, hmembers, hpeers⟩ := g.exists_peers_eq
    have hlocal : g.localMember ∉ g.peers := by
      rw [Group.mem_peers_iff, Group.isPeer_localMember]
      exact Bool.false_ne_true
    have hlength : g.peers.length = g.size - 1 := by
      rw [hpeers, Group.size, hmembers]
      simp only [List.length_append, List.length_cons]
      omega
    refine ⟨⟨rfl, rfl, rfl, rfl⟩, ⟨⟨before, after, hmembers, hpeers⟩, hlocal, hlength⟩,
      fun k i => Group.index?_eq_some_iff, fun k i j => Group.getElem?_inj, ?_, ?_, ?_⟩
    · intro k
      simp only [Group.isMember_iff_getElem?, Group.index?_eq_some_iff]
    · exact Nat.le_add_left 1 g.threshold
    · exact g.valid.threshold_lt

theorem Group.created_of_three :
    let members : List MemberId := [⟨⟨#[97]⟩⟩, ⟨⟨#[98]⟩⟩, ⟨⟨#[99]⟩⟩]
    ∃ g, Group.create "g" ⟨⟨#[98]⟩⟩ members 1 = .ok g ∧ g.peers.length = g.size - 1 ∧
      g.index? ⟨⟨#[99]⟩⟩ = some 2 := by
  intro members
  obtain ⟨hcreated, -, hgroup⟩ := Group.created_or_first_broken "g" ⟨⟨#[98]⟩⟩ members 1
  obtain ⟨g, hg⟩ := hcreated.mpr (by decide)
  obtain ⟨-, ⟨-, -, hlength⟩, hindex, -⟩ := hgroup g hg
  exact ⟨g, hg, hlength, (hindex ⟨⟨#[99]⟩⟩ 2).mpr rfl⟩

end ThresholdSigning
