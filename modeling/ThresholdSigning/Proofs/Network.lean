import ThresholdSigning.Network

namespace ThresholdSigning

def Route.push (r : Route) (extra : List Inbound) : Route := { r with queue := r.queue ++ extra }

namespace Network

variable {net left : Network} {id other : Nat} {r : Route} {sender m : MemberId} {group : String}

/-- The route that a subscription stands for until it is released. -/
def route? (net : Network) (id : Nat) : Option Route := net.routes.find? (·.id = id)

/-- The group and the member that a subscription is for. -/
def address? (net : Network) (id : Nat) : Option (String × MemberId) :=
  (net.route? id).map fun r => (r.group, r.member)

theorem pending_eq (net : Network) (id : Nat) :
    net.pending id = ((net.route? id).map Route.queue).getD [] := by
  unfold pending
  split
  next r hr => rw [route?, hr]; rfl
  next hr => rw [route?, hr]; rfl

theorem pending_of_route? (h : net.route? id = some r) : net.pending id = r.queue := by
  rw [pending_eq, h]
  rfl

theorem route?_of_address? {a : String × MemberId} (h : net.address? id = some a) :
    ∃ r, net.route? id = some r ∧ (r.group, r.member) = a :=
  Option.map_eq_some_iff.mp h

theorem find?_map_route (f : Route → Route) (hf : ∀ r, (f r).id = r.id) (id : Nat)
    (routes : List Route) :
    (routes.map f).find? (·.id = id) = (routes.find? (·.id = id)).map f := by
  rw [List.find?_map]
  congr 2
  funext r
  simp only [Function.comp_apply, hf]

theorem id_of_route? (h : net.route? id = some r) : r.id = id := by
  have hp := List.find?_some h
  simpa using hp

/-- What a member for a group gets of the bytes that a member publishes. -/
def arrivals (net : Network) (sender : MemberId) (group : String) (target : Target)
    (bytes : ByteArray) (address : String × MemberId) : List Inbound :=
  if sender ∉ net.offline ∧ address.1 = group ∧ address.2 ∉ net.offline ∧
      (target = .everyone ∧ address.2 ≠ sender ∨ target = .only address.2) then
    [⟨group, sender, bytes⟩]
  else []

theorem mem_arrivals {target : Target} {bytes : ByteArray} {address : String × MemberId}
    {inbound : Inbound} (h : inbound ∈ net.arrivals sender group target bytes address) :
    inbound = ⟨group, sender, bytes⟩ := by
  unfold arrivals at h
  split at h
  next => exact List.mem_singleton.mp h
  next => cases h

theorem reaches_eq_true_iff {target : Target} :
    net.reaches sender group target r = true ↔ r.group = group ∧ r.member ∉ net.offline ∧
      (target = .everyone ∧ r.member ≠ sender ∨ target = .only r.member) := by
  unfold reaches
  cases target with
  | everyone => simp [and_assoc]
  | only recipient => simp [and_assoc, eq_comm (a := recipient)]

theorem routes_send (net : Network) (sender : MemberId) (group : String) (target : Target)
    (bytes : ByteArray) :
    (net.send sender group target bytes).2.routes =
      net.routes.map fun r =>
        r.push (net.arrivals sender group target bytes (r.group, r.member)) := by
  by_cases hoff : sender ∈ net.offline
  · have hsame : (fun r : Route =>
        r.push (net.arrivals sender group target bytes (r.group, r.member))) = id := by
      funext r
      simp [arrivals, hoff, Route.push]
    rw [hsame, List.map_id, send, if_pos hoff]
  · simp only [send, if_neg hoff]
    congr 1
    funext r
    unfold arrivals Route.push
    by_cases hr : net.reaches sender group target r = true
    · rw [if_pos hr, if_pos ⟨hoff, reaches_eq_true_iff.mp hr⟩]
    · rw [if_neg hr, if_neg fun h => hr (reaches_eq_true_iff.mpr h.2), List.append_nil]

theorem route?_send (net : Network) (id : Nat) (sender : MemberId) (group : String)
    (target : Target) (bytes : ByteArray) :
    (net.send sender group target bytes).2.route? id =
      (net.route? id).map fun r =>
        r.push (net.arrivals sender group target bytes (r.group, r.member)) := by
  unfold route?
  rw [routes_send]
  exact find?_map_route
    (fun r => r.push (net.arrivals sender group target bytes (r.group, r.member)))
    (fun _ => rfl) id net.routes

theorem address?_send (target : Target) (bytes : ByteArray) :
    (net.send sender group target bytes).2.address? id = net.address? id := by
  unfold address?
  rw [route?_send, Option.map_map]
  rfl

theorem pending_send {address : String × MemberId} (h : net.address? id = some address)
    (target : Target) (bytes : ByteArray) :
    (net.send sender group target bytes).2.pending id =
      net.pending id ++ net.arrivals sender group target bytes address := by
  obtain ⟨r, hr, rfl⟩ := route?_of_address? h
  have hsent := route?_send net id sender group target bytes
  rw [hr, Option.map_some] at hsent
  rw [pending_of_route? hsent, pending_of_route? hr]
  rfl

/-- A send takes nothing away from what waits. -/
theorem subset_pending_send (target : Target) (bytes : ByteArray) :
    net.pending id ⊆ (net.send sender group target bytes).2.pending id := by
  cases h : net.address? id with
  | none =>
    have hnone : net.pending id = [] := by
      rw [pending_eq, Option.map_eq_none_iff.mp h]
      rfl
    rw [hnone]
    exact List.nil_subset _
  | some address =>
    rw [pending_send h]
    exact List.subset_append_left _ _

theorem route?_release_other (h : id ≠ other) : (net.release other).route? id = net.route? id := by
  unfold release route?
  rw [List.find?_filter]
  congr 1
  funext r
  by_cases hr : r.id = id
  · simp [hr, h]
  · simp [hr]

theorem address?_release_other (h : id ≠ other) :
    (net.release other).address? id = net.address? id := by
  unfold address?
  rw [route?_release_other h]

theorem pending_release_other (h : id ≠ other) :
    (net.release other).pending id = net.pending id := by
  rw [pending_eq, pending_eq, route?_release_other h]

theorem receive_of_address? {address : String × MemberId} (h : net.address? id = some address) :
    (net.pending id = [] ∧ net.receive id = (.nothing, net)) ∨
      ∃ inbound left, net.receive id = (.envelope inbound, left) ∧
        net.pending id = inbound :: left.pending id ∧ left.offline = net.offline := by
  obtain ⟨r, hr, -⟩ := route?_of_address? h
  have hid := id_of_route? hr
  rw [pending_of_route? hr]
  unfold route? at hr
  cases hq : r.queue with
  | nil => exact Or.inl ⟨rfl, by simp only [receive, hr, hq]⟩
  | cons inbound queue =>
    have hreceive : net.receive id = (.envelope inbound,
        { net with
          routes := net.routes.map fun r =>
            if r.id = id then { r with queue := queue } else r }) := by
      simp only [receive, hr, hq]
    have hroute := find?_map_route (fun r => if r.id = id then { r with queue := queue } else r)
      (fun r => by split <;> rfl) id net.routes
    rw [hr, Option.map_some, if_pos hid] at hroute
    refine Or.inr ⟨inbound, _, hreceive, ?_, rfl⟩
    rw [pending_eq]
    unfold route?
    rw [hroute]
    rfl

theorem pending_of_receive {address : String × MemberId} {inbound : Inbound}
    (h : net.address? id = some address) (hr : net.receive id = (.envelope inbound, left)) :
    net.pending id = inbound :: left.pending id := by
  rcases receive_of_address? h with ⟨-, hnothing⟩ | ⟨_, _, hsome, hpending, -⟩
  · rw [hnothing] at hr
    cases hr
  · rw [hsome] at hr
    cases hr
    exact hpending

theorem route?_receive (net : Network) (id other : Nat) :
    ∃ f : Route → Route, (net.receive other).2.route? id = (net.route? id).map f ∧
      (∀ r, (f r).group = r.group ∧ (f r).member = r.member) ∧
      (id ≠ other → ∀ r, r.id = id → f r = r) := by
  unfold receive
  split
  next => exact ⟨fun r => r, by rw [Option.map_id'], fun _ => ⟨rfl, rfl⟩, fun _ _ _ => rfl⟩
  next =>
    split
    next => exact ⟨fun r => r, by rw [Option.map_id'], fun _ => ⟨rfl, rfl⟩, fun _ _ _ => rfl⟩
    next inbound queue _ =>
      refine ⟨fun r => if r.id = other then { r with queue := queue } else r,
        find?_map_route _ (fun r => by split <;> rfl) id net.routes, ?_, ?_⟩
      · intro r
        dsimp only
        split <;> exact ⟨rfl, rfl⟩
      · intro hne r hr
        exact if_neg fun he => hne (hr.symm.trans he)

theorem address?_receive (net : Network) (id other : Nat) :
    (net.receive other).2.address? id = net.address? id := by
  obtain ⟨f, hf, hkeep, -⟩ := route?_receive net id other
  unfold address?
  rw [hf, Option.map_map]
  congr 1
  funext r
  rw [Function.comp_apply, (hkeep r).1, (hkeep r).2]

theorem pending_receive_other (net : Network) (h : id ≠ other) :
    (net.receive other).2.pending id = net.pending id := by
  obtain ⟨f, hf, -, hkeep⟩ := route?_receive net id other
  rw [pending_eq, pending_eq, hf]
  cases hr : net.route? id with
  | none => rfl
  | some r => rw [Option.map_some, hkeep h r (id_of_route? hr)]

theorem route?_subscribe_of_route? (h : net.route? id = some r) :
    (net.subscribe m group).2.route? id = some r := by
  unfold subscribe
  split
  next => exact h
  next =>
    unfold route? at h ⊢
    rw [List.find?_append, h, Option.some_or]

theorem address?_subscribe_of_address? {address : String × MemberId}
    (h : net.address? id = some address) :
    (net.subscribe m group).2.address? id = some address := by
  obtain ⟨r, hr, rfl⟩ := route?_of_address? h
  unfold address?
  rw [route?_subscribe_of_route? hr, Option.map_some]

theorem pending_subscribe_of_address? {address : String × MemberId}
    (h : net.address? id = some address) :
    (net.subscribe m group).2.pending id = net.pending id := by
  obtain ⟨r, hr, -⟩ := route?_of_address? h
  rw [pending_of_route? (route?_subscribe_of_route? hr), pending_of_route? hr]

theorem offline_send (target : Target) (bytes : ByteArray) :
    (net.send sender group target bytes).2.offline = net.offline := by
  unfold send
  split <;> rfl

theorem offline_subscribe : (net.subscribe m group).2.offline = net.offline := by
  unfold subscribe
  split <;> rfl

theorem offline_receive : (net.receive id).2.offline = net.offline := by
  unfold receive
  split
  next => rfl
  next => split <;> rfl

theorem pending_release_self (net : Network) (id : Nat) : (net.release id).pending id = [] := by
  have hnone : (net.release id).route? id = none := by
    unfold release route?
    rw [List.find?_eq_none]
    intro r hr
    simpa using (List.mem_filter.mp hr).2
  rw [pending_eq, hnone]
  rfl

theorem mem_pending_of_receive (net : Network) (id other : Nat) {inbound : Inbound}
    (h : inbound ∈ (net.receive other).2.pending id) : inbound ∈ net.pending id := by
  by_cases hid : id = other
  · subst hid
    cases ha : net.address? id with
    | none =>
      have hroute : net.routes.find? (·.id = id) = none := Option.map_eq_none_iff.mp ha
      unfold receive at h
      simpa only [hroute] using h
    | some address =>
      rcases receive_of_address? ha with ⟨-, hr⟩ | ⟨first, left, hr, hpending, -⟩
      · rwa [hr] at h
      · rw [hr] at h
        rw [hpending]
        exact List.mem_cons_of_mem _ h
  · rwa [pending_receive_other net hid] at h

theorem mem_pending_of_release (net : Network) (id other : Nat) {inbound : Inbound}
    (h : inbound ∈ (net.release other).pending id) : inbound ∈ net.pending id := by
  by_cases hid : id = other
  · rw [hid, pending_release_self] at h
    cases h
  · rwa [pending_release_other hid] at h

theorem mem_pending_of_subscribe (net : Network) (m : MemberId) (group : String) (id : Nat)
    {inbound : Inbound} (h : inbound ∈ (net.subscribe m group).2.pending id) :
    inbound ∈ net.pending id := by
  cases hr : net.route? id with
  | some r =>
    rwa [pending_of_route? (route?_subscribe_of_route? hr), ← pending_of_route? hr] at h
  | none =>
    unfold subscribe at h
    split at h
    next => exact h
    next =>
      rw [pending_eq] at h
      unfold route? at h hr
      rw [List.find?_append, hr, Option.none_or] at h
      by_cases hid : net.nextId = id
      · simp [hid] at h
      · simp [hid] at h

/-- What waits after a send has waited before, or the send has reached it. -/
theorem mem_pending_of_send (target : Target) (bytes : ByteArray) {inbound : Inbound}
    (h : inbound ∈ (net.send sender group target bytes).2.pending id) :
    inbound ∈ net.pending id ∨ inbound = ⟨group, sender, bytes⟩ ∧ sender ∉ net.offline ∧
      ∃ r ∈ net.routes, net.reaches sender group target r = true ∧ r.id = id := by
  have hsent := route?_send net id sender group target bytes
  cases hr : net.route? id with
  | none =>
    rw [hr, Option.map_none] at hsent
    rw [pending_eq, hsent] at h
    cases h
  | some r =>
    rw [hr, Option.map_some] at hsent
    rw [pending_of_route? hsent] at h
    rcases List.mem_append.mp h with hold | hnew
    · exact Or.inl (by rwa [pending_of_route? hr])
    · have he := mem_arrivals hnew
      unfold arrivals at hnew
      split at hnew
      next hreach =>
        exact Or.inr ⟨he, hreach.1, r, List.mem_of_find?_eq_some hr,
          reaches_eq_true_iff.mpr hreach.2, id_of_route? hr⟩
      next => cases hnew

/-- A subscription is known by a number that no route had before. -/
def Numbered (net : Network) : Prop := ∀ r ∈ net.routes, r.id < net.nextId

theorem Numbered.route?_eq_none (h : net.Numbered) (hid : net.nextId ≤ id) :
    net.route? id = none := by
  unfold route?
  rw [List.find?_eq_none]
  intro r hr
  have hlt := h r hr
  simp only [decide_eq_true_eq]
  omega

theorem Numbered.lt_nextId {address : String × MemberId} (h : net.Numbered)
    (haddress : net.address? id = some address) : id < net.nextId := by
  refine Nat.lt_of_not_le fun hle => ?_
  rw [address?, h.route?_eq_none hle] at haddress
  cases haddress

theorem eq_of_subscribe_eq_error {e : TransportError}
    (h : net.subscribe m group = (.error e, left)) : left = net := by
  unfold subscribe at h
  split at h
  next =>
    cases h
    rfl
  next => cases h

theorem subscribe_eq_ok (hn : net.Numbered) (h : net.subscribe m group = (.ok id, left)) :
    id = net.nextId ∧ left.nextId = net.nextId + 1 ∧ left.address? id = some (group, m) ∧
      left.pending id = [] := by
  unfold subscribe at h
  split at h
  next => cases h
  next =>
    cases h
    have hold := hn.route?_eq_none (Nat.le_refl _)
    have hnew : List.find? (fun r : Route => r.id = net.nextId)
        (net.routes ++ [⟨net.nextId, group, m, []⟩]) = some ⟨net.nextId, group, m, []⟩ := by
      unfold route? at hold
      rw [List.find?_append, hold, Option.none_or]
      simp
    refine ⟨rfl, rfl, ?_, ?_⟩
    · unfold address? route?
      rw [hnew]
      rfl
    · rw [pending_eq]
      unfold route?
      rw [hnew]
      rfl

/-- What every change of a network keeps: numbers that were given are not given again. -/
structure Advances (net left : Network) : Prop where
  nextId_le : net.nextId ≤ left.nextId
  numbered : net.Numbered → left.Numbered

theorem Advances.refl (net : Network) : net.Advances net := ⟨Nat.le_refl _, id⟩

theorem Advances.trans {a b c : Network} (hab : a.Advances b) (hbc : b.Advances c) :
    a.Advances c :=
  ⟨Nat.le_trans hab.nextId_le hbc.nextId_le, fun h => hbc.numbered (hab.numbered h)⟩

theorem advances_of_routes (hnext : left.nextId = net.nextId)
    (hroutes : ∀ r ∈ left.routes, ∃ r' ∈ net.routes, r'.id = r.id) : net.Advances left where
  nextId_le := by omega
  numbered := by
    intro h r hr
    obtain ⟨r', hr', hid⟩ := hroutes r hr
    have hlt := h r' hr'
    omega

theorem advances_of_map {change : Route → Route} {sent : Nat} {offline : List MemberId}
    (hid : ∀ r, (change r).id = r.id) :
    net.Advances
      { net with routes := net.routes.map change, sent := sent, offline := offline } := by
  refine advances_of_routes rfl ?_
  intro r hr
  obtain ⟨r', hr', rfl⟩ := List.mem_map.mp hr
  exact ⟨r', hr', (hid r').symm⟩

theorem advances_send (target : Target) (bytes : ByteArray) :
    net.Advances (net.send sender group target bytes).2 := by
  unfold send
  split
  next => exact Advances.refl net
  next =>
    refine advances_of_map fun r => ?_
    split <;> rfl

theorem advances_setOffline (offline : Bool) : net.Advances (net.setOffline m offline) :=
  ⟨Nat.le_refl _, id⟩

theorem advances_release : net.Advances (net.release id) := by
  refine advances_of_routes rfl ?_
  intro r hr
  exact ⟨r, (List.mem_filter.mp hr).1, rfl⟩

theorem advances_receive (net : Network) (id : Nat) : net.Advances (net.receive id).2 := by
  unfold receive
  split
  next => exact Advances.refl net
  next =>
    split
    next => exact Advances.refl net
    next =>
      refine advances_of_map fun r => ?_
      split <;> rfl

theorem advances_subscribe : net.Advances (net.subscribe m group).2 := by
  unfold subscribe
  split
  next => exact Advances.refl net
  next =>
    refine ⟨Nat.le_succ _, ?_⟩
    intro h r hr
    rcases List.mem_append.mp hr with hold | hnew
    · exact Nat.lt_succ_of_lt (h r hold)
    · rw [List.mem_singleton.mp hnew]
      exact Nat.lt_succ_self _

end Network

end ThresholdSigning
