import ThresholdSigning.Proofs.Network
import Mathlib.Data.List.Nodup

namespace ThresholdSigning

theorem find?_key_eq_some_iff {α κ : Type} [DecidableEq κ] {key : α → κ} {xs : List α}
    (h : (xs.map key).Nodup) {k : κ} {x : α} :
    xs.find? (fun y => key y = k) = some x ↔ x ∈ xs ∧ key x = k := by
  constructor
  · intro hx
    exact ⟨List.mem_of_find?_eq_some hx, by simpa using List.find?_some hx⟩
  · rintro ⟨hx, rfl⟩
    cases hy : xs.find? fun y => key y = key x with
    | none =>
      have hnone := List.find?_eq_none.mp hy x hx
      simp at hnone
    | some y =>
      have hkey : key y = key x := by simpa using List.find?_some hy
      rw [List.inj_on_of_nodup_map h (List.mem_of_find?_eq_some hy) hx hkey]

def Route.address (r : Route) : String × MemberId := (r.group, r.member)

def Route.pop (id : Nat) (r : Route) : Route :=
  if r.id = id then { r with queue := r.queue.tail } else r

theorem Route.id_pop (id : Nat) (r : Route) : (r.pop id).id = r.id := by
  unfold pop
  split <;> rfl

theorem Route.address_pop (id : Nat) (r : Route) : (r.pop id).address = r.address := by
  unfold pop
  split <;> rfl

def Arrival.next : List Inbound → Arrival
  | [] => .nothing
  | inbound :: _ => .envelope inbound

namespace Network

variable {net left : Network} {id other : Nat} {sender m : MemberId} {group : String}
  {address : String × MemberId}

/-- What waits at the route for an address, if there is one. -/
def queue? (net : Network) (address : String × MemberId) : Option (List Inbound) :=
  (net.routes.find? fun r => r.address = address).map Route.queue

/-- No two routes have the same number or the same address. -/
structure Tidy (net : Network) : Prop where
  numbered : net.Numbered
  ids : (net.routes.map Route.id).Nodup
  addresses : (net.routes.map Route.address).Nodup

theorem Tidy.queue?_eq_some_iff (h : net.Tidy) {queue : List Inbound} :
    net.queue? address = some queue ↔ ∃ r ∈ net.routes, r.address = address ∧ r.queue = queue := by
  unfold queue?
  simp only [Option.map_eq_some_iff, find?_key_eq_some_iff h.addresses, and_assoc]

theorem Tidy.address?_eq_some_iff (h : net.Tidy) :
    net.address? id = some address ↔ ∃ r ∈ net.routes, r.id = id ∧ r.address = address := by
  unfold address? route?
  simp only [Option.map_eq_some_iff, find?_key_eq_some_iff h.ids, and_assoc]
  rfl

/-- A route is as well known by its address as by its number. -/
theorem Tidy.id_eq_iff (h : net.Tidy) (ha : net.address? id = some address) {r : Route}
    (hr : r ∈ net.routes) : r.id = id ↔ r.address = address := by
  obtain ⟨x, hx, rfl, rfl⟩ := h.address?_eq_some_iff.mp ha
  constructor
  · intro hid
    rw [List.inj_on_of_nodup_map h.ids hr hx hid]
  · intro haddress
    rw [List.inj_on_of_nodup_map h.addresses hr hx haddress]

theorem Tidy.queue?_of_address? (h : net.Tidy) (ha : net.address? id = some address) :
    net.queue? address = some (net.pending id) := by
  obtain ⟨r, hr, haddress⟩ := route?_of_address? ha
  exact h.queue?_eq_some_iff.mpr ⟨r, List.mem_of_find?_eq_some hr, haddress,
    (pending_of_route? hr).symm⟩

theorem hasRoute_eq_isSome : net.hasRoute group m = (net.queue? (group, m)).isSome := by
  unfold hasRoute queue?
  rw [Option.isSome_map, List.isSome_find?]
  congr 1
  funext r
  simp [Route.address]

theorem queue?_send (target : Target) (bytes : ByteArray) :
    (net.send sender group target bytes).2.queue? address =
      (net.queue? address).map (· ++ net.arrivals sender group target bytes address) := by
  unfold queue?
  rw [routes_send, List.find?_map]
  cases hr : net.routes.find? ((fun r => decide (r.address = address)) ∘ fun r =>
      r.push (net.arrivals sender group target bytes (r.group, r.member))) with
  | none =>
    have hnone : net.routes.find? (fun r => r.address = address) = none := hr
    rw [hnone]
    rfl
  | some r =>
    have hsome : net.routes.find? (fun r => r.address = address) = some r := hr
    have haddress : r.address = address := by simpa using List.find?_some hsome
    rw [hsome, ← haddress]
    rfl

theorem Tidy.send (h : net.Tidy) (target : Target) (bytes : ByteArray) :
    (net.send sender group target bytes).2.Tidy where
  numbered := (advances_send target bytes).numbered h.numbered
  ids := by
    rw [routes_send, List.map_map]
    exact h.ids
  addresses := by
    rw [routes_send, List.map_map]
    exact h.addresses

theorem Tidy.setOffline (h : net.Tidy) (offline : Bool) : (net.setOffline m offline).Tidy :=
  ⟨h.numbered, h.ids, h.addresses⟩

theorem Tidy.release (h : net.Tidy) (id : Nat) : (net.release id).Tidy where
  numbered := advances_release.numbered h.numbered
  ids := h.ids.sublist (List.filter_sublist.map _)
  addresses := h.addresses.sublist (List.filter_sublist.map _)

theorem Tidy.queue?_release (h : net.Tidy) (ha : net.address? id = some address)
    (other : String × MemberId) :
    (net.release id).queue? other = if other = address then none else net.queue? other := by
  ext queue
  have hkept (r : Route) : r ∈ (net.release id).routes ↔ r ∈ net.routes ∧ r.id ≠ id := by
    simp [Network.release]
  rw [(h.release id).queue?_eq_some_iff]
  simp only [hkept]
  constructor
  · rintro ⟨r, ⟨hr, hid⟩, rfl, rfl⟩
    have hne : r.address ≠ address := fun he => hid ((h.id_eq_iff ha hr).mpr he)
    rw [if_neg hne]
    exact h.queue?_eq_some_iff.mpr ⟨r, hr, rfl, rfl⟩
  · intro hqueue
    split at hqueue
    next => cases hqueue
    next hne =>
      obtain ⟨r, hr, rfl, hq⟩ := h.queue?_eq_some_iff.mp hqueue
      exact ⟨r, ⟨hr, fun hid => hne ((h.id_eq_iff ha hr).mp hid)⟩, rfl, hq⟩

theorem Tidy.subscribe (h : net.Tidy) : (net.subscribe m group).2.Tidy := by
  unfold Network.subscribe
  split
  next => exact h
  next hroute =>
    refine ⟨?_, ?_, ?_⟩
    · intro r hr
      rcases List.mem_append.mp hr with hold | hnew
      · exact Nat.lt_succ_of_lt (h.numbered r hold)
      · rw [List.mem_singleton.mp hnew]
        exact Nat.lt_succ_self _
    · rw [List.map_append, List.nodup_append]
      refine ⟨h.ids, by simp, ?_⟩
      intro k hk k' hk'
      obtain ⟨r, hr, rfl⟩ := List.mem_map.mp hk
      have hlt := h.numbered r hr
      have hk' : k' = net.nextId := by simpa using hk'
      omega
    · rw [List.map_append, List.nodup_append]
      refine ⟨h.addresses, by simp, ?_⟩
      rintro k hk k' hk' rfl
      obtain ⟨r, hr, rfl⟩ := List.mem_map.mp hk
      have hk' : r.address = (group, m) := by simpa [Route.address] using hk'
      apply hroute
      rw [hasRoute_eq_isSome, h.queue?_eq_some_iff.mpr ⟨r, hr, hk', rfl⟩]
      rfl

theorem queue?_subscribe (address : String × MemberId) :
    (net.subscribe m group).2.queue? address =
      if address = (group, m) then some ((net.queue? address).getD []) else net.queue? address := by
  unfold Network.subscribe
  split
  next hroute =>
    split
    next he =>
      subst he
      rw [hasRoute_eq_isSome] at hroute
      obtain ⟨queue, hqueue⟩ := Option.isSome_iff_exists.mp hroute
      rw [hqueue]
      rfl
    next => rfl
  next hroute =>
    unfold queue?
    rw [List.find?_append]
    split
    next he =>
      subst he
      have hnone : net.routes.find? (fun r => r.address = (group, m)) = none := by
        rw [hasRoute_eq_isSome, queue?, Option.isSome_map, Bool.not_eq_true,
          Option.isSome_eq_false_iff, Option.isNone_iff_eq_none] at hroute
        exact hroute
      rw [hnone]
      simp [Route.address]
    next he =>
      have hskip : [(⟨net.nextId, group, m, []⟩ : Route)].find? (fun r => r.address = address) =
          none := by
        simp [Route.address, Ne.symm he]
      rw [hskip, Option.or_none]

theorem Tidy.routes_receive (h : net.Tidy) (id : Nat) :
    (net.receive id).2.routes = net.routes.map (Route.pop id) := by
  have hsame (hrest : ∀ r ∈ net.routes, r.id = id → r.queue = []) :
      net.routes = net.routes.map (Route.pop id) := by
    conv_lhs => rw [← List.map_id net.routes]
    refine List.map_congr_left fun r hr => ?_
    unfold Route.pop
    split
    next hid => rw [hrest r hr hid, List.tail_nil, ← hrest r hr hid]; rfl
    next => rfl
  unfold Network.receive
  split
  next hnone =>
    exact hsame fun r hr hid => absurd (List.find?_eq_none.mp hnone r hr) (by simpa using hid)
  next x hx =>
    obtain ⟨hmem, hid⟩ := (find?_key_eq_some_iff h.ids).mp hx
    have hunique {r : Route} (hr : r ∈ net.routes) (hr' : r.id = id) : r = x :=
      List.inj_on_of_nodup_map h.ids hr hmem (hr'.trans hid.symm)
    split
    next hempty => exact hsame fun r hr hr' => by rw [hunique hr hr', hempty]
    next inbound queue hqueue =>
      refine List.map_congr_left fun r hr => ?_
      unfold Route.pop
      split
      next hr' => rw [hunique hr hr', hqueue, List.tail_cons]
      next => rfl

theorem Tidy.receive (h : net.Tidy) (id : Nat) : (net.receive id).2.Tidy := by
  refine ⟨(advances_receive net id).numbered h.numbered, ?_, ?_⟩
  · have hsame : Route.id ∘ Route.pop id = Route.id := funext (Route.id_pop id)
    rw [h.routes_receive, List.map_map, hsame]
    exact h.ids
  · have hsame : Route.address ∘ Route.pop id = Route.address := funext (Route.address_pop id)
    rw [h.routes_receive, List.map_map, hsame]
    exact h.addresses

theorem Tidy.queue?_receive (h : net.Tidy) (ha : net.address? id = some address)
    (other : String × MemberId) :
    (net.receive id).2.queue? other =
      if other = address then (net.queue? other).map List.tail else net.queue? other := by
  unfold queue?
  rw [h.routes_receive, List.find?_map]
  have hfind : net.routes.find? ((fun r => decide (r.address = other)) ∘ Route.pop id) =
      net.routes.find? fun r => r.address = other := by
    congr 1
    funext r
    rw [Function.comp_apply, Route.address_pop]
  rw [hfind]
  cases hr : net.routes.find? fun r => r.address = other with
  | none => simp
  | some r =>
    obtain ⟨hmem, rfl⟩ := (find?_key_eq_some_iff h.addresses).mp hr
    simp only [Option.map_some, Route.pop, h.id_eq_iff ha hmem]
    split <;> rfl

theorem receive_fst_of_address? (ha : net.address? id = some address) :
    (net.receive id).1 = Arrival.next (net.pending id) := by
  rcases receive_of_address? ha with ⟨hpending, hr⟩ | ⟨inbound, left, hr, hpending, -⟩
  · rw [hr, hpending]
    rfl
  · rw [hr, hpending]
    rfl

end Network

end ThresholdSigning
