import ThresholdSigning.Proofs.Isolation
import Mathlib.Data.Set.Card

namespace ThresholdSigning

namespace Network

variable {net left : Network} {id : Nat} {sender m : MemberId} {group : String}
  {address : String × MemberId}

/-- Takes away the route for an address, whoever has subscribed for it. -/
def vacate (net : Network) (address : String × MemberId) : Network :=
  { net with routes := net.routes.filter (·.address ≠ address) }

/-- As long as no two subscriptions share an address, a subscription that takes away what is at its
address takes away its own route. -/
theorem Tidy.release_eq_vacate (h : net.Tidy) (ha : net.address? id = some address) :
    net.release id = net.vacate address := by
  unfold Network.release vacate
  congr 1
  refine List.filter_congr fun r hr => ?_
  simp only [ne_eq, h.id_eq_iff ha hr]

def ids (net : Network) : List Nat := net.routes.map Route.id

theorem ids_send (target : Target) (bytes : ByteArray) :
    (net.send sender group target bytes).2.ids = net.ids := by
  unfold ids
  rw [routes_send, List.map_map]
  rfl

theorem Tidy.ids_receive (h : net.Tidy) (id : Nat) : (net.receive id).2.ids = net.ids := by
  have hsame : Route.id ∘ Route.pop id = Route.id := funext (Route.id_pop id)
  unfold Network.ids
  rw [h.routes_receive, List.map_map, hsame]

theorem ids_release (net : Network) (id : Nat) :
    (net.release id).ids = net.ids.filter (· ≠ id) := by
  unfold ids release
  rw [List.filter_map]
  rfl

theorem ids_subscribe_ok (h : net.subscribe m group = (.ok id, left)) :
    left.ids = net.ids ++ [id] := by
  unfold subscribe at h
  split at h
  next => cases h
  next =>
    cases h
    simp [ids]

theorem subscribe_of_hasRoute (h : net.hasRoute group m = true) :
    net.subscribe m group = (.error (.alreadySubscribed group m), net) :=
  if_pos h

end Network

namespace Bridge

variable {b : Bridge} {net left : Network} {m : MemberId} {deed : Deed}

theorem ids_publish (b : Bridge) (m : MemberId) (e : Envelope) (target : Target) (net : Network) :
    (b.publish (Network.transport m) e target net).2.ids = net.ids := by
  rcases publish_network b m e target net with ⟨error, hp⟩ | ⟨bytes, -, -, hp⟩
  · rw [hp]
  · rw [hp]
    exact Network.ids_send target bytes

theorem ids_send (b : Bridge) (m : MemberId) (payload : ByteArray) (target : Target)
    (net : Network) : (b.send (Network.transport m) payload target net).2.ids = net.ids := by
  rcases send_network b m payload target net with ⟨error, hp⟩ | ⟨bytes, -, -, hp⟩
  · rw [hp]
  · rw [hp]
    exact Network.ids_send target bytes

theorem ids_dispatch (b : Bridge) (m : MemberId) (inbound : Inbound) (net : Network) :
    (b.dispatch (Network.transport m) inbound net).2.2.ids = net.ids := by
  rcases dispatch_state_eq b (Network.transport m) inbound net with hs | hs
  · rw [hs]
  · rw [hs]
    exact Network.ids_send _ _

/-- Nothing but its end makes a bridge lose its subscription, or takes a route away. -/
theorem Bound.act_of_ne_close (hb : b.Bound net) (h : net.Tidy) (hne : deed ≠ .close) :
    (b.act net deed).2.1.isOpen = b.isOpen ∧
      (b.act net deed).2.1.subscription = b.subscription ∧
      (b.act net deed).2.2.ids = net.ids := by
  cases deed with
  | send payload target => exact ⟨rfl, rfl, ids_send b _ payload target net⟩
  | join => exact ⟨rfl, rfl, ids_publish b _ _ _ net⟩
  | dispatch =>
    by_cases hopen : b.isOpen = true
    · have hreceived := h.ids_receive b.subscription
      rcases Network.receive_of_address? (hb b.subscription (if_pos hopen)) with
        ⟨-, hr⟩ | ⟨inbound, left, hr, -, -⟩
      · have hstep := step_of_nothing (t := Network.transport b.group.localMember) hopen hr
        simp only [Bridge.act, hstep, and_self]
      · have hstep := step_of_envelope (t := Network.transport b.group.localMember) hopen hr
        obtain ⟨signals, he⟩ :=
          dispatch_bridge_eq b (Network.transport b.group.localMember) inbound left
        rw [hr] at hreceived
        simp only [Bridge.act, hstep, ids_dispatch, hreceived, he, and_self]
    · have hclosed : b.isOpen = false := by simpa using hopen
      have hstep := step_of_closed (t := Network.transport b.group.localMember) (s := net) hclosed
      simp only [Bridge.act, hstep, and_self]
  | read => cases hm : b.messages <;> simp [Bridge.act, hm]
  | heed => cases hs : b.signals <;> simp [Bridge.act, hs]
  | close => exact absurd rfl hne

theorem act_close (b : Bridge) (net : Network) :
    (b.act net .close).2 = ({ b with isOpen := false },
      if b.isOpen then net.release b.subscription else net) := by
  by_cases hopen : b.isOpen = true
  · simp [act, close, hopen, Network.transport]
  · have hclosed : b.isOpen = false := by simpa using hopen
    rw [act, close, if_neg hopen, if_neg hopen, ← hclosed]

theorem ids_connect {g : Group} (h : net.Tidy) (result : Except Error Bridge)
    (hconnect : connect g (Network.transport m) net = (result, left)) :
    left.ids = net.ids ++ (result.toOption.bind own?).toList := by
  cases result with
  | ok b =>
    obtain ⟨-, he, hsubscribe, -⟩ := connect_eq_ok hconnect
    have hown : b.own? = some b.subscription := by rw [he]; rfl
    rw [Network.ids_subscribe_ok hsubscribe]
    simp [Except.toOption, hown]
  | error e =>
    simp only [Except.toOption, Option.bind_none, Option.toList_none, List.append_nil]
    unfold connect at hconnect
    split at hconnect
    next =>
      cases hconnect
      rfl
    next =>
      have hcall : (Network.transport m).subscribe g.id net = net.subscribe m g.id := rfl
      rw [hcall] at hconnect
      rcases hr : net.subscribe m g.id with ⟨result, mid⟩
      rw [hr] at hconnect
      cases result with
      | error e =>
        cases hconnect
        rw [Network.eq_of_subscribe_eq_error hr]
      | ok id =>
        cases he : (Envelope.announce g.localMember).encode with
        | ok announce => simp [he] at hconnect
        | error e =>
          simp only [he, Prod.mk.injEq] at hconnect
          obtain ⟨-, rfl⟩ := hconnect
          -- The number is new, so that giving it back leaves the older ones.
          have hid := (Network.subscribe_eq_ok h.numbered hr).1
          have hold : ∀ other ∈ net.ids, other ≠ id := by
            intro other hother
            obtain ⟨r, hmem, rfl⟩ := List.mem_map.mp hother
            have hlt := h.numbered r hmem
            omega
          have hrelease : ((Network.transport m).release id mid).ids = mid.ids.filter (· ≠ id) :=
            Network.ids_release mid id
          have hkept : net.ids.filter (fun other => decide (other ≠ id)) = net.ids :=
            List.filter_eq_self.mpr fun other hother => by simpa using hold other hother
          rw [hrelease, Network.ids_subscribe_ok hr, List.filter_append, hkept]
          simp

end Bridge

/-- The address of the subscription that is held, as long as it is. -/
def Held.address? (group : String) : Held → Option (String × MemberId)
  | .subscription m _ => some (group, m)
  | .bridge b => if b.isOpen then some (b.group.id, b.group.localMember) else none

/-- How it is given back. -/
def Held.ending : Held → Use
  | .subscription _ _ => .drop
  | .bridge _ => .act .close

theorem Held.Bound.address?_eq_some_iff {k : Held} {group : String} {net : Network}
    (h : k.Bound group net) {address : String × MemberId} :
    k.address? group = some address ↔
      ∃ id, k.own? = some id ∧ net.address? id = some address := by
  cases k with
  | subscription m id =>
    have ha : net.address? id = some (group, m) := h
    simp [Held.address?, Held.own?, ha]
  | bridge b =>
    by_cases hopen : b.isOpen = true
    · have ha := h.2 b.subscription (if_pos hopen)
      simp [Held.address?, Held.own?, Bridge.own?, hopen, ha]
    · simp [Held.address?, Held.own?, Bridge.own?, hopen]

/-- A deed leaves the number of its bridge, which is free once the bridge is closed. -/
theorem Bridge.Bound.mem_ids_act {net : Network} {b : Bridge} (hb : b.Bound net) (h : net.Tidy)
    (deed : Deed) {id : Nat} (hid : id ∈ (b.act net deed).2.2.ids) :
    (b.act net deed).2.1.own? = some id ∨ id ∈ net.ids ∧ b.own? ≠ some id := by
  by_cases hclose : deed = .close
  · subst hclose
    right
    rw [b.act_close] at hid
    by_cases hopen : b.isOpen = true
    · rw [if_pos hopen, Network.ids_release, List.mem_filter] at hid
      have hne : id ≠ b.subscription := by simpa using hid.2
      refine ⟨hid.1, fun hown => ?_⟩
      rw [Bridge.own?, if_pos hopen] at hown
      exact hne (Option.some.inj hown).symm
    · rw [if_neg hopen] at hid
      have hown : b.own? = none := if_neg hopen
      exact ⟨hid, by simp [hown]⟩
  · obtain ⟨hopen, hsubscription, hids⟩ := hb.act_of_ne_close h hclose
    rw [hids] at hid
    have hsame : (b.act net deed).2.1.own? = b.own? := by
      rw [Bridge.own?, hopen, hsubscription, Bridge.own?]
    by_cases hown : b.own? = some id
    · exact Or.inl (hsame.trans hown)
    · exact Or.inr ⟨hid, hown⟩

theorem Network.mem_ids_subscribe {net : Network} (m : MemberId) (group : String) {id : Nat}
    (hid : id ∈ (net.subscribe m group).2.ids) :
    (net.subscribe m group).1 = .ok id ∨ id ∈ net.ids := by
  rcases hr : net.subscribe m group with ⟨result, left⟩
  rw [hr] at hid
  cases result with
  | error e =>
    rw [Network.eq_of_subscribe_eq_error hr] at hid
    exact Or.inr hid
  | ok new =>
    rw [Network.ids_subscribe_ok hr] at hid
    rcases List.mem_append.mp hid with hold | hnew
    · exact Or.inr hold
    · exact Or.inl (congrArg Except.ok (List.mem_singleton.mp hnew).symm)

theorem Bridge.mem_ids_connect {net : Network} (h : net.Tidy) (g : Group) (m : MemberId) {id : Nat}
    (hid : id ∈ (Bridge.connect g (Network.transport m) net).2.ids) :
    (∃ b, (Bridge.connect g (Network.transport m) net).1 = .ok b ∧ b.own? = some id) ∨
      id ∈ net.ids := by
  rcases hr : Bridge.connect g (Network.transport m) net with ⟨result, left⟩
  rw [hr] at hid
  rw [Bridge.ids_connect h result hr] at hid
  rcases List.mem_append.mp hid with hold | hnew
  · exact Or.inr hold
  · cases result with
    | error e => cases hnew
    | ok b => exact Or.inl ⟨b, rfl, by simpa [Except.toOption] using hnew⟩

/-- All routes after a use are older ones that the handle did not hold, or the one that it holds
now. -/
theorem Use.mem_ids_apply {net : Network} {group : String} {held : Option Held} (h : net.Tidy)
    (hb : ∀ k ∈ held, k.Bound group net) (u : Use) {id : Nat}
    (hid : id ∈ (u.apply group held net).2.2.ids) :
    (u.apply group held net).2.1.bind Held.own? = some id ∨
      id ∈ net.ids ∧ held.bind Held.own? ≠ some id := by
  unfold Use.apply at hid ⊢
  split at hid
  next m =>
    rcases Network.mem_ids_subscribe m group hid with hnew | hold
    · exact Or.inl (by simp [hnew, Except.toOption, Held.own?])
    · exact Or.inr ⟨hold, by simp⟩
  next m g =>
    split at hid
    next hg =>
      rw [if_pos hg]
      rcases Bridge.mem_ids_connect h g m hid with ⟨b, hnew, hown⟩ | hold
      · exact Or.inl (by simp [hnew, Except.toOption, Held.own?, hown])
      · exact Or.inr ⟨hold, by simp⟩
    next hg => exact Or.inr ⟨hid, by simp⟩
  next m own =>
    have hkept : id ∈ (net.release own).ids := hid
    rw [Network.ids_release, List.mem_filter] at hkept
    have hne : id ≠ own := by simpa using hkept.2
    exact Or.inr ⟨hkept.1, fun he => hne (Option.some.inj he).symm⟩
  next m own =>
    have hkept : id ∈ (net.receive own).2.ids := hid
    rw [h.ids_receive] at hkept
    by_cases hown : own = id
    · exact Or.inl (congrArg some hown)
    · exact Or.inr ⟨hkept, fun he => hown (Option.some.inj he)⟩
  next b deed => exact (hb _ rfl).2.mem_ids_act h deed hid
  next =>
    by_cases hown : held.bind Held.own? = some id
    · exact Or.inl hown
    · exact Or.inr ⟨hid, hown⟩

namespace Exchange

variable {x : Exchange} {h h' : Handle} {o : Operation} {id : Nat} {group : String} {m : MemberId}
  {address : String × MemberId}

/-- The address of the live subscription that a handle stands for. -/
def address? (x : Exchange) (h : Handle) : Option (String × MemberId) :=
  (x.held h).bind (Held.address? h.group)

theorem Sound.address?_eq_some_iff (hx : x.Sound) : x.address? h = some address ↔
    ∃ id, (x.held h).bind Held.own? = some id ∧ x.network.address? id = some address := by
  unfold Exchange.address?
  cases hk : x.held h with
  | none => simp
  | some k => exact (hx.bound h k hk).address?_eq_some_iff

/-- Every route has someone who holds its subscription. -/
def Occupied (x : Exchange) : Prop :=
  ∀ id ∈ x.network.ids, ∃ h, (x.held h).bind Held.own? = some id

theorem occupied_empty : empty.Occupied := by
  intro id hid
  cases hid

theorem Occupied.step (ho : x.Occupied) (hx : x.Sound) (o : Operation) :
    (x.step o).2.Occupied := by
  cases o with
  | setOffline m offline => exact ho
  | send m group target bytes =>
    intro id hid
    have hkept : id ∈ (x.network.send m group target bytes).2.ids := hid
    rw [Network.ids_send] at hkept
    exact ho id hkept
  | use h u =>
    intro id hid
    rcases u.mem_ids_apply hx.tidy (hx.bound h) hid with hnew | ⟨hold, hother⟩
    · exact ⟨h, by rw [Exchange.step, held_put_self]; exact hnew⟩
    · obtain ⟨holder, hholder⟩ := ho id hold
      have hne : holder ≠ h := by
        rintro rfl
        exact hother hholder
      exact ⟨holder, by rw [Exchange.step, held_put_other x _ _ hne]; exact hholder⟩

theorem occupied_run (os : List Operation) : (empty.run os).Occupied := by
  induction os using List.reverseRecOn with
  | nil => exact occupied_empty
  | append_singleton os o ih =>
    rw [run_append_singleton]
    exact ih.step (sound_run sound_empty os) o

/-- Routes and live subscriptions are the same. -/
structure Tenanted (x : Exchange) : Prop where
  hasRoute_iff : ∀ group m,
    x.network.hasRoute group m = true ↔ ∃! h, x.address? h = some (group, m)
  routeCount_eq : {h | (x.address? h).isSome}.encard = x.network.routeCount

theorem Sound.eq_of_address? (hx : x.Sound) (ha : x.address? h = some address)
    (ha' : x.address? h' = some address) : h = h' := by
  obtain ⟨id, hown, hid⟩ := hx.address?_eq_some_iff.mp ha
  obtain ⟨id', hown', hid'⟩ := hx.address?_eq_some_iff.mp ha'
  obtain ⟨r, hr, rfl, hr'⟩ := hx.tidy.address?_eq_some_iff.mp hid
  have hsame : r.id = id' := (hx.tidy.id_eq_iff hid' hr).mpr hr'
  exact hx.apart h h' r.id hown (hsame ▸ hown')

theorem hasRoute_iff_exists (net : Network) : net.hasRoute group m = true ↔
    ∃ r ∈ net.routes, r.address = (group, m) := by
  simp [Network.hasRoute, Route.address]

theorem Sound.hasRoute_of_address? (hx : x.Sound) (ha : x.address? h = some (group, m)) :
    x.network.hasRoute group m = true := by
  obtain ⟨id, -, hid⟩ := hx.address?_eq_some_iff.mp ha
  obtain ⟨r, hr, -, haddress⟩ := hx.tidy.address?_eq_some_iff.mp hid
  exact (hasRoute_iff_exists _).mpr ⟨r, hr, haddress⟩

theorem Occupied.exists_address? (ho : x.Occupied) (hx : x.Sound)
    (hroute : x.network.hasRoute group m = true) : ∃ h, x.address? h = some (group, m) := by
  obtain ⟨r, hr, haddress⟩ := (hasRoute_iff_exists _).mp hroute
  obtain ⟨h, hown⟩ := ho r.id (List.mem_map_of_mem hr)
  exact ⟨h, hx.address?_eq_some_iff.mpr
    ⟨r.id, hown, hx.tidy.address?_eq_some_iff.mpr ⟨r, hr, rfl, haddress⟩⟩⟩

/-- The holders are counted by the numbers of what they hold. -/
theorem Occupied.encard_eq (ho : x.Occupied) (hx : x.Sound) :
    {h | (x.address? h).isSome}.encard = x.network.routeCount := by
  have hinj : Set.InjOn (fun h => (x.held h).bind Held.own?) {h | (x.address? h).isSome} := by
    intro h hh h' _ hsame
    obtain ⟨address, ha⟩ := Option.isSome_iff_exists.mp hh
    obtain ⟨id, hown, -⟩ := hx.address?_eq_some_iff.mp ha
    exact hx.apart h h' id hown (hsame.symm.trans hown)
  have himage : (fun h => (x.held h).bind Held.own?) '' {h | (x.address? h).isSome} =
      ((x.network.ids.map some).toFinset : Set (Option Nat)) := by
    ext n
    simp only [Set.mem_image, Set.mem_ofPred_eq, List.coe_toFinset, List.mem_map]
    constructor
    · rintro ⟨h, hh, rfl⟩
      obtain ⟨address, ha⟩ := Option.isSome_iff_exists.mp hh
      obtain ⟨id, hown, hid⟩ := hx.address?_eq_some_iff.mp ha
      obtain ⟨r, hr, rfl, -⟩ := hx.tidy.address?_eq_some_iff.mp hid
      exact ⟨r.id, List.mem_map_of_mem hr, hown.symm⟩
    · rintro ⟨id, hid, rfl⟩
      obtain ⟨h, hown⟩ := ho id hid
      obtain ⟨r, hr, rfl⟩ := List.mem_map.mp hid
      have ha := hx.tidy.address?_eq_some_iff.mpr ⟨r, hr, rfl, rfl⟩
      have haddress := hx.address?_eq_some_iff.mpr ⟨r.id, hown, ha⟩
      exact ⟨h, Option.isSome_iff_exists.mpr ⟨_, haddress⟩, hown⟩
  have hnodup : (x.network.ids.map some).Nodup := hx.tidy.ids.map (Option.some_injective Nat)
  rw [← hinj.encard_image, himage, Set.encard_coe_eq_coe_finsetCard,
    List.toFinset_card_of_nodup hnodup]
  simp [Network.ids, Network.routeCount]

theorem Occupied.tenanted (ho : x.Occupied) (hx : x.Sound) : x.Tenanted where
  hasRoute_iff := by
    intro group m
    constructor
    · intro hroute
      obtain ⟨h, ha⟩ := ho.exists_address? hx hroute
      exact ⟨h, ha, fun h' ha' => hx.eq_of_address? ha' ha⟩
    · rintro ⟨h, ha, -⟩
      exact hx.hasRoute_of_address? ha
  routeCount_eq := ho.encard_eq hx

/-- The address that an operation gives up, where it drops a subscription or closes a bridge. -/
def gives? (x : Exchange) : Operation → Option (String × MemberId)
  | .use h .drop =>
    match x.held h with
    | some (.subscription m _) => some (h.group, m)
    | _ => none
  | .use h (.act .close) =>
    match x.held h with
    | some (.bridge b) => (Held.bridge b).address? h.group
    | _ => none
  | _ => none

/-- The same steps where a subscription does not take away its own route, but what it finds at its
address. -/
def stepByAddress (x : Exchange) (o : Operation) : Answer × Exchange :=
  match x.gives? o with
  | some address => ((x.step o).1, { (x.step o).2 with network := x.network.vacate address })
  | none => x.step o

def runByAddress (x : Exchange) (os : List Operation) : Exchange :=
  os.foldl (fun x o => (x.stepByAddress o).2) x

theorem Sound.network_step_of_gives? (hx : x.Sound) (hg : x.gives? o = some address) :
    (x.step o).2.network = x.network.vacate address := by
  unfold gives? at hg
  split at hg
  next h =>
    split at hg
    next m id hk =>
      cases hg
      have ha : x.network.address? id = some (h.group, m) := hx.bound h _ hk
      rw [← hx.tidy.release_eq_vacate ha]
      simp [Exchange.step, put, hk, Use.apply]
    next => cases hg
  next h =>
    split at hg
    next b hk =>
      unfold Held.address? at hg
      dsimp only at hg
      split at hg
      next hopen =>
        cases hg
        have ha := (hx.bound h _ hk).2 b.subscription (if_pos hopen)
        rw [← hx.tidy.release_eq_vacate ha]
        simp [Exchange.step, put, hk, Use.apply, b.act_close, hopen]
      next => cases hg
    next => cases hg
  next => cases hg

theorem Sound.stepByAddress_eq (hx : x.Sound) (o : Operation) : x.stepByAddress o = x.step o := by
  unfold stepByAddress
  split
  next address hg => rw [← hx.network_step_of_gives? hg]
  next => rfl

theorem runByAddress_eq (os : List Operation) : empty.runByAddress os = empty.run os := by
  induction os using List.reverseRecOn with
  | nil => rfl
  | append_singleton os o ih =>
    unfold runByAddress at ih ⊢
    rw [List.foldl_append, ih, run_append_singleton]
    exact congrArg Prod.snd ((sound_run sound_empty os).stepByAddress_eq o)

theorem Sound.queue?_vacate (hx : x.Sound) (ha : x.address? h = some address)
    (other : String × MemberId) : (x.network.vacate address).queue? other =
      if other = address then none else x.network.queue? other := by
  obtain ⟨id, -, hid⟩ := hx.address?_eq_some_iff.mp ha
  rw [← hx.tidy.release_eq_vacate hid]
  exact hx.tidy.queue?_release hid other

theorem Sound.step_ending (hx : x.Sound) {k : Held} (hk : x.held h = some k)
    (ha : k.address? h.group = some address) :
    (x.step (.use h k.ending)).2.network = x.network.vacate address ∧
      (x.step (.use h k.ending)).2.address? h = none := by
  have hg : x.gives? (.use h k.ending) = some address := by
    cases k <;> simpa [gives?, Held.ending, hk, Held.address?] using ha
  refine ⟨hx.network_step_of_gives? hg, ?_⟩
  unfold Exchange.address?
  rw [Exchange.step, held_put_self, hk]
  cases k with
  | subscription m id => rfl
  | bridge b => simp [Held.ending, Use.apply, b.act_close, Held.address?]

/-- A live subscription stays until its own handle gives it back. -/
theorem Sound.address?_step (hx : x.Sound) (ha : x.address? h = some address)
    (hdrop : o ≠ .use h .drop) (hclose : o ≠ .use h (.act .close)) :
    (x.step o).2.address? h = some address := by
  cases o with
  | setOffline m offline => exact ha
  | send m group target bytes => exact ha
  | use h' u =>
    by_cases hh : h = h'
    · subst hh
      unfold Exchange.address? at ha ⊢
      obtain ⟨k, hk, hkept⟩ := Option.bind_eq_some_iff.mp ha
      rw [Exchange.step, held_put_self, hk]
      cases k with
      | subscription m id =>
        cases u with
        | drop => exact absurd rfl hdrop
        | subscribe m => exact hkept
        | connect m g => exact hkept
        | receive => exact hkept
        | act deed => exact hkept
      | bridge b =>
        cases u with
        | act deed =>
          have hne : deed ≠ .close := by
            rintro rfl
            exact hclose rfl
          have hbound := (hx.bound h _ hk).2
          have hopen := (hbound.act_of_ne_close hx.tidy hne).1
          have hgroup := (hbound.act deed).1
          simpa only [Use.apply, Option.bind_some, Held.address?, hopen, hgroup] using hkept
        | drop => exact hkept
        | subscribe m => exact hkept
        | connect m g => exact hkept
        | receive => exact hkept
    · unfold Exchange.address? at ha ⊢
      rw [Exchange.step, held_put_other x _ _ hh]
      exact ha

theorem address?_run {os os' : List Operation} (ha : (empty.run os).address? h = some address)
    (hkept : ∀ o ∈ os', o ≠ .use h .drop ∧ o ≠ .use h (.act .close)) :
    (empty.run (os ++ os')).address? h = some address := by
  induction os' using List.reverseRecOn with
  | nil => rwa [List.append_nil]
  | append_singleton os' o ih =>
    have hbefore := ih fun o ho => hkept o (List.mem_append_left _ ho)
    obtain ⟨hdrop, hclose⟩ := hkept o (List.mem_append_right _ (List.mem_singleton_self o))
    rw [← List.append_assoc, run_append_singleton]
    exact (sound_run sound_empty _).address?_step hbefore hdrop hclose

/-- What is subscribed for starts with nothing that waits, whatever had been there before. -/
theorem Sound.of_subscribed (hx : x.Sound)
    (hs : (x.step (.use h (.subscribe m))).1 = .subscribed (.ok ())) :
    (x.step (.use h (.subscribe m))).2.address? h = some (h.group, m) ∧
      (x.step (.use h (.subscribe m))).2.network.queue? (h.group, m) = some [] := by
  have hleft := hx.step (.use h (.subscribe m))
  obtain ⟨id, hheld, hpending⟩ := hx.held_of_subscribed hs
  have ha : (x.step (.use h (.subscribe m))).2.network.address? id = some (h.group, m) :=
    hleft.bound h _ hheld
  have hqueue := hleft.tidy.queue?_of_address? ha
  rw [hpending] at hqueue
  exact ⟨by rw [Exchange.address?, hheld]; rfl, hqueue⟩

theorem Sound.of_connected (hx : x.Sound) {g : Group}
    (hs : (x.step (.use h (.connect m g))).1 = .connected (.ok ())) :
    (x.step (.use h (.connect m g))).2.address? h = some (g.id, g.localMember) ∧
      (x.step (.use h (.connect m g))).2.network.queue? (g.id, g.localMember) = some [] := by
  have hleft := hx.step (.use h (.connect m g))
  simp only [Exchange.step] at hs hleft ⊢
  cases hheld : x.held h with
  | some k =>
    rw [hheld] at hs
    simp [Use.apply] at hs
  | none =>
    rw [hheld] at hs hleft
    simp only [Use.apply] at hs hleft ⊢
    split at hs
    next hg =>
      rw [if_pos hg] at hleft ⊢
      rcases hc : Bridge.connect g (Network.transport m) x.network with ⟨result, left⟩
      rw [hc] at hs hleft
      cases result with
      | error e => simp [Except.map] at hs
      | ok b =>
        obtain ⟨hlocal, he, hsubscribe, -⟩ := Bridge.connect_eq_ok hc
        have hm : m = g.localMember := hlocal
        subst hm
        obtain ⟨-, -, haddress, hpending⟩ := Network.subscribe_eq_ok hx.tidy.numbered hsubscribe
        have hqueue := hleft.tidy.queue?_of_address? haddress
        have hpending' : (x.put h (some (.bridge b)) left).network.pending b.subscription = [] :=
          hpending
        refine ⟨?_, hqueue.trans (congrArg some hpending')⟩
        have hopen : b.isOpen = true := by rw [he]; rfl
        have hgroup : b.group = g := by rw [he]; rfl
        simp [Exchange.address?, Except.toOption, Held.address?, hopen, hgroup]
    next => cases hs

/-- At all times routes and live subscriptions are the same, and it is all one whether a
subscription takes away its own route or what is at its address. An address that is held is refused
and all stays as it is; giving it back takes away its route and nothing else; who gets it next
starts with nothing that waits, and keeps it whatever is done with other handles. -/
theorem tenanted_run (os : List Operation) :
    (empty.run os).Tenanted ∧ empty.runByAddress os = empty.run os ∧
      (∀ h group m, (empty.run os).address? h = some (group, m) →
        (empty.run os).network.subscribe m group =
          (.error (.alreadySubscribed group m), (empty.run os).network)) ∧
      (∀ h k address, (empty.run os).held h = some k → k.address? h.group = some address →
        ((empty.run os).step (.use h k.ending)).2.network =
            (empty.run os).network.vacate address ∧
          ((empty.run os).step (.use h k.ending)).2.address? h = none ∧
          ∀ other, ((empty.run os).step (.use h k.ending)).2.network.queue? other =
            if other = address then none else (empty.run os).network.queue? other) ∧
      (∀ h m, ((empty.run os).step (.use h (.subscribe m))).1 = .subscribed (.ok ()) →
        ((empty.run os).step (.use h (.subscribe m))).2.address? h = some (h.group, m) ∧
          ((empty.run os).step (.use h (.subscribe m))).2.network.queue? (h.group, m) =
            some []) ∧
      (∀ h m g, ((empty.run os).step (.use h (.connect m g))).1 = .connected (.ok ()) →
        ((empty.run os).step (.use h (.connect m g))).2.address? h =
            some (g.id, g.localMember) ∧
          ((empty.run os).step (.use h (.connect m g))).2.network.queue? (g.id, g.localMember) =
            some []) ∧
      ∀ h address os', (empty.run os).address? h = some address →
        (∀ o ∈ os', o ≠ .use h .drop ∧ o ≠ .use h (.act .close)) →
        (empty.run (os ++ os')).address? h = some address := by
  have hx := sound_run sound_empty os
  refine ⟨(occupied_run os).tenanted hx, runByAddress_eq os, ?_, ?_,
    fun h m hs => hx.of_subscribed hs, fun h m g hs => hx.of_connected hs,
    fun h address os' ha hkept => address?_run ha hkept⟩
  · intro h group m ha
    exact Network.subscribe_of_hasRoute (hx.hasRoute_of_address? ha)
  · intro h k address hk hkept
    obtain ⟨hleft, hnone⟩ := hx.step_ending hk hkept
    refine ⟨hleft, hnone, fun other => ?_⟩
    have ha : (empty.run os).address? h = some address := by rwa [Exchange.address?, hk]
    rw [hleft, hx.queue?_vacate ha]

end Exchange

namespace Tenancy

open Screening (a b group)

def first : Handle := ⟨"g", 0⟩

def second : Handle := ⟨"g", 1⟩

/-- A bridge of `b` is refused while `b` has a subscription, where something waits; once that one is
dropped the bridge is connected. -/
def script : List Operation :=
  [.use first (.subscribe b), .use second (.connect b group), .send a "g" .everyone ⟨#[1]⟩,
    .use first .drop, .use second (.connect b group)]

/-- The older handle is dropped again, and asks for the address that the bridge has now. -/
def later : List Operation :=
  [.use first .drop, .use first (.subscribe b), .send a "g" .everyone ⟨#[2]⟩, .use first .drop]

theorem tenanted_script :
    (Exchange.empty.run script).address? second = some ("g", b) ∧
      (∀ o ∈ later, o ≠ .use second .drop ∧ o ≠ .use second (.act .close)) ∧
      (Exchange.empty.run (script ++ later)).address? second = some ("g", b) ∧
      (Exchange.empty.run (script ++ later)).network.subscribe b "g" =
        (.error (.alreadySubscribed "g" b), (Exchange.empty.run (script ++ later)).network) := by
  have ha : (Exchange.empty.run script).address? second = some ("g", b) := by decide +kernel
  have hkept : ∀ o ∈ later, o ≠ .use second .drop ∧ o ≠ .use second (.act .close) := by
    simp [later, first, second]
  obtain ⟨-, -, -, -, -, -, hstays⟩ := Exchange.tenanted_run script
  obtain ⟨-, -, hrefused, -⟩ := Exchange.tenanted_run (script ++ later)
  have hafter := hstays second ("g", b) later ha hkept
  exact ⟨ha, hkept, hafter, hrefused second "g" b hafter⟩

end Tenancy

end ThresholdSigning
