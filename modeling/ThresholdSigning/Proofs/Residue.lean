import ThresholdSigning.Proofs.Chronicle
import ThresholdSigning.Proofs.ExecuteCall

namespace ThresholdSigning

variable {σ α τ : Type}

namespace Transport

inductive Entry
  | subscribed (id : Nat)
  | released (id : Nat)
deriving DecidableEq

/-- The same transport, with a book of all that was subscribed and released. -/
def booked (t : Transport τ) : Transport (τ × List Entry) where
  localMember := t.localMember
  subscribe group s :=
    match t.subscribe group s.1 with
    | (.ok id, left) => (.ok id, left, s.2 ++ [.subscribed id])
    | (.error e, left) => (.error e, left, s.2)
  receive id s := ((t.receive id s.1).1, (t.receive id s.1).2, s.2)
  release id s := (t.release id s.1, s.2 ++ [.released id])
  send group target bytes s :=
    ((t.send group target bytes s.1).1, (t.send group target bytes s.1).2, s.2)

variable {t : Transport τ} {own own' : Option Nat} {s s' : τ × List Entry} {book : List Entry}

theorem book_of_subscribe {group : String} {result : Except TransportError Nat}
    (h : t.booked.subscribe group s = (result, s')) :
    s'.2 = s.2 ++ result.toOption.toList.map Entry.subscribed := by
  unfold booked at h
  dsimp only at h
  split at h
  next =>
    cases h
    rfl
  next =>
    cases h
    exact (List.append_nil _).symm

/-- What is held is what the book has subscribed and not released. -/
inductive Balanced : Option Nat → List Entry → Prop
  | empty : Balanced none []
  | held (id : Nat) : Balanced (some id) [.subscribed id]
  | released (id : Nat) : Balanced none [.subscribed id, .released id]

theorem Balanced.eq_of_some {id : Nat} (h : Balanced (some id) book) : book = [.subscribed id] := by
  cases h
  rfl

theorem Balanced.eq_of_none (h : Balanced none book) :
    book = [] ∨ ∃ id, book = [.subscribed id, .released id] := by
  cases h with
  | empty => exact Or.inl rfl
  | released id => exact Or.inr ⟨id, rfl⟩

theorem Uses.balanced (h : t.booked.Uses own s own' s') (hbalanced : Balanced own s.2) :
    Balanced own' s'.2 := by
  induction h with
  | nothing => exact hbalanced
  | send _ _ _ _ ih => exact ih
  | receive _ ih => exact ih
  | @release id mid _ ih =>
    have hbook : (t.booked.release id mid).2 = [.subscribed id] ++ [.released id] :=
      congrArg (· ++ [Entry.released id]) ih.eq_of_some
    rw [hbook]
    exact .released id

theorem Acquires.balanced (h : t.booked.Acquires s own s') (hempty : s.2 = []) :
    Balanced own s'.2 := by
  cases h with
  | nothing =>
    rw [hempty]
    exact .empty
  | refused hsubscribe =>
    rw [book_of_subscribe hsubscribe, hempty]
    exact .empty
  | @released _ id mid hsubscribe =>
    have hbook : (t.booked.release id mid).2 = s.2 ++ [.subscribed id] ++ [.released id] :=
      congrArg (· ++ [Entry.released id]) (book_of_subscribe hsubscribe)
    rw [hbook, hempty]
    exact .released id
  | held hsubscribe =>
    rw [book_of_subscribe hsubscribe, hempty]
    exact .held _

end Transport

namespace ExecuteCall

open Transport (Entry Balanced)

variable {p : Party σ α} {t : Transport τ} {y y' : ExecuteCall σ α} {book book' : List Entry}

/-- What can come of a call, with its book. Between two acts anything may happen to the
transport. -/
inductive Becomes (p : Party σ α) (t : Transport τ) (y : ExecuteCall σ α) (book : List Entry) :
    ExecuteCall σ α → List Entry → Prop
  | refl : y.Becomes p t book y book
  | act {y' : ExecuteCall σ α} {book' : List Entry} (h : y.Becomes p t book y' book') (a : Act)
      (s : τ) :
      y.Becomes p t book (y'.act p t.booked (s, book') a).1
        (y'.act p t.booked (s, book') a).2.2

theorem Becomes.balanced (h : y.Becomes p t book y' book') (hsound : y.Sound)
    (hbalanced : Balanced y.own? book) : y'.Sound ∧ Balanced y'.own? book' := by
  induction h with
  | refl => exact ⟨hsound, hbalanced⟩
  | act _ a s ih =>
    obtain ⟨hnext, huses⟩ := ih.1.act p t.booked (s, _) a
    exact ⟨hnext, huses.balanced ih.2⟩

/-- The steps of an execution are among what can come of its call. -/
theorem Becomes.step {x x' : Execution σ α} {now : Nat} {move : Execution.Move}
    {events : List Event} {s s' : τ} {book'' : List Entry}
    (h : y.Becomes p t book (start (.begun x)) book')
    (hstep : x.step p t.booked now move (s, book') = some (events, x', s', book'')) :
    y.Becomes p t book (start (.begun x')) book'' := by
  obtain ⟨first, second, hacts⟩ := exists_acts_of_step (p := p) hstep
  have hboth := (h.act first s).act second
    ((start (.begun x)).act p t.booked (s, book') first).2.1
  rw [Prod.mk.eta, hacts] at hboth
  exact hboth

theorem Becomes.perform? {x x' : Execution σ α} {now : Nat} {moves : List Execution.Move}
    {s s' : τ} {book'' : List Entry} (h : y.Becomes p t book (start (.begun x)) book')
    (hperform : x.perform? p t.booked now moves (s, book') = some (x', s', book'')) :
    y.Becomes p t book (start (.begun x')) book'' := by
  induction moves generalizing x s book' with
  | nil =>
    cases hperform
    exact h
  | cons move moves ih =>
    unfold Execution.perform? at hperform
    split at hperform
    next => cases hperform
    next events x left hstep => exact ih (h.step hstep) hperform

/-- A call whose execution has ended is about to return; when it has returned, it has released what
it subscribed, and leaves the transport alone. -/
structure Spotless (p : Party σ α) (t : Transport τ) (y : ExecuteCall σ α) (book : List Entry) :
    Prop where
  returns : ∀ y' book', y.Becomes p t book y' book' → y'.HasEnded → ∀ s,
    (perform p t (List.replicate y'.owed.length .answer ++ [.stop]) y' s).1.Returned
  released : ∀ y' book', y.Becomes p t book y' book' → y'.Returned →
    book' = [] ∨ ∃ id, book' = [.subscribed id, .released id]
  quiet : ∀ y' book', y.Becomes p t book y' book' → y'.Returned → ∀ a s,
    (y'.act p t s a).1.Returned ∧ (y'.act p t s a).2 = s

theorem Sound.spotless (h : y.Sound) (hbalanced : Balanced y.own? book) :
    y.Spotless p t book where
  returns := fun _ _ _ hended s => hended.returns p t s
  released := by
    intro y' book' hbecomes hreturned
    have hbook := (hbecomes.balanced h hbalanced).2
    rw [hreturned.own?_eq] at hbook
    exact hbook.eq_of_none
  quiet := fun _ _ _ hreturned a s => hreturned.act p t s a

end ExecuteCall

namespace Network

variable {net net' : Network} {own own' : Option Nat} {m : MemberId}

/-- The addresses of all routes. -/
def live (net : Network) : List (String × MemberId) := net.routes.map Route.address

/-- The routes that have not the given number. -/
def besides (own : Option Nat) (net : Network) : List (Nat × String × MemberId) :=
  (net.routes.filter fun r => own ≠ some r.id).map fun r => (r.id, r.address)

theorem besides_none (net : Network) : (net.besides none).map Prod.snd = net.live := by
  simp only [besides, live, List.map_map]
  rw [List.filter_eq_self.mpr (by simp)]
  rfl

theorem besides_of_map {f : Route → Route} (hid : ∀ r, (f r).id = r.id)
    (haddress : ∀ r, (f r).address = r.address) (hroutes : net'.routes = net.routes.map f)
    (own : Option Nat) : net'.besides own = net.besides own := by
  simp only [besides, hroutes, List.filter_map, List.map_map, Function.comp_def, hid, haddress]

theorem besides_send (m : MemberId) (group : String) (target : Target) (bytes : ByteArray)
    (own : Option Nat) (net : Network) :
    (net.send m group target bytes).2.besides own = net.besides own := by
  have hroutes := routes_send net m group target bytes
  exact besides_of_map (f := fun r => r.push (net.arrivals m group target bytes r.address))
    (fun _ => rfl) (fun _ => rfl) hroutes own

theorem besides_release_self (id : Nat) (net : Network) :
    (net.release id).besides none = net.besides (some id) := by
  simp only [besides, release, List.filter_filter]
  congr 2
  funext r
  simp [eq_comm]

theorem besides_of_subscribe {group : String} {id : Nat} (hn : net.Numbered)
    (h : net.subscribe m group = (.ok id, net')) : net'.besides (some id) = net.besides none := by
  unfold Network.subscribe at h
  split at h
  next => cases h
  next =>
    cases h
    have hold : net.routes.filter (fun r => some net.nextId ≠ some r.id) = net.routes := by
      refine List.filter_eq_self.mpr fun r hr => ?_
      have hlt := hn r hr
      simp only [ne_eq, Option.some.injEq, decide_eq_true_eq]
      omega
    have hall : net.routes.filter (fun r => none ≠ some r.id) = net.routes := by simp
    simp only [besides, List.filter_append, hold, hall]
    simp

/-- One that holds a subscription leaves all other routes as they are. -/
theorem uses_besides (h : (transport m).Uses own net own' net') (htidy : net.Tidy) :
    net'.Tidy ∧ net'.besides own' = net.besides own := by
  induction h with
  | nothing => exact ⟨htidy, rfl⟩
  | @send own' mid _ group target bytes ih =>
    refine ⟨ih.1.send target bytes, ?_⟩
    rw [← ih.2]
    exact besides_send m group target bytes own' mid
  | @receive id mid _ ih =>
    refine ⟨ih.1.receive id, ?_⟩
    rw [← ih.2]
    exact besides_of_map (Route.id_pop id) (Route.address_pop id) (ih.1.routes_receive id) _
  | @release id mid _ ih => exact ⟨ih.1.release id, (besides_release_self id mid).trans ih.2⟩

theorem address?_of_uses (h : (transport m).Uses own net own' net') {id : Nat}
    (hown : own' = some id) : own = some id ∧ net'.address? id = net.address? id := by
  induction h with
  | nothing => exact ⟨hown, rfl⟩
  | send _ group target bytes ih =>
    obtain ⟨hbefore, haddress⟩ := ih hown
    exact ⟨hbefore, (address?_send target bytes).trans haddress⟩
  | receive _ ih =>
    obtain ⟨hbefore, haddress⟩ := ih hown
    exact ⟨hbefore, (address?_receive _ _ _).trans haddress⟩
  | release _ _ => cases hown

/-- What others do on a network. Their routes are known by their addresses. -/
inductive Other
  | subscribe (m : MemberId) (group : String)
  | release (address : String × MemberId)
  | receive (address : String × MemberId)
  | send (m : MemberId) (group : String) (target : Target) (bytes : ByteArray)
  | setOffline (m : MemberId) (offline : Bool)

/-- The number of the route for an address, unless it is the given one. -/
def idBesides? (own : Option Nat) (net : Network) (address : String × MemberId) : Option Nat :=
  (net.routes.find? fun r => own ≠ some r.id ∧ r.address = address).map Route.id

namespace Other

/-- Others never touch the route that is held under the given number. -/
def apply (own : Option Nat) (o : Other) (net : Network) : Network :=
  match o with
  | .subscribe m group => (net.subscribe m group).2
  | .release address =>
    match net.idBesides? own address with
    | none => net
    | some id => net.release id
  | .receive address =>
    match net.idBesides? own address with
    | none => net
    | some id => (net.receive id).2
  | .send m group target bytes => (net.send m group target bytes).2
  | .setOffline m offline => net.setOffline m offline

/-- The address of a subscription is taken by the route with the given number. -/
def refused (own : Option Nat) (net : Network) : Other → Bool
  | .subscribe m group => decide (own.bind net.address? = some (group, m))
  | _ => false

/-- What becomes of the live routes. -/
def onLive (o : Other) (live : List (String × MemberId)) : List (String × MemberId) :=
  match o with
  | .subscribe m group => if (group, m) ∈ live then live else live ++ [(group, m)]
  | .release address => live.filter (· ≠ address)
  | _ => live

end Other

/-- The network after all that others did. -/
def after (others : List Other) : Network := others.foldl (fun net o => o.apply none net) .empty

theorem Tidy.apply (h : net.Tidy) (own : Option Nat) (o : Other) : (o.apply own net).Tidy := by
  cases o with
  | subscribe m group => exact h.subscribe
  | release address =>
    unfold Other.apply
    dsimp only
    split
    next => exact h
    next id _ => exact h.release id
  | receive address =>
    unfold Other.apply
    dsimp only
    split
    next => exact h
    next id _ => exact h.receive id
  | send m group target bytes => exact h.send target bytes
  | setOffline m offline => exact h.setOffline offline

theorem tidy_after (others : List Other) : (after others).Tidy := by
  have hrun (net : Network) (h : net.Tidy) :
      (others.foldl (fun net o => o.apply none net) net).Tidy := by
    induction others generalizing net with
    | nil => exact h
    | cons o others ih => exact ih _ (h.apply none o)
  exact hrun .empty Exchange.sound_empty.tidy

theorem idBesides?_eq_some {address : String × MemberId} {id : Nat}
    (h : net.idBesides? own address = some id) :
    ∃ r ∈ net.routes, r.id = id ∧ r.address = address ∧ own ≠ some id := by
  obtain ⟨r, hr, rfl⟩ := Option.map_eq_some_iff.mp h
  have hspec := List.find?_some hr
  simp only [decide_eq_true_eq] at hspec
  exact ⟨r, List.mem_of_find?_eq_some hr, rfl, hspec.2, hspec.1⟩

theorem idBesides?_eq_none {address : String × MemberId}
    (h : net.idBesides? own address = none) :
    address ∉ (net.besides own).map Prod.snd := by
  have hnone := List.find?_eq_none.mp (Option.map_eq_none_iff.mp h)
  intro hmem
  simp only [besides, List.map_map, List.mem_map, List.mem_filter, Function.comp_apply,
    decide_eq_true_eq] at hmem
  obtain ⟨r, ⟨hr, hown⟩, haddress⟩ := hmem
  exact hnone r hr (by simpa using ⟨hown, haddress⟩)

/-- Others keep the route that is held. -/
theorem address?_apply {id : Nat} {key : String × MemberId} (o : Other) (hown : own = some id)
    (ha : net.address? id = some key) : (o.apply own net).address? id = some key := by
  cases o with
  | subscribe m group => exact address?_subscribe_of_address? ha
  | release address =>
    unfold Other.apply
    dsimp only
    split
    next => exact ha
    next other hother =>
      obtain ⟨-, -, -, -, hne⟩ := idBesides?_eq_some hother
      have hne : id ≠ other := by
        rintro rfl
        exact hne hown
      rw [address?_release_other hne, ha]
  | receive address =>
    unfold Other.apply
    dsimp only
    split
    next => exact ha
    next other _ => rw [address?_receive, ha]
  | send m group target bytes => exact (address?_send target bytes).trans ha
  | setOffline m offline => exact ha

/-- What is held, if anything, is the route for some address. -/
def Holds (net : Network) (own : Option Nat) : Prop :=
  ∀ id, own = some id → ∃ address, net.address? id = some address

theorem holds_none (net : Network) : net.Holds none := nofun

theorem Tidy.of_subscribe {group : String} {result : Except TransportError Nat} (h : net.Tidy)
    (hsubscribe : net.subscribe m group = (result, net')) : net'.Tidy := by
  have htidy : (net.subscribe m group).2.Tidy := h.subscribe
  rwa [hsubscribe] at htidy

theorem acquires_besides (h : (transport m).Acquires net own net') (htidy : net.Tidy) :
    net'.Tidy ∧ net'.Holds own ∧ net'.besides own = net.besides none := by
  cases h with
  | nothing => exact ⟨htidy, holds_none net, rfl⟩
  | refused hsubscribe =>
    rw [eq_of_subscribe_eq_error hsubscribe]
    exact ⟨htidy, holds_none net, rfl⟩
  | @released group id mid hsubscribe =>
    exact ⟨(htidy.of_subscribe hsubscribe).release id, holds_none _,
      (besides_release_self id mid).trans (besides_of_subscribe htidy.numbered hsubscribe)⟩
  | @held group id _ hsubscribe =>
    refine ⟨htidy.of_subscribe hsubscribe, ?_, besides_of_subscribe htidy.numbered hsubscribe⟩
    rintro _ ⟨⟩
    exact ⟨(group, m), (subscribe_eq_ok htidy.numbered hsubscribe).2.2.1⟩

theorem Tidy.mem_live_iff (h : net.Tidy) {address : String × MemberId}
    (hown : own.bind net.address? ≠ some address) :
    address ∈ net.live ↔ address ∈ (net.besides own).map Prod.snd := by
  simp only [live, besides, List.map_map, List.mem_map, List.mem_filter, Function.comp_apply,
    decide_eq_true_eq]
  constructor
  · rintro ⟨r, hr, rfl⟩
    refine ⟨r, ⟨hr, ?_⟩, rfl⟩
    rintro rfl
    exact hown (h.address?_eq_some_iff.mpr ⟨r, hr, rfl, rfl⟩)
  · rintro ⟨r, ⟨hr, -⟩, haddress⟩
    exact ⟨r, hr, haddress⟩

theorem hasRoute_iff {group : String} :
    net.hasRoute group m = true ↔ (group, m) ∈ net.live := by
  simp [hasRoute, live, Route.address]

theorem besides_subscribe (htidy : net.Tidy) (hheld : net.Holds own) {group : String}
    (hown : own.bind net.address? ≠ some (group, m)) :
    ((net.subscribe m group).2.besides own).map Prod.snd =
      Other.onLive (.subscribe m group) ((net.besides own).map Prod.snd) := by
  have hroute := hasRoute_iff.trans (htidy.mem_live_iff hown)
  unfold Network.subscribe Other.onLive
  by_cases hmem : (group, m) ∈ (net.besides own).map Prod.snd
  · rw [if_pos (hroute.mpr hmem)]
    exact (if_pos hmem).symm
  · have hnew : own ≠ some net.nextId := by
      intro hnext
      obtain ⟨address, haddress⟩ := hheld _ hnext
      exact Nat.lt_irrefl _ (htidy.numbered.lt_nextId haddress)
    rw [if_neg fun h => hmem (hroute.mp h)]
    refine Eq.trans ?_ (if_neg hmem).symm
    simp [besides, hnew, Route.address]

theorem besides_release (htidy : net.Tidy) {address : String × MemberId} :
    ((Other.apply own (.release address) net).besides own).map Prod.snd =
      Other.onLive (.release address) ((net.besides own).map Prod.snd) := by
  unfold Other.apply Other.onLive
  dsimp only
  cases hid : net.idBesides? own address with
  | none =>
    refine (List.filter_eq_self.mpr ?_).symm
    intro other hother
    have hne : other ≠ address := by
      rintro rfl
      exact idBesides?_eq_none hid hother
    simpa using hne
  | some id =>
    obtain ⟨r, hr, hrid, haddress, -⟩ := idBesides?_eq_some hid
    have ha : net.address? id = some address :=
      htidy.address?_eq_some_iff.mpr ⟨r, hr, hrid, haddress⟩
    simp only [besides, release, List.map_map, List.filter_map, List.filter_filter]
    congr 1
    refine List.filter_congr fun r hr => ?_
    have hiff := htidy.id_eq_iff ha hr
    simp [hiff, Bool.and_comm]

/-- Others do to their routes what they would do if nothing was held, unless they are refused. -/
theorem besides_apply (htidy : net.Tidy) (hheld : net.Holds own) {o : Other}
    (hgranted : o.refused own net = false) :
    ((o.apply own net).besides own).map Prod.snd = o.onLive ((net.besides own).map Prod.snd) := by
  cases o with
  | subscribe m group =>
    exact besides_subscribe htidy hheld (of_decide_eq_false hgranted)
  | release address => exact besides_release htidy
  | receive address =>
    unfold Other.apply Other.onLive
    dsimp only
    split
    next => rfl
    next id _ =>
      rw [besides_of_map (Route.id_pop id) (Route.address_pop id) (htidy.routes_receive id)]
  | send m group target bytes =>
    exact congrArg _ (besides_send m group target bytes own net)
  | setOffline m offline => rfl

theorem apply_of_refused {o : Other} (h : o.refused own net = true) : o.apply own net = net := by
  cases o with
  | subscribe m group =>
    obtain ⟨id, rfl, haddress⟩ := Option.bind_eq_some_iff.mp (of_decide_eq_true h)
    obtain ⟨r, hr, haddress⟩ := route?_of_address? haddress
    have hmem : (group, m) ∈ net.live :=
      List.mem_map.mpr ⟨r, List.mem_of_find?_eq_some hr, haddress⟩
    exact congrArg Prod.snd (if_pos (hasRoute_iff.mpr hmem))
  | release | receive | send | setOffline => cases h

theorem live_after_append (others : List Other) (o : Other) :
    (after (others ++ [o])).live = o.onLive (after others).live := by
  have hgranted : o.refused none (after others) = false := by cases o <;> rfl
  have hlast := besides_apply (tidy_after others) (holds_none _) hgranted
  rw [besides_none, besides_none] at hlast
  rw [after, List.foldl_append]
  exact hlast

theorem uses_holds (h : (transport m).Uses own net own' net') (hheld : net.Holds own) :
    net'.Holds own' := by
  intro id hown
  obtain ⟨hbefore, haddress⟩ := address?_of_uses h hown
  rw [haddress]
  exact hheld id hbefore

theorem holds_apply (hheld : net.Holds own) (o : Other) : (o.apply own net).Holds own := by
  intro id hown
  obtain ⟨address, haddress⟩ := hheld id hown
  exact ⟨address, address?_apply o hown haddress⟩

end Network

/-- A call that executes a plan on a network where others are at work too. -/
structure NetworkCall (σ α : Type) where
  call : ExecuteCall σ α
  net : Network
  /-- What others have done since the call, apart from what they were refused because of it. -/
  others : List Network.Other

namespace NetworkCall

def start (request : Request σ α) (net : Network) : NetworkCall σ α := ⟨.start request, net, []⟩

inductive Move
  | own (a : ExecuteCall.Act)
  | other (o : Network.Other)

def step (p : Party σ α) (m : MemberId) (v : NetworkCall σ α) : Move → NetworkCall σ α
  | .own a =>
    let (call, net) := v.call.act p (Network.transport m) v.net a
    ⟨call, net, v.others⟩
  | .other o =>
    { v with
      net := o.apply v.call.own? v.net
      others := if o.refused v.call.own? v.net then v.others else v.others ++ [o] }

def run (p : Party σ α) (m : MemberId) (v : NetworkCall σ α) (moves : List Move) :
    NetworkCall σ α :=
  moves.foldl (step p m) v

/-- All routes but the one that is held are there because of what others did. -/
structure Apart (before : List Network.Other) (v : NetworkCall σ α) : Prop where
  sound : v.call.Sound
  tidy : v.net.Tidy
  holds : v.net.Holds v.call.own?
  others : (v.net.besides v.call.own?).map Prod.snd = (Network.after (before ++ v.others)).live

variable {p : Party σ α} {m : MemberId} {before : List Network.Other} {v : NetworkCall σ α}
  {request : Request σ α} {net : Network}

theorem Apart.own (h : v.Apart before) (p : Party σ α) (m : MemberId) (a : ExecuteCall.Act) :
    (v.step p m (.own a)).Apart before ∧
      (v.step p m (.own a)).net.besides (v.step p m (.own a)).call.own? =
        v.net.besides v.call.own? := by
  obtain ⟨hsound, huses⟩ := h.sound.act p (Network.transport m) v.net a
  obtain ⟨htidy, hbesides⟩ := Network.uses_besides huses h.tidy
  exact ⟨⟨hsound, htidy, Network.uses_holds huses h.holds, hbesides ▸ h.others⟩, hbesides⟩

theorem Apart.other (h : v.Apart before) (p : Party σ α) (m : MemberId) (o : Network.Other) :
    (v.step p m (.other o)).Apart before := by
  refine ⟨h.sound, h.tidy.apply _ o, Network.holds_apply h.holds o, ?_⟩
  unfold step
  dsimp only
  cases hrefused : o.refused v.call.own? v.net with
  | true =>
    -- The request has changed nothing, and is not among those that count without the call.
    rw [if_pos rfl, Network.apply_of_refused hrefused]
    exact h.others
  | false =>
    rw [if_neg Bool.false_ne_true, Network.besides_apply h.tidy h.holds hrefused, h.others,
      ← List.append_assoc, Network.live_after_append]

theorem Apart.run (h : v.Apart before) (p : Party σ α) (m : MemberId) (moves : List Move) :
    (v.run p m moves).Apart before := by
  induction moves generalizing v with
  | nil => exact h
  | cons move moves ih =>
    cases move with
    | own a => exact ih (h.own p m a).1
    | other o => exact ih (h.other p m o)

theorem apart_start (h : (Network.transport m).Acquires (Network.after before)
    (ExecuteCall.start request).own? net) : (start request net).Apart before := by
  obtain ⟨htidy, hholds, hbesides⟩ := Network.acquires_besides h (Network.tidy_after before)
  refine ⟨ExecuteCall.sound_start request, htidy, hholds, ?_⟩
  rw [show (start request net).others = [] from rfl, List.append_nil, ← Network.besides_none]
  exact congrArg _ hbesides

theorem Apart.live_eq (h : v.Apart before) (hreturned : v.call.Returned) :
    v.net.live = (Network.after (before ++ v.others)).live := by
  have hothers := h.others
  rwa [hreturned.own?_eq, Network.besides_none] at hothers

/-- A call never touches a route of others, and when it has returned, the routes are those that
there would be without it. -/
structure Harmless (p : Party σ α) (m : MemberId) (before : List Network.Other)
    (v : NetworkCall σ α) : Prop where
  started : v.net.besides v.call.own? = (Network.after before).besides none
  untouched : ∀ moves a, ((v.run p m moves).step p m (.own a)).net.besides
    ((v.run p m moves).step p m (.own a)).call.own? =
      (v.run p m moves).net.besides (v.run p m moves).call.own?
  live : ∀ moves, (v.run p m moves).call.Returned →
    (v.run p m moves).net.live = (Network.after (before ++ (v.run p m moves).others)).live
  quiet : ∀ moves, (v.run p m moves).call.Returned → ∀ a,
    ((v.run p m moves).step p m (.own a)).call.Returned ∧
      ((v.run p m moves).step p m (.own a)).net = (v.run p m moves).net

theorem Apart.harmless (h : v.Apart before)
    (hstarted : v.net.besides v.call.own? = (Network.after before).besides none) :
    v.Harmless p m before where
  started := hstarted
  untouched := fun moves a => ((h.run p m moves).own p m a).2
  live := fun moves hreturned => (h.run p m moves).live_eq hreturned
  quiet := fun moves hreturned a =>
    hreturned.act p (Network.transport m) (v.run p m moves).net a

/-- However an execution ends, and if it was not begun at all: the call returns once its dispatcher
has answered, it leaves no subscription behind, and nobody sends on its behalf from then on. -/
theorem no_residue (p : Party σ α) (plan : Except Error (List Event × Plan))
    (makeParty : Group → Except PartyError σ) (now elapsed : Nat) :
    (∀ {τ : Type} (t : Transport τ) (s left : τ) (events : List Event) (request : Request σ α)
        (book : List Transport.Entry),
      Request.begin? plan t.booked makeParty now elapsed (s, []) =
          some (events, request, left, book) →
        (ExecuteCall.start request).Spotless p t book) ∧
      ∀ (m : MemberId) (before : List Network.Other) (events : List Event)
          (request : Request σ α) (net : Network),
        Request.begin? plan (Network.transport m) makeParty now elapsed (Network.after before) =
            some (events, request, net) →
          (start request net).Harmless p m before := by
  constructor
  · intro τ t s left events request book hbegin
    have hacquires := ExecuteCall.acquires_of_begin? hbegin
    exact (ExecuteCall.sound_start request).spotless (hacquires.balanced rfl)
  · intro m before events request net hbegin
    have hacquires := ExecuteCall.acquires_of_begin? hbegin
    have hstarted := Network.acquires_besides hacquires (Network.tidy_after before)
    exact (apart_start hacquires).harmless hstarted.2.2

section Sample

open Chronicle

/-- Nothing comes in on this link, and nothing will. -/
def quietLink : Link := { Link.create Screening.b none false with feedOpen := false }

/-- The feed ends before the others are heard from. -/
def cutOff : Option (Execution Nat Unit × Link × List Transport.Entry) :=
  (Execution.begin? signingPlan (Link.transport Screening.b).booked (fun _ => .ok 0) 0 0
    (quietLink, [])).bind fun (_, x, left) =>
      x.perform? picky (Link.transport Screening.b).booked 0 [.join, .dispatch, .join, .join] left

/-- Another member comes and joins, and the subscription of the call is asked for once more. The
answer to the join is due when the time is over, and sent before the call returns. -/
def sharedMoves : List Move :=
  [.own (.join 0), .own (.join 0), .other (.subscribe Screening.c "g"),
    .other (.send Screening.c "g" .everyone (Envelope.join Screening.c).framed), .own .take,
    .other (.subscribe Screening.b "g"), .own (.tick 1000), .own (.join 1000), .own .answer,
    .own .stop]

def sharedCall : Option (NetworkCall Nat Unit) :=
  (Request.begin? (.ok ([], signingPlan)) (Network.transport Screening.b) (fun _ => .ok 0) 0 0
    (Network.after [.subscribe Screening.a "g"])).map fun (_, request, net) =>
      (start request net).run picky Screening.b sharedMoves

theorem view_cutOff :
    cutOff.map (fun r => (r.1.result?.isSome, r.2.2)) =
      some (true, [.subscribed 0, .released 0]) := by
  decide +kernel

theorem view_sharedCall :
    sharedCall.map (fun v => (decide v.call.Returned, v.net.sent, v.net.live, v.others.length)) =
      some (true, 3, [("g", Screening.a), ("g", Screening.c)], 2) := by
  decide +kernel

theorem no_residue_sharedCall :
    (∃ events x left x' l,
      Request.begin? (.ok ([], signingPlan)) (Link.transport Screening.b).booked (fun _ => .ok 0) 0
          0 (quietLink, []) = some (events, .begun x, left) ∧
        x.perform? picky (Link.transport Screening.b).booked 0 [.join, .dispatch, .join, .join]
          left = some (x', l, [.subscribed 0, .released 0]) ∧
        (ExecuteCall.start (.begun x')).Returned ∧
        ∀ a s, ((ExecuteCall.start (.begun x')).act picky (Link.transport Screening.b) s a).2 = s) ∧
      ∃ events request net v,
        Request.begin? (.ok ([], signingPlan)) (Network.transport Screening.b) (fun _ => .ok 0) 0 0
            (Network.after [.subscribe Screening.a "g"]) = some (events, request, net) ∧
          (start request net).run picky Screening.b sharedMoves = v ∧ v.call.Returned ∧
          v.others.length = 2 ∧
          v.net.live = [("g", Screening.a), ("g", Screening.c)] ∧
          (Network.after ([.subscribe Screening.a "g"] ++ v.others)).live = v.net.live ∧
          ∀ a, (v.step picky Screening.b (.own a)).net = v.net := by
  constructor
  · obtain ⟨⟨x', l, book⟩, hcut, hview⟩ := Option.map_eq_some_iff.mp view_cutOff
    obtain ⟨⟨events, x, left, book'⟩, hx, hperform⟩ := Option.bind_eq_some_iff.mp hcut
    simp only [Prod.mk.injEq] at hview
    obtain ⟨hended, rfl⟩ := hview
    have hbegin : Request.begin? (.ok ([], signingPlan)) (Link.transport Screening.b).booked
        (fun _ => .ok 0) 0 0 (quietLink, []) = some ([] ++ events, .begun x, left, book') := by
      simp only [Request.begin?, hx, Option.map_some]
    have hspotless := (no_residue picky (.ok ([], signingPlan)) (fun _ => .ok 0) 0 0).1
      (Link.transport Screening.b) quietLink left _ _ _ hbegin
    have hbecomes := ExecuteCall.Becomes.refl.perform? hperform
    have hreturned := ExecuteCall.returned_start hended
    exact ⟨_, x, (left, book'), x', l, hbegin, hperform, hreturned,
      fun a s => (hspotless.quiet _ _ hbecomes hreturned a s).2⟩
  · obtain ⟨v, hcall, hview⟩ := Option.map_eq_some_iff.mp view_sharedCall
    obtain ⟨⟨events, request, net⟩, hbegin, hrun⟩ := Option.map_eq_some_iff.mp hcall
    simp only [Prod.mk.injEq, decide_eq_true_eq] at hview
    obtain ⟨hreturned, -, hlive, hothers⟩ := hview
    have hharmless := (no_residue picky (.ok ([], signingPlan)) (fun _ => .ok 0) 0 0).2
      Screening.b [.subscribe Screening.a "g"] events request net hbegin
    dsimp only at hrun
    subst hrun
    exact ⟨events, request, net, _, hbegin, rfl, hreturned, hothers, hlive,
      (hharmless.live sharedMoves hreturned).symm,
      fun a => (hharmless.quiet sharedMoves hreturned a).2⟩

end Sample

end NetworkCall

end ThresholdSigning
