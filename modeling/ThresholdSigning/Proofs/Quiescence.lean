import ThresholdSigning.Proofs.Isolation
import ThresholdSigning.Proofs.Signals
import Mathlib.Data.List.Perm.Basic

namespace ThresholdSigning

/-- Asks for an announce, if anyone listens to the sender. -/
def Inbound.isJoin (inbound : Inbound) : Bool :=
  match Envelope.decode inbound.bytes with
  | .ok (.join _) => true
  | _ => false

theorem Group.Hears.isJoin {g : Group} {inbound : Inbound} {sender : MemberId}
    (h : g.Hears inbound (.join sender)) : inbound.isJoin = true := by
  have hdecode : Envelope.decode inbound.bytes = .ok (.join sender) := h.decode
  rw [Inbound.isJoin, hdecode]

theorem Route.pop_of_ne {r : Route} {id : Nat} (h : r.id ≠ id) : r.pop id = r := if_neg h

/-- Taking from one route takes one envelope from all that waits. -/
theorem Route.perm_queues_pop {routes : List Route} {r : Route} {id : Nat} {inbound : Inbound}
    {queue : List Inbound} (hids : (routes.map Route.id).Nodup) (hr : r ∈ routes)
    (hid : r.id = id) (hqueue : r.queue = inbound :: queue) :
    (routes.flatMap Route.queue).Perm
      (inbound :: (routes.map (Route.pop id)).flatMap Route.queue) := by
  induction routes with
  | nil => cases hr
  | cons x xs ih =>
    rw [List.map_cons, List.nodup_cons] at hids
    obtain ⟨hfresh, hids⟩ := hids
    rw [List.map_cons, List.flatMap_cons, List.flatMap_cons]
    rcases List.mem_cons.mp hr with rfl | hmem
    · have hrest : xs.map (Route.pop id) = xs := by
        conv_rhs => rw [← List.map_id xs]
        refine List.map_congr_left fun y hy => Route.pop_of_ne ?_
        rintro hsame
        exact hfresh (List.mem_map.mpr ⟨y, hy, hsame.trans hid.symm⟩)
      have hpop : (r.pop id).queue = queue := by
        rw [Route.pop, if_pos hid, hqueue]
        rfl
      rw [hrest, hpop, hqueue]
      exact List.Perm.refl _
    · have hne : x.id ≠ id := by
        rintro hsame
        exact hfresh (List.mem_map.mpr ⟨r, hmem, hid.trans hsame.symm⟩)
      rw [Route.pop_of_ne hne]
      exact ((ih hids hmem).append_left x.queue).trans List.perm_middle

/-- Where every route is given at most one envelope and some route none. -/
theorem Route.length_flatMap_lt {routes : List Route} {r : Route} {f : Route → List Inbound}
    (hone : ∀ r, (f r).length ≤ 1) (hr : r ∈ routes) (hnone : f r = []) :
    (routes.flatMap f).length < routes.length := by
  have hle (routes : List Route) : (routes.flatMap f).length ≤ routes.length := by
    induction routes with
    | nil => exact Nat.le_refl _
    | cons x xs ih =>
      have hx := hone x
      rw [List.flatMap_cons, List.length_append, List.length_cons]
      omega
  obtain ⟨before, after, rfl⟩ := List.append_of_mem hr
  have hbefore := hle before
  have hafter := hle after
  simp only [List.flatMap_append, List.flatMap_cons, hnone, List.nil_append, List.length_append,
    List.length_cons]
  omega

namespace Network

variable {net left rest : Network} {id : Nat} {sender : MemberId} {group : String}
  {inbound : Inbound}

/-- All that waits on any route. -/
def backlog (net : Network) : List Inbound := net.routes.flatMap Route.queue

def queued (net : Network) : Nat := net.backlog.length

def joins (net : Network) : Nat := net.backlog.countP Inbound.isJoin

theorem Tidy.perm_backlog_receive (h : net.Tidy)
    (hreceive : net.receive id = (.envelope inbound, rest)) :
    net.backlog.Perm (inbound :: rest.backlog) := by
  have hroutes := h.routes_receive id
  rw [hreceive] at hroutes
  have hqueue : ∃ r ∈ net.routes, r.id = id ∧ ∃ queue, r.queue = inbound :: queue := by
    unfold Network.receive at hreceive
    split at hreceive
    next => cases hreceive
    next r hr =>
      split at hreceive
      next => cases hreceive
      next queue hqueue =>
        cases hreceive
        exact ⟨r, List.mem_of_find?_eq_some hr, by simpa using List.find?_some hr, queue, hqueue⟩
  obtain ⟨r, hr, hid, queue, hqueue⟩ := hqueue
  unfold backlog
  rw [hroutes]
  exact Route.perm_queues_pop h.ids hr hid hqueue

theorem Tidy.queued_receive (h : net.Tidy)
    (hreceive : net.receive id = (.envelope inbound, rest)) : net.queued = rest.queued + 1 :=
  (h.perm_backlog_receive hreceive).length_eq

theorem Tidy.joins_receive (h : net.Tidy)
    (hreceive : net.receive id = (.envelope inbound, rest)) :
    net.joins = rest.joins + if inbound.isJoin then 1 else 0 := by
  unfold joins
  rw [(h.perm_backlog_receive hreceive).countP_eq, List.countP_cons]

theorem Tidy.routeCount_receive (h : net.Tidy) (id : Nat) :
    (net.receive id).2.routeCount = net.routeCount := by
  rw [routeCount, h.routes_receive, List.length_map, routeCount]

theorem routeCount_send (net : Network) (sender : MemberId) (group : String) (target : Target)
    (bytes : ByteArray) :
    (net.send sender group target bytes).2.routeCount = net.routeCount := by
  rw [routeCount, routes_send, List.length_map, routeCount]

theorem perm_backlog_send (net : Network) (sender : MemberId) (group : String) (target : Target)
    (bytes : ByteArray) :
    (net.send sender group target bytes).2.backlog.Perm
      (net.backlog ++
        net.routes.flatMap fun r =>
          net.arrivals sender group target bytes (r.group, r.member)) := by
  unfold backlog
  rw [routes_send, List.flatMap_map]
  exact (List.flatMap_append_perm net.routes Route.queue _).symm

theorem length_arrivals_le (target : Target) (bytes : ByteArray) (address : String × MemberId) :
    (net.arrivals sender group target bytes address).length ≤ 1 := by
  unfold arrivals
  split
  next => exact Nat.le_refl _
  next => exact Nat.zero_le _

theorem arrivals_everyone_self (bytes : ByteArray) :
    net.arrivals sender group .everyone bytes (group, sender) = [] := by
  unfold arrivals
  rw [if_neg]
  rintro ⟨-, -, -, ⟨-, hne⟩ | hother⟩
  · exact hne rfl
  · cases hother

/-- A broadcast of a member that has a route reaches fewer routes than there are. -/
theorem length_broadcast_lt (haddress : net.address? id = some (group, sender))
    (bytes : ByteArray) :
    (net.routes.flatMap fun r =>
        net.arrivals sender group .everyone bytes (r.group, r.member)).length <
      net.routeCount := by
  obtain ⟨r, hr, he⟩ := route?_of_address? haddress
  refine Route.length_flatMap_lt (fun r => length_arrivals_le _ _ _)
    (List.mem_of_find?_eq_some hr) ?_
  rw [he]
  exact arrivals_everyone_self bytes

/-- An announce to everyone is no new join, and does not reach the member's own route. -/
theorem announced_send {bytes : ByteArray} (haddress : net.address? id = some (group, sender))
    (hannounce : (Envelope.announce sender).encode = .ok bytes) :
    (net.send sender group .everyone bytes).2.joins = net.joins ∧
      ∃ added < net.routeCount,
        (net.send sender group .everyone bytes).2.queued = net.queued + added := by
  have hperm := perm_backlog_send net sender group .everyone bytes
  have hfew := length_broadcast_lt haddress bytes
  have hnone : (net.routes.flatMap fun r =>
      net.arrivals sender group .everyone bytes (r.group, r.member)).countP Inbound.isJoin =
        0 := by
    rw [List.countP_eq_zero]
    intro inbound hmem
    obtain ⟨r, -, harrives⟩ := List.mem_flatMap.mp hmem
    have hdecode := Envelope.decode_of_encode hannounce
    rw [mem_arrivals harrives]
    simp only [Inbound.isJoin, hdecode, Bool.false_eq_true, not_false_eq_true]
  refine ⟨?_, _, hfew, ?_⟩
  · rw [joins, hperm.countP_eq, List.countP_append, hnone]
    rfl
  · rw [queued, hperm.length_eq, List.length_append]
    rfl

end Network

namespace Station

variable {s s' : Station} {net left : Network} {said : List Sending}

theorem Published.tidy (h : s.Published net left said) (htidy : net.Tidy) : left.Tidy := by
  cases h with
  | nothing => exact htidy
  | signal _ _ => exact htidy.send _ _
  | message _ _ => exact htidy.send _ _

theorem Acts.tidy (h : s.Acts net s' left said) (htidy : net.Tidy) : left.Tidy := by
  cases h with
  | publish hleft => exact hleft.tidy htidy
  | consume _ _ => exact htidy
  | @take inbound rest _ _ hreceive hleft =>
    have hrest := htidy.receive s.bridge.subscription
    rw [hreceive] at hrest
    exact hleft.tidy hrest
  | close => exact htidy.release _

end Station

namespace Gathering

variable {w w' : Gathering} {id : Nat}

/-- Bridges and network fit together. What waits anywhere can be anything. -/
structure Sound (w : Gathering) : Prop where
  attached : w.Attached
  tidy : w.network.Tidy

theorem Sound.step (h : w.Sound) (move : Move) : (w.step move).Sound := by
  refine ⟨h.attached.step (steps_step h.attached move), ?_⟩
  cases move with
  | connect m g =>
    have hconnect := (Bridge.confined_connect h.tidy g m).tidy
    simp only [Gathering.step]
    split
    next hc =>
      rw [hc] at hconnect
      exact hconnect
    next hc =>
      rw [hc] at hconnect
      exact hconnect
  | act subscription deed =>
    simp only [Gathering.step]
    cases hs : w.station? subscription with
    | none => exact h.tidy
    | some s =>
      have hmem : s ∈ w.stations := List.mem_of_find?_eq_some hs
      exact (Station.acts_of_act (h.attached.stations s hmem) rfl).tidy h.tidy
  | setOffline m offline => exact h.tidy.setOffline offline
  | subscribe m group => exact h.tidy.subscribe
  | receive subscription =>
    simp only [Gathering.step]
    split
    next => exact h.tidy
    next => exact h.tidy.receive subscription
  | release subscription =>
    simp only [Gathering.step]
    split
    next => exact h.tidy
    next => exact h.tidy.release subscription
  | post m group target bytes => exact h.tidy.send target bytes

theorem sound_empty : empty.Sound :=
  ⟨attached_empty, ⟨nofun, List.nodup_nil, List.nodup_nil⟩⟩

theorem sound_run (moves : List Move) : (run moves).Sound := by
  induction moves using List.reverseRecOn with
  | nil => exact sound_empty
  | append_singleton moves move ih =>
    rw [run_append_singleton]
    exact ih.step move

/-- The bridge of a subscription takes the next envelope that waits for it. -/
def Handles (w : Gathering) (id : Nat) (w' : Gathering) : Prop :=
  w' = w.step (.act id .dispatch) ∧
    ∃ s, w.station? id = some s ∧ s.bridge.isOpen = true ∧ w.network.pending id ≠ []

/-- All that the handling of one envelope does to the network: an accepted join is answered by one
broadcast, and nothing else is answered. -/
inductive Handled (s : Station) (inbound : Inbound) (rest : Network) : Network → Prop
  | answered {sender : MemberId} (hears : s.bridge.group.Hears inbound (.join sender)) :
      Handled s inbound rest
        (rest.send s.bridge.group.localMember s.bridge.group.id .everyone s.bridge.announce).2
  | unanswered (deaf : ∀ sender, ¬ s.bridge.group.Hears inbound (.join sender)) :
      Handled s inbound rest rest

theorem Sound.handled_of_handles (h : w.Sound) (hw : w.Handles id w') :
    ∃ s inbound rest, w.station? id = some s ∧ s ∈ w.stations ∧ s.bridge.isOpen = true ∧
      w.network.receive id = (.envelope inbound, rest) ∧ Handled s inbound rest w'.network := by
  obtain ⟨rfl, s, hs, hopen, hpending⟩ := hw
  have hmem : s ∈ w.stations := List.mem_of_find?_eq_some hs
  have hid : s.bridge.subscription = id := by simpa using List.find?_some hs
  have haddress := (h.attached.stations s hmem).address hopen
  rw [hid] at haddress
  rcases Network.receive_of_address? haddress with ⟨hnone, -⟩ | ⟨inbound, rest, hreceive, -, -⟩
  · exact absurd hnone hpending
  refine ⟨s, inbound, rest, hs, hmem, hopen, hreceive, ?_⟩
  have hnetwork : (w.step (.act id .dispatch)).network =
      (s.bridge.dispatch s.transport inbound rest).2.2 := by
    have hreceive' : s.transport.receive s.bridge.subscription w.network =
        (.envelope inbound, rest) := by
      rw [hid]
      exact hreceive
    simp only [Gathering.step, hs, Station.act, Bridge.step, hopen, if_true, hreceive']
  rw [hnetwork]
  have hdispatches := Bridge.dispatches s.bridge s.transport inbound rest
  generalize (s.bridge.dispatch s.transport inbound rest).2.1 = b at hdispatches
  generalize hleft : (s.bridge.dispatch s.transport inbound rest).2.2 = left at hdispatches
  cases hdispatches with
  | discard deaf => exact .unanswered fun _ => deaf _
  | message m deaf => exact .unanswered fun _ => deaf _
  | join hears => exact .answered hears
  | announce hears =>
    refine .unanswered fun sender hjoin => ?_
    cases hears.unique hjoin

/-- The step of the count: what is added is paid for by the join that is gone. -/
theorem Sound.count_of_handles (h : w.Sound) (hw : w.Handles id w') :
    w'.network.routeCount = w.network.routeCount ∧
      ∃ added, w'.network.queued + 1 = w.network.queued + added ∧
        added + w'.network.joins * (w.network.routeCount - 1) ≤
          w.network.joins * (w.network.routeCount - 1) := by
  obtain ⟨s, inbound, rest, hs, hmem, hopen, hreceive, hhandled⟩ := h.handled_of_handles hw
  have hattached := h.attached.stations s hmem
  have hqueued := h.tidy.queued_receive hreceive
  have hjoins := h.tidy.joins_receive hreceive
  have hcount : rest.routeCount = w.network.routeCount := by
    rw [← h.tidy.routeCount_receive id, hreceive]
  have haddress : rest.address? s.bridge.subscription =
      some (s.bridge.group.id, s.bridge.group.localMember) := by
    rw [← hattached.address hopen, ← Network.address?_receive w.network _ id, hreceive]
  generalize w'.network = left at hhandled ⊢
  cases hhandled with
  | answered hears =>
    -- The answer is no join itself, so what it adds can be added once only.
    rw [hears.isJoin, if_pos rfl] at hjoins
    obtain ⟨hsame, added, hfew, hsent⟩ :=
      Network.announced_send haddress hattached.announce_eq
    refine ⟨(Network.routeCount_send _ _ _ _ _).trans hcount, added, by omega, ?_⟩
    rw [hsame, hjoins, Nat.add_mul, Nat.one_mul]
    omega
  | unanswered deaf =>
    refine ⟨hcount, 0, by omega, ?_⟩
    have hle : rest.joins ≤ w.network.joins := by omega
    have hmul := Nat.mul_le_mul_right (w.network.routeCount - 1) hle
    omega

theorem Sound.handles (h : w.Sound) (hw : w.Handles id w') : w'.Sound := by
  rw [hw.1]
  exact h.step _

/-- The bridges of some subscriptions take what waits for them, one after the other. -/
inductive HandlesAll : Gathering → List Nat → Gathering → Prop
  | nil (w : Gathering) : HandlesAll w [] w
  | cons {w next last : Gathering} {id : Nat} {order : List Nat} (hfirst : w.Handles id next)
      (hrest : HandlesAll next order last) : HandlesAll w (id :: order) last

/-- Nothing waits for a bridge that is open. -/
def Drained (w : Gathering) : Prop :=
  ∀ id s, w.station? id = some s → s.bridge.isOpen = true → w.network.pending id = []

theorem Sound.count_of_handlesAll {order : List Nat} (h : w.Sound)
    (hall : w.HandlesAll order w') :
    w'.network.routeCount = w.network.routeCount ∧
      ∃ added, order.length + w'.network.queued = w.network.queued + added ∧
        added + w'.network.joins * (w.network.routeCount - 1) ≤
          w.network.joins * (w.network.routeCount - 1) := by
  induction hall with
  | nil w => exact ⟨rfl, 0, by simp, by simp⟩
  | @cons w next last id order hfirst _ ih =>
    obtain ⟨hcount, added, hqueued, hpaid⟩ := h.count_of_handles hfirst
    obtain ⟨hcount', added', hqueued', hpaid'⟩ := ih (h.handles hfirst)
    rw [hcount] at hcount' hpaid'
    refine ⟨hcount', added + added', ?_, ?_⟩
    · rw [List.length_cons]
      omega
    · omega

/-- What waits, and what its joins can still add. -/
def potential (w : Gathering) : Nat :=
  w.network.queued + w.network.joins * (w.network.routeCount - 1)

theorem Sound.potential_lt (h : w.Sound) (hw : w.Handles id w') : w'.potential < w.potential := by
  obtain ⟨hcount, added, hqueued, hpaid⟩ := h.count_of_handles hw
  unfold potential
  rw [hcount]
  omega

theorem Sound.acc (h : w.Sound) :
    Acc (fun after before : Gathering => ∃ id, before.Handles id after) w := by
  generalize hn : w.potential = n
  induction n using Nat.strong_induction_on generalizing w with
  | h n ih =>
    refine Acc.intro w ?_
    rintro w' ⟨id, hw⟩
    have hlt := h.potential_lt hw
    exact ih w'.potential (by omega) (h.handles hw) rfl

theorem Sound.exists_drained (h : w.Sound) :
    ∃ order w', w.HandlesAll order w' ∧ w'.Drained := by
  induction h.acc with
  | intro w _ ih =>
    by_cases hdrained : w.Drained
    · exact ⟨[], w, .nil w, hdrained⟩
    · unfold Drained at hdrained
      push Not at hdrained
      obtain ⟨id, s, hs, hopen, hpending⟩ := hdrained
      have hw : w.Handles id (w.step (.act id .dispatch)) := ⟨rfl, s, hs, hopen, hpending⟩
      obtain ⟨order, w', hall, hempty⟩ := ih _ ⟨id, hw⟩ (h.handles hw)
      exact ⟨id :: order, w', .cons hw hall, hempty⟩

/-- Traffic dies out, whatever waits where and in whatever order it is handled: only an accepted
join is answered, by an announce to everyone, so that no more is added than the joins that wait
times the other routes; and at last nothing waits for any bridge. -/
theorem traffic_dies_out :
    (∀ moves, (run moves).Sound) ∧
      ∀ w : Gathering, w.Sound →
        (∀ id w', w.Handles id w' → ∃ s inbound rest, w.station? id = some s ∧
          Envelope.decode s.bridge.announce = .ok (.announce s.bridge.group.localMember) ∧
          w.network.receive id = (.envelope inbound, rest) ∧
          Handled s inbound rest w'.network) ∧
        (∀ order w', w.HandlesAll order w' →
          ∃ added ≤ w.network.joins * (w.network.routeCount - 1),
            order.length + w'.network.queued = w.network.queued + added) ∧
        Acc (fun after before : Gathering => ∃ id, before.Handles id after) w ∧
        ∃ order w', w.HandlesAll order w' ∧ w'.Drained := by
  refine ⟨sound_run, fun w h => ⟨?_, ?_, h.acc, h.exists_drained⟩⟩
  · intro id w' hw
    obtain ⟨s, inbound, rest, hs, hmem, -, hreceive, hhandled⟩ := h.handled_of_handles hw
    have hannounce := (h.attached.stations s hmem).announce_eq
    exact ⟨s, inbound, rest, hs, Envelope.decode_of_encode hannounce, hreceive, hhandled⟩
  · intro order w' hall
    obtain ⟨-, added, hqueued, hpaid⟩ := h.count_of_handlesAll hall
    exact ⟨added, by omega, hqueued⟩

def circle (m : MemberId) (h : m ∈ [Screening.a, Screening.b, Screening.c]) : Group :=
  ⟨"g", m, [Screening.a, Screening.b, Screening.c], 1, by decide, by decide, by decide, h⟩

/-- Three members, of whom the first has asked for announces. -/
def joinOfFirst : List Move :=
  [.connect Screening.a (circle Screening.a (by decide)),
    .connect Screening.b (circle Screening.b (by decide)),
    .connect Screening.c (circle Screening.c (by decide)), .act 0 .join]

theorem view_joinOfFirst :
    ((run joinOfFirst).network.queued, (run joinOfFirst).network.joins,
      (run joinOfFirst).network.routeCount) = (2, 2, 3) := by
  decide +kernel

/-- Two joins wait, and each can be answered to two routes. -/
theorem drained_joinOfFirst :
    ∃ order w', (run joinOfFirst).HandlesAll order w' ∧ w'.Drained ∧
      order.length + w'.network.queued ≤ 2 + 4 := by
  obtain ⟨hsound, hdies⟩ := traffic_dies_out
  obtain ⟨-, hadded, -, order, w', hall, hdrained⟩ := hdies (run joinOfFirst) (hsound joinOfFirst)
  obtain ⟨added, hfew, hcount⟩ := hadded order w' hall
  have hview := view_joinOfFirst
  simp only [Prod.mk.injEq] at hview
  obtain ⟨hqueued, hjoins, hroutes⟩ := hview
  rw [hjoins, hroutes] at hfew
  exact ⟨order, w', hall, hdrained, by omega⟩

/-- As many envelopes are added there as can be. -/
example :
    (run (joinOfFirst ++ [.act 1 .dispatch, .act 2 .dispatch])).network.queued = 4 := by
  decide +kernel

end Gathering

end ThresholdSigning
