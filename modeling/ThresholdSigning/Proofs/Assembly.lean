import ThresholdSigning.Proofs.Effect
import ThresholdSigning.Proofs.History

namespace ThresholdSigning

variable {σ α : Type}

/-- An execution on a network. Its dispatcher may be in the middle of an answer, which it owes, and
all signals that it has ever accepted are remembered. -/
structure Seat (σ α : Type) where
  execution : Execution σ α
  subscription : Nat
  owed : List Draft
  accepted : List Signal

namespace Seat

inductive Act
  /-- The dispatcher handles what comes in next, up to the answer. -/
  | take
  | answer
  | join (now : Nat)
  | round (now : Nat) (move : Rounds.Move)
  | tick (now : Nat)
deriving DecidableEq

def group (s : Seat σ α) : Group := s.execution.plan.group

def transport (s : Seat σ α) : Transport Recorded := Recorded.transport s.group.localMember

/-- An act that is impossible changes nothing. -/
def act (p : Party σ α) (s : Seat σ α) (r : Recorded) : Act → Seat σ α × Recorded
  | .take =>
    if s.owed = [] then
      match s.execution.dispatch s.transport.drafting (r, []) with
      | none => (s, r)
      | some (_, x, left, owed) =>
        ({ s with
            execution := x
            owed := owed
            accepted := s.accepted ++ x.signals.drop s.execution.signals.length }, left)
    else (s, r)
  | .answer =>
    match s.owed with
    | [] => (s, r)
    | d :: owed => ({ s with owed := owed }, s.transport.post d r)
  | .join now =>
    match s.execution.join s.transport now r with
    | none => (s, r)
    | some (_, x, left) => ({ s with execution := x }, left)
  | .round now move =>
    match s.execution.round p s.transport now move r with
    | none => (s, r)
    | some (_, x, left) => ({ s with execution := x }, left)
  | .tick now => ({ s with execution := s.execution.tick now }, r)

/-- What an open bridge is to its seat. -/
structure Holds (s : Seat σ α) (b : Bridge) : Prop where
  group : b.group = s.group
  subscription : b.subscription = s.subscription
  isOpen : b.isOpen = true
  announce : (Envelope.announce s.group.localMember).encode = .ok b.announce

structure Attached (s : Seat σ α) (net : Network) : Prop where
  subscription_lt : s.subscription < net.nextId
  owed : ∀ d ∈ s.owed, d.group = s.group.id ∧ d.target = .everyone ∧
    (Envelope.announce s.group.localMember).encode = .ok d.bytes
  bridge : ∀ b, s.execution.bridge? = some b → s.Holds b
  address : ∀ b, s.execution.bridge? = some b →
    net.address? s.subscription = some (s.group.id, s.group.localMember)

inductive Acts (p : Party σ α) (s : Seat σ α) (r : Recorded) : Act → Seat σ α → Recorded → Prop
  | idle {act : Act} : s.Acts p r act s r
  | take {b b' : Bridge} {inbound : Inbound} {left : Recorded} {owed : List Draft}
      (howed : s.owed = []) (hbridge : s.execution.bridge? = some b)
      (hreceive : r.receive s.subscription = (.envelope inbound, left))
      (hdispatches : b.Dispatches s.transport.drafting inbound (left, []) b' (left, owed)) :
      s.Acts p r .take
        { s with
          execution := s.execution.setBridge b'
          owed := owed
          accepted := s.accepted ++ b'.signals.drop b.signals.length }
        left
  | answer {d : Draft} {owed : List Draft} (howed : s.owed = d :: owed) :
      s.Acts p r .answer { s with owed := owed }
        (r.send s.group.localMember d.group d.target d.bytes).2
  | join {now : Nat} {events : List Event} {x : Execution σ α} {left : Recorded}
      (hjoins : s.execution.Joins s.transport now r events x left) :
      s.Acts p r (.join now) { s with execution := x } left
  | round {now : Nat} {move : Rounds.Move} {events : List Event} {x : Execution σ α}
      {left : Recorded} (hturns : s.execution.Turns p s.transport now r events x left) :
      s.Acts p r (.round now move) { s with execution := x } left
  | tick (now : Nat) : s.Acts p r (.tick now) { s with execution := s.execution.tick now } r

variable {p : Party σ α} {s s' : Seat σ α} {r left : Recorded} {act : Act} {net : Network}

theorem Attached.receive {b : Bridge} (h : s.Attached r.network)
    (hbridge : s.execution.bridge? = some b) :
    r.receive b.subscription = (.nothing, r) ∨
      ∃ inbound left, r.receive b.subscription = (.envelope inbound, left) := by
  rw [(h.bridge b hbridge).subscription]
  rcases Network.receive_of_address? (h.address b hbridge) with ⟨-, hr⟩ | ⟨inbound, left, hr, -, -⟩
  · refine Or.inl ?_
    rw [Recorded.receive, hr]
  · refine Or.inr ⟨inbound, { r with network := left }, ?_⟩
    rw [Recorded.receive, hr]

theorem Attached.pending_of_receive {inbound : Inbound} (h : s.Attached r.network)
    (hconnected : s.execution.bridge?.isSome = true)
    (hreceive : r.receive s.subscription = (.envelope inbound, left)) :
    r.network.pending s.subscription = inbound :: left.network.pending s.subscription := by
  obtain ⟨b, hb⟩ := Option.isSome_iff_exists.mp hconnected
  exact Network.pending_of_receive (h.address b hb) (Recorded.network_receive hreceive)

theorem Attached.acts (hattached : s.Attached r.network) (act : Act) :
    s.Acts p r act (s.act p r act).1 (s.act p r act).2 := by
  cases act with
  | take =>
    simp only [Seat.act]
    split
    next howed =>
      rw [Execution.dispatch_eq]
      cases hbridge : s.execution.bridge? with
      | none => exact .idle
      | some b =>
        have hopen := (hattached.bridge b hbridge).isOpen
        rcases hattached.receive hbridge with hr | ⟨inbound, mid, hr⟩
        · have hr' : s.transport.drafting.receive b.subscription (r, []) = (.nothing, r, []) := by
            have hreceive : s.transport.receive b.subscription r = (.nothing, r) := hr
            simp only [Transport.drafting, hreceive]
          rw [Option.bind_some, Bridge.step_of_nothing hopen hr']
          exact .idle
        · have hr' : s.transport.drafting.receive b.subscription (r, []) =
              (.envelope inbound, mid, []) := by
            have hreceive : s.transport.receive b.subscription r = (.envelope inbound, mid) := hr
            simp only [Transport.drafting, hreceive]
          have hdispatches := b.dispatches s.transport.drafting inbound (mid, [])
          obtain ⟨drafts, hdraft, -, -⟩ := b.dispatch_drafting s.transport inbound mid
          rw [Option.bind_some, Bridge.step_of_envelope hopen hr']
          rw [hdraft] at hdispatches ⊢
          rw [(hattached.bridge b hbridge).subscription] at hr
          simp only [Option.map_some, Execution.signals_of_bridge? hbridge,
            Execution.signals_of_bridge? (Execution.bridge?_setBridge hbridge _)]
          exact .take howed hbridge hr hdispatches
    next => exact .idle
  | answer =>
    simp only [Seat.act]
    split
    next => exact .idle
    next d owed howed => exact .answer howed
  | join now =>
    simp only [Seat.act]
    split
    next => exact .idle
    next hjoin => exact .join (Execution.joins_of_join hjoin)
  | round now move =>
    simp only [Seat.act]
    split
    next => exact .idle
    next hround => exact .round (Execution.turns_of_round hround)
  | tick now => exact .tick now

theorem Acts.kept (h : s.Acts p r act s' left) :
    s'.group = s.group ∧ s'.subscription = s.subscription := by
  have hgroup {x : Execution σ α} (hplan : x.plan = s.execution.plan) :
      x.plan.group = s.execution.plan.group := by rw [hplan]
  cases h with
  | idle => exact ⟨rfl, rfl⟩
  | take _ _ _ _ => exact ⟨hgroup (Execution.plan_setBridge _ _), rfl⟩
  | answer _ => exact ⟨rfl, rfl⟩
  | join hjoins => exact ⟨hgroup hjoins.plan_eq, rfl⟩
  | round hturns => exact ⟨hgroup hturns.plan_eq, rfl⟩
  | tick _ => exact ⟨rfl, rfl⟩

/-- What a seat does to its network: traffic, and at the end the release of its subscription. -/
inductive Leaves (s s' : Seat σ α) (r : Recorded) : Recorded → Prop
  | traffic {left : Recorded} (h : r.Traffic s.group.localMember s.group.id s.subscription left) :
      s.Leaves s' r left
  | release {left : Recorded} (h : r.Traffic s.group.localMember s.group.id s.subscription left)
      (hbridge : s'.execution.bridge? = none) : s.Leaves s' r (left.release s.subscription)

theorem traffic_of_sends {group : String} (h : s.transport.Sends group r left) (own : Nat) :
    r.Traffic s.group.localMember group own left := by
  cases h with
  | nothing => exact .refl
  | one target bytes => exact .send .refl target bytes

theorem Attached.leaves_of_effect {x : Execution σ α} (h : s.Attached r.network)
    (heffect : s.execution.Effect s.transport r x left) :
    s.Leaves { s with execution := x } r left := by
  cases heffect with
  | @live b b' _ _ hbridge _ _ hsends =>
    have hgroup := (h.bridge b hbridge).group
    rw [hgroup] at hsends
    exact .traffic (traffic_of_sends hsends _)
  | @ends b b' _ mid hbridge hbridge' hspent hsends =>
    obtain ⟨hgroup, hsubscription, hopen, -⟩ := h.bridge b hbridge
    rw [hgroup] at hsends
    have hclose : (b'.close s.transport mid).2 = mid.release s.subscription := by
      simp only [Bridge.close, hspent.isOpen, hopen, if_true, hspent.subscription, hsubscription]
      rfl
    rw [hclose]
    exact .release (traffic_of_sends hsends _) hbridge'
  | ended _ _ => exact .traffic .refl

theorem Attached.leaves (h : s.Attached r.network) (hacts : s.Acts p r act s' left) :
    s.Leaves s' r left := by
  cases hacts with
  | idle => exact .traffic .refl
  | take _ _ hreceive _ =>
    have htraffic : r.Traffic s.group.localMember s.group.id s.subscription
        (r.receive s.subscription).2 := .receive .refl
    rw [hreceive] at htraffic
    exact .traffic htraffic
  | @answer d owed howed =>
    obtain ⟨hgroup, -, -⟩ := h.owed d (by rw [howed]; exact List.mem_cons_self)
    rw [hgroup]
    exact .traffic (.send .refl _ _)
  | join hjoins => exact h.leaves_of_effect hjoins.effect
  | round hturns => exact h.leaves_of_effect hturns.effect
  | tick _ => exact .traffic .refl

theorem Leaves.advances (h : s.Leaves s' r left) : r.network.Advances left.network := by
  cases h with
  | traffic h => exact h.advances
  | release h _ => exact h.advances.trans Network.advances_release

theorem Leaves.log (h : s.Leaves s' r left) : r.log <+: left.log := by
  cases h with
  | traffic h => exact h.log
  | release h _ => exact h.log

theorem Leaves.traced (h : s.Leaves s' r left) (htraced : r.Traced) : left.Traced := by
  cases h with
  | traffic h => exact h.traced htraced
  | release h _ =>
    exact (h.traced htraced).of_mem List.prefix_rfl fun id inbound =>
      Network.mem_pending_of_release _ _ _

theorem Leaves.address? (h : s.Leaves s' r left) {id : Nat}
    (hkept : id ≠ s.subscription ∨ s'.execution.bridge? ≠ none) :
    left.network.address? id = r.network.address? id := by
  cases h with
  | traffic h => exact h.address? id
  | release h hbridge =>
    have hother := hkept.resolve_right (not_not.mpr hbridge)
    exact (Network.address?_release_other hother).trans (h.address? id)

theorem Attached.holds (h : s.Attached r.network) (hacts : s.Acts p r act s' left) {b' : Bridge}
    (hbridge' : s'.execution.bridge? = some b') : s'.Holds b' ∧ s.execution.bridge?.isSome := by
  obtain ⟨hgroup', hsubscription'⟩ := hacts.kept
  have hholds {b : Bridge} (hbridge : s.execution.bridge? = some b)
      (hkept : b'.group = b.group ∧ b'.subscription = b.subscription ∧
        b'.announce = b.announce ∧ b'.isOpen = b.isOpen) :
      s'.Holds b' ∧ s.execution.bridge?.isSome := by
    obtain ⟨hgroup, hsubscription, hopen, hannounce⟩ := h.bridge b hbridge
    obtain ⟨hg, hn, ha, ho⟩ := hkept
    refine ⟨⟨?_, ?_, ho.trans hopen, ?_⟩, by rw [hbridge]; rfl⟩
    · rw [hg, hgroup, hgroup']
    · rw [hn, hsubscription, hsubscription']
    · rw [ha, hgroup']
      exact hannounce
  have heffect {x : Execution σ α} {left : Recorded} (hx : x.bridge? = some b')
      (he : s.execution.Effect s.transport r x left) :
      s'.Holds b' ∧ s.execution.bridge?.isSome := by
    cases he with
    | live hbridge hb hspent _ =>
      cases hx.symm.trans hb
      exact hholds hbridge ⟨hspent.group, hspent.subscription, hspent.announce, hspent.isOpen⟩
    | ends _ hb _ _ => cases hx.symm.trans hb
    | ended _ hb => cases hx.symm.trans hb
  cases hacts with
  | idle => exact hholds hbridge' ⟨rfl, rfl, rfl, rfl⟩
  | take _ hbridge _ hdispatches =>
    cases hbridge'.symm.trans (Execution.bridge?_setBridge hbridge _)
    exact hholds hbridge hdispatches.kept
  | answer _ => exact hholds hbridge' ⟨rfl, rfl, rfl, rfl⟩
  | join hjoins => exact heffect hbridge' hjoins.effect
  | round hturns => exact heffect hbridge' hturns.effect
  | tick _ => exact hholds hbridge' ⟨rfl, rfl, rfl, rfl⟩

theorem Attached.owed_of_acts (h : s.Attached r.network) (hacts : s.Acts p r act s' left) :
    ∀ d ∈ s'.owed, d.group = s'.group.id ∧ d.target = .everyone ∧
      (Envelope.announce s'.group.localMember).encode = .ok d.bytes := by
  rw [hacts.kept.1]
  intro d hd
  cases hacts with
  | @take b b' inbound mid owed _ hbridge _ hdispatches =>
    obtain ⟨hgroup, -, -, hannounce⟩ := h.bridge b hbridge
    rcases hdispatches.drafts.2 with ⟨-, rfl⟩ | ⟨-, rfl⟩
    · cases List.mem_singleton.mp hd
      rw [hgroup]
      exact ⟨rfl, rfl, hannounce⟩
    · cases hd
  | @answer d' owed howed => exact h.owed d (by rw [howed]; exact List.mem_cons_of_mem _ hd)
  | idle => exact h.owed d hd
  | join _ => exact h.owed d hd
  | round _ => exact h.owed d hd
  | tick _ => exact h.owed d hd

theorem Attached.of_acts (h : s.Attached r.network) (hacts : s.Acts p r act s' left) :
    s'.Attached left.network := by
  have hleaves := h.leaves hacts
  obtain ⟨hgroup, hsubscription⟩ := hacts.kept
  refine ⟨?_, h.owed_of_acts hacts, fun b' hb' => (h.holds hacts hb').1, ?_⟩
  · rw [hsubscription]
    exact Nat.lt_of_lt_of_le h.subscription_lt hleaves.advances.nextId_le
  · intro b' hb'
    obtain ⟨b, hb⟩ := Option.isSome_iff_exists.mp (h.holds hacts hb').2
    rw [hsubscription, hgroup, hleaves.address? (Or.inr (by rw [hb']; nofun))]
    exact h.address b hb

theorem Attached.of_address? {net left : Network} (h : s.Attached net)
    (hadvances : net.Advances left)
    (haddress : s.execution.bridge?.isSome = true →
      left.address? s.subscription = net.address? s.subscription) : s.Attached left where
  subscription_lt := Nat.lt_of_lt_of_le h.subscription_lt hadvances.nextId_le
  owed := h.owed
  bridge := h.bridge
  address := fun b hb => (haddress (by rw [hb]; rfl)).trans (h.address b hb)

end Seat

structure Assembly (σ α : Type) where
  net : Recorded
  seats : List (Seat σ α)

namespace Assembly

/-- What can happen next. The subscription of an execution is used by that execution alone; all
else can be done by anyone, with any bytes. -/
inductive Move (σ : Type)
  | connect (m : MemberId) (plan : Plan) (deadline : Deadline) (party : σ) (now : Nat)
  | act (subscription : Nat) (act : Seat.Act)
  /-- An execution is dropped. -/
  | abandon (subscription : Nat)
  | setOffline (m : MemberId) (offline : Bool)
  | subscribe (m : MemberId) (group : String)
  | receive (subscription : Nat)
  | release (subscription : Nat)
  | post (m : MemberId) (group : String) (target : Target) (bytes : ByteArray)

def empty : Assembly σ α := ⟨.empty, []⟩

def seat? (w : Assembly σ α) (subscription : Nat) : Option (Seat σ α) :=
  w.seats.find? (·.subscription = subscription)

def step (p : Party σ α) (w : Assembly σ α) : Move σ → Assembly σ α
  | .connect m plan deadline party now =>
    let (x, left) := Execution.connect plan deadline (Recorded.transport m) party now w.net
    match x.bridge? with
    | none => { w with net := left }
    | some b => { net := left, seats := w.seats ++ [⟨x, b.subscription, [], []⟩] }
  | .act subscription act =>
    match w.seat? subscription with
    | none => w
    | some s =>
      let (s, left) := s.act p w.net act
      { net := left
        seats := w.seats.map fun x => if x.subscription = subscription then s else x }
  | .abandon subscription =>
    if (w.seat? subscription).isSome then
      { net := w.net.release subscription
        seats := w.seats.filter (·.subscription ≠ subscription) }
    else w
  | .setOffline m offline =>
    { w with net := { w.net with network := w.net.network.setOffline m offline } }
  | .subscribe m group => { w with net := (w.net.subscribe m group).2 }
  | .receive subscription =>
    if (w.seat? subscription).isSome then w
    else { w with net := (w.net.receive subscription).2 }
  | .release subscription =>
    if (w.seat? subscription).isSome then w
    else { w with net := w.net.release subscription }
  | .post m group target bytes => { w with net := (w.net.send m group target bytes).2 }

def run (p : Party σ α) (moves : List (Move σ)) : Assembly σ α := moves.foldl (step p) empty

structure Attached (w : Assembly σ α) : Prop where
  numbered : w.net.network.Numbered
  seats : ∀ s ∈ w.seats, s.Attached w.net.network

/-- A change of the network that no execution notices, and by which nothing is published. -/
structure Quiet (w : Assembly σ α) (left : Recorded) : Prop where
  advances : w.net.network.Advances left.network
  log : w.net.log <+: left.log
  traced : w.net.Traced → left.Traced
  introduced : ∀ m group, w.net.Introduced m group → left.Introduced m group
  address : ∀ s ∈ w.seats, s.execution.bridge?.isSome = true →
    left.network.address? s.subscription = w.net.network.address? s.subscription
  pending : ∀ s ∈ w.seats, s.execution.bridge?.isSome = true →
    left.network.pending s.subscription = w.net.network.pending s.subscription

inductive Steps (p : Party σ α) (w : Assembly σ α) : Move σ → Assembly σ α → Prop
  | quiet {move : Move σ} {left : Recorded} (hquiet : w.Quiet left) :
      w.Steps p move { w with net := left }
  | post (m : MemberId) (group : String) (target : Target) (bytes : ByteArray) :
      w.Steps p (.post m group target bytes)
        { w with net := (w.net.send m group target bytes).2 }
  | connect {m : MemberId} {plan : Plan} {deadline : Deadline} {party : σ} {now : Nat}
      {b : Bridge} {left : Recorded}
      (hconnect : Bridge.connect plan.group (Recorded.transport m) w.net = (.ok b, left))
      (hquiet : w.Quiet left) :
      w.Steps p (.connect m plan deadline party now)
        { net := left
          seats := w.seats ++
            [⟨⟨plan, now, deadline, .joining b (.create plan.joinInterval.millis) party⟩,
              b.subscription, [], []⟩] }
  | act {act : Seat.Act} {s s' : Seat σ α} {left : Recorded} (hs : s ∈ w.seats)
      (hacts : s.Acts p w.net act s' left) :
      w.Steps p (.act s.subscription act)
        { net := left
          seats := w.seats.map fun x => if x.subscription = s.subscription then s' else x }
  | abandon (subscription : Nat) :
      w.Steps p (.abandon subscription)
        { net := w.net.release subscription
          seats := w.seats.filter (·.subscription ≠ subscription) }

variable {p : Party σ α} {w w' : Assembly σ α} {left : Recorded}

theorem quiet_refl (w : Assembly σ α) : w.Quiet w.net :=
  ⟨.refl _, List.prefix_rfl, id, fun _ _ => id, fun _ _ _ => rfl, fun _ _ _ => rfl⟩

theorem Attached.quiet_subscribe (h : w.Attached) (m : MemberId) (group : String) :
    w.Quiet (w.net.subscribe m group).2 := by
  have hnetwork := w.net.network_subscribe m group
  refine ⟨?_, w.net.log_subscribe m group, ?_, ?_, ?_, ?_⟩
  · rw [hnetwork]
    exact Network.advances_subscribe
  · intro htraced
    refine htraced.of_mem (w.net.log_subscribe m group) fun id inbound hmem => ?_
    rw [hnetwork] at hmem
    exact Network.mem_pending_of_subscribe _ _ _ _ hmem
  · intro m' group' hintroduced
    unfold Recorded.subscribe
    split
    next => exact hintroduced
    next => exact hintroduced.append rfl (by rintro post ⟨⟩)
  · intro s hs hbridge
    obtain ⟨b, hb⟩ := Option.isSome_iff_exists.mp hbridge
    have ha := (h.seats s hs).address b hb
    rw [hnetwork, ha, Network.address?_subscribe_of_address? ha]
  · intro s hs hbridge
    obtain ⟨b, hb⟩ := Option.isSome_iff_exists.mp hbridge
    rw [hnetwork]
    exact Network.pending_subscribe_of_address? ((h.seats s hs).address b hb)

theorem quiet_release {subscription : Nat} (hother : ∀ s ∈ w.seats, s.subscription ≠ subscription) :
    w.Quiet (w.net.release subscription) where
  advances := Network.advances_release
  log := List.prefix_rfl
  traced := fun htraced => htraced.of_mem List.prefix_rfl fun _ _ =>
    Network.mem_pending_of_release _ _ _
  introduced := fun _ _ => id
  address := fun s hs _ => Network.address?_release_other (hother s hs)
  pending := fun s hs _ => Network.pending_release_other (hother s hs)

theorem quiet_receive {subscription : Nat} (hother : ∀ s ∈ w.seats, s.subscription ≠ subscription) :
    w.Quiet (w.net.receive subscription).2 where
  advances := Network.advances_receive _ _
  log := List.prefix_rfl
  traced := fun htraced => htraced.of_mem List.prefix_rfl fun _ _ =>
    Network.mem_pending_of_receive _ _ _
  introduced := fun _ _ => id
  address := fun _ _ _ => Network.address?_receive _ _ _
  pending := fun s hs _ => Network.pending_receive_other _ (hother s hs)

theorem Quiet.trans {mid : Recorded} (h : w.Quiet mid)
    (h' : ({ w with net := mid } : Assembly σ α).Quiet left) : w.Quiet left where
  advances := h.advances.trans h'.advances
  log := h.log.trans h'.log
  traced := h'.traced ∘ h.traced
  introduced := fun m group => h'.introduced m group ∘ h.introduced m group
  address := fun s hs hb => (h'.address s hs hb).trans (h.address s hs hb)
  pending := fun s hs hb => (h'.pending s hs hb).trans (h.pending s hs hb)

theorem Attached.quiet_connect (h : w.Attached) (m : MemberId) (g : Group) :
    w.Quiet (Bridge.connect g (Recorded.transport m) w.net).2 := by
  have hsubscribed := h.quiet_subscribe m g.id
  rcases Bridge.connect_state_eq g (Recorded.transport m) w.net with
    hs | hs | ⟨id, left, hsubscribe, hs⟩
  · rw [hs]
    exact quiet_refl w
  · rw [hs]
    exact hsubscribed
  · -- What is released here is new, so that no execution has it.
    have hcall : w.net.subscribe m g.id = (.ok id, left) := hsubscribe
    obtain ⟨hid, -⟩ := Network.subscribe_eq_ok h.numbered (Recorded.subscribe_eq_ok hcall).1
    rw [hcall] at hsubscribed
    rw [hs]
    refine hsubscribed.trans (quiet_release fun s hs => ?_)
    have hlt := (h.seats s hs).subscription_lt
    omega

theorem mem_of_seat? {subscription : Nat} {s : Seat σ α} (h : w.seat? subscription = some s) :
    s ∈ w.seats ∧ s.subscription = subscription :=
  ⟨List.mem_of_find?_eq_some h, by simpa using List.find?_some h⟩

theorem ne_of_seat? {subscription : Nat} (h : ¬ (w.seat? subscription).isSome) :
    ∀ s ∈ w.seats, s.subscription ≠ subscription := by
  unfold seat? at h
  simpa only [List.find?_isSome, decide_eq_true_eq, not_exists, not_and] using h

theorem steps_step (p : Party σ α) (h : w.Attached) (move : Move σ) :
    w.Steps p move (w.step p move) := by
  cases move with
  | connect m plan deadline party now =>
    have hquiet := h.quiet_connect m plan.group
    simp only [step, Execution.connect]
    rcases hc : Bridge.connect plan.group (Recorded.transport m) w.net with ⟨result, left⟩
    rw [hc] at hquiet
    cases result with
    | error e => exact .quiet hquiet
    | ok b => exact .connect hc hquiet
  | act subscription act =>
    simp only [step]
    cases hs : w.seat? subscription with
    | none => exact .quiet (quiet_refl w)
    | some s =>
      obtain ⟨hmem, rfl⟩ := mem_of_seat? hs
      exact .act hmem ((h.seats s hmem).acts act)
  | abandon subscription =>
    simp only [step]
    split
    next => exact .abandon subscription
    next => exact .quiet (quiet_refl w)
  | setOffline m offline =>
    exact .quiet ⟨Network.advances_setOffline offline, List.prefix_rfl, id, fun _ _ => id,
      fun _ _ _ => rfl, fun _ _ _ => rfl⟩
  | subscribe m group => exact .quiet (h.quiet_subscribe m group)
  | receive subscription =>
    simp only [step]
    split
    next => exact .quiet (quiet_refl w)
    next hnone => exact .quiet (quiet_receive (ne_of_seat? hnone))
  | release subscription =>
    simp only [step]
    split
    next => exact .quiet (quiet_refl w)
    next hnone => exact .quiet (quiet_release (ne_of_seat? hnone))
  | post m group target bytes => exact .post m group target bytes

theorem Attached.step {move : Move σ} (h : w.Attached) (hstep : w.Steps p move w') :
    w'.Attached := by
  cases hstep with
  | quiet hquiet =>
    exact ⟨hquiet.advances.numbered h.numbered, fun s hs =>
      (h.seats s hs).of_address? hquiet.advances (hquiet.address s hs)⟩
  | post m group target bytes =>
    have hadvances : w.net.network.Advances (w.net.send m group target bytes).2.network := by
      rw [Recorded.network_send]
      exact Network.advances_send target bytes
    refine ⟨hadvances.numbered h.numbered, fun s hs =>
      (h.seats s hs).of_address? hadvances fun _ => ?_⟩
    rw [Recorded.network_send]
    exact Network.address?_send target bytes
  | @connect m plan deadline party now b left hconnect hquiet =>
    refine ⟨hquiet.advances.numbered h.numbered, ?_⟩
    intro s hs
    rcases List.mem_append.mp hs with hold | hnew
    · exact (h.seats s hold).of_address? hquiet.advances (hquiet.address s hold)
    · obtain ⟨hlocal, hb, hsubscribe, hannounce⟩ := Bridge.connect_eq_ok hconnect
      obtain ⟨hid, hnext, haddress, -⟩ :=
        Network.subscribe_eq_ok h.numbered (Recorded.subscribe_eq_ok hsubscribe).1
      have hm : m = plan.group.localMember := hlocal
      rw [List.mem_singleton.mp hnew]
      refine ⟨?_, by rintro d ⟨⟩, ?_, ?_⟩
      · dsimp only
        omega
      · rintro b' ⟨⟩
        exact ⟨by rw [hb]; rfl, rfl, by rw [hb]; rfl, hannounce⟩
      · intro _ _
        rw [haddress, hm]
        rfl
  | @act act s s' left hs hacts =>
    have hleaves := (h.seats s hs).leaves hacts
    refine ⟨hleaves.advances.numbered h.numbered, ?_⟩
    intro x hx
    obtain ⟨y, hy, rfl⟩ := List.mem_map.mp hx
    dsimp only
    by_cases hsame : y.subscription = s.subscription
    · rw [if_pos hsame]
      exact (h.seats s hs).of_acts hacts
    · rw [if_neg hsame]
      exact (h.seats y hy).of_address? hleaves.advances fun _ =>
        hleaves.address? (Or.inl hsame)
  | abandon subscription =>
    refine ⟨Network.advances_release.numbered h.numbered, ?_⟩
    intro s hs
    obtain ⟨hmem, hother⟩ := List.mem_filter.mp hs
    exact (h.seats s hmem).of_address? Network.advances_release fun _ =>
      Network.address?_release_other (by simpa using hother)

theorem attached_empty : (empty : Assembly σ α).Attached :=
  ⟨(by intro r hr; cases hr), (by intro s hs; cases hs)⟩

theorem run_append_singleton (p : Party σ α) (moves : List (Move σ)) (move : Move σ) :
    run p (moves ++ [move]) = (run p moves).step p move := by
  simp [run, List.foldl_append]

theorem attached_run (p : Party σ α) (moves : List (Move σ)) : (run p moves).Attached := by
  induction moves using List.reverseRecOn with
  | nil => exact attached_empty
  | append_singleton moves move ih =>
    rw [run_append_singleton]
    exact ih.step (steps_step p ih move)

end Assembly

end ThresholdSigning
