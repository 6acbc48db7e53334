import ThresholdSigning.Proofs.Gathering

namespace ThresholdSigning

/-- The round messages of one sender among inbound bytes, as a group's local member sees them. -/
def Group.heard (g : Group) (a : MemberId) (xs : List Inbound) : List ProtocolMessage :=
  (xs.filterMap g.roundMessage?).filter (·.sender = a)

/-- The round message that a sending of `a` is for a group's local member, if it is meant for the
group and for that member, who is not offline. -/
def Sending.message? (x : Sending) (a : MemberId) (g : Group) : Option ProtocolMessage :=
  if x.sender = a ∧ x.group = g.id ∧ g.localMember ∉ x.offline ∧
      (x.target = .everyone ∨ x.target = .only g.localMember) then
    some ⟨a, x.payload, decide (x.target = .everyone)⟩
  else none

/-- What `a` has sent to a bridge since it was connected, in the order in which it was sent. -/
def Station.sentTo (s : Station) (a : MemberId) (sendings : List Sending) : List ProtocolMessage :=
  (sendings.drop s.since).filterMap (·.message? a s.bridge.group)

namespace Group

variable {g : Group} {a sender : MemberId} {net : Network} {group : String} {target : Target}

theorem heard_append (xs ys : List Inbound) :
    g.heard a (xs ++ ys) = g.heard a xs ++ g.heard a ys := by
  simp only [heard, List.filterMap_append, List.filter_append]

theorem heard_eq_nil {xs : List Inbound}
    (h : ∀ x ∈ xs, ∀ m, g.roundMessage? x = some m → m.sender ≠ a) : g.heard a xs = [] := by
  unfold heard
  rw [List.filter_eq_nil_iff]
  intro m hm
  obtain ⟨x, hx, hround⟩ := List.mem_filterMap.mp hm
  simpa using h x hx m hround

/-- Nothing that others publish, for other groups or as a signal, is heard as a message of `a`. -/
theorem heard_arrivals_eq_nil {bytes : ByteArray} {address : String × MemberId}
    (h : sender ≠ a ∨ group ≠ g.id ∨ ∀ m, Envelope.decode bytes ≠ .ok (.protocol m)) :
    g.heard a (net.arrivals sender group target bytes address) = [] := by
  apply heard_eq_nil
  intro x hx m hround hsender
  rw [Network.mem_arrivals hx] at hround
  obtain ⟨hgroup, -, -, hdecode, hclaim⟩ := roundMessage?_eq_some_iff.mp hround
  rcases h with hother | hother | hother
  · exact hother (hclaim.symm.trans hsender)
  · exact hother hgroup
  · exact hother m hdecode

/-- A message that a bridge publishes is heard by those it is sent to, and by nobody else. -/
theorem heard_arrivals_message {payload bytes : ByteArray} (hpeer : g.isPeer a = true)
    (he : (Envelope.protocol ⟨sender, payload, decide (target = .everyone)⟩).encode = .ok bytes)
    (honline : sender ∉ net.offline) :
    g.heard a (net.arrivals sender group target bytes (g.id, g.localMember)) =
      [(⟨sender, group, payload, target, net.offline⟩ : Sending)].filterMap (·.message? a g) := by
  have hdecode := Envelope.decode_of_encode he
  obtain ⟨hmember, hne⟩ : a ∈ g.members ∧ a ≠ g.localMember := by
    simpa [isPeer, isMember] using hpeer
  by_cases hsender : sender = a
  · by_cases hgroup : group = g.id
    · subst hsender hgroup
      have hround : g.roundMessage? ⟨g.id, sender, bytes⟩ =
          some ⟨sender, payload, decide (target = .everyone)⟩ :=
        roundMessage?_eq_some_iff.mpr ⟨rfl, hmember, hne, hdecode, rfl⟩
      by_cases hmeant : g.localMember ∉ net.offline ∧
          (target = .everyone ∨ target = .only g.localMember)
      · have hreach : target = .everyone ∧ g.localMember ≠ sender ∨ target = .only g.localMember :=
          hmeant.2.imp (fun h => ⟨h, hne.symm⟩) fun h => h
        simp only [Network.arrivals, Sending.message?, honline, hmeant.1, hreach, hmeant.2,
          not_false_eq_true, and_self, if_true, heard, List.filterMap_cons, hround,
          List.filterMap_nil, List.filter_cons, decide_true, List.filter_nil]
      · have hreach : ¬ (g.localMember ∉ net.offline ∧
            (target = .everyone ∧ g.localMember ≠ sender ∨ target = .only g.localMember)) :=
          fun h => hmeant ⟨h.1, h.2.imp And.left fun h => h⟩
        simp only [Network.arrivals, Sending.message?, honline, hmeant, hreach, not_false_eq_true,
          true_and, if_false, heard, List.filterMap_cons, List.filterMap_nil, List.filter_nil]
    · rw [heard_arrivals_eq_nil (Or.inr (Or.inl hgroup))]
      simp [Sending.message?, hgroup]
  · rw [heard_arrivals_eq_nil (Or.inl hsender)]
    simp [Sending.message?, hsender]

end Group

namespace Station

variable {s s' : Station} {net left : Network} {said sendings : List Sending} {a : MemberId}
  {taken : List Inbound} {waiting : List ProtocolMessage}

theorem Published.heard {g : Group} (h : s.Published net left said) (hpeer : g.isPeer a = true)
    {subscription : Nat} (haddress : net.address? subscription = some (g.id, g.localMember)) :
    g.heard a (left.pending subscription) =
      g.heard a (net.pending subscription) ++ said.filterMap (·.message? a g) := by
  cases h with
  | nothing => rw [List.filterMap_nil, List.append_nil]
  | @signal e bytes he hsignal =>
    have hquiet : ∀ m, Envelope.decode bytes ≠ .ok (.protocol m) := by
      intro m hm
      rw [Envelope.decode_of_encode he] at hm
      cases hm
      exact hsignal m rfl
    rw [Network.pending_send haddress, Group.heard_append,
      Group.heard_arrivals_eq_nil (Or.inr (Or.inr hquiet)), List.filterMap_nil]
  | message he honline =>
    rw [Network.pending_send haddress, Group.heard_append,
      Group.heard_arrivals_message hpeer he honline]

/-- A deed at one station takes nothing from the subscriptions of the others. -/
theorem Acts.heard {g : Group} (h : s.Acts net s' left said) (hpeer : g.isPeer a = true)
    {subscription : Nat} (hother : subscription ≠ s.bridge.subscription)
    (haddress : net.address? subscription = some (g.id, g.localMember)) :
    g.heard a (left.pending subscription) =
      g.heard a (net.pending subscription) ++ said.filterMap (·.message? a g) := by
  cases h with
  | publish hleft => exact hleft.heard hpeer haddress
  | consume _ _ => rw [List.filterMap_nil, List.append_nil]
  | @take inbound rest _ _ hreceive hleft =>
    have hpending := Network.pending_receive_other net hother
    have hkept := Network.address?_receive net subscription s.bridge.subscription
    rw [hreceive] at hpending hkept
    rw [hleft.heard hpeer (hkept.trans haddress), hpending]
  | close =>
    rw [Network.pending_release_other hother, List.filterMap_nil, List.append_nil]

/-- A bridge that has taken some inbound bytes delivers what `a` has sent to it: what it took comes
first, and what still waits at the subscription of an open bridge comes last. -/
structure Carries (s : Station) (net : Network) (sendings : List Sending) (a : MemberId)
    (taken : List Inbound) (waiting : List ProtocolMessage) : Prop where
  since_le : s.since ≤ sendings.length
  screened : s.bridge.Screened taken s.stream
  sentTo_eq : s.sentTo a sendings = s.bridge.group.heard a taken ++ waiting
  waiting_eq : s.bridge.isOpen = true →
    waiting = s.bridge.group.heard a (net.pending s.bridge.subscription)

theorem sentTo_append (h : s.since ≤ sendings.length) :
    s.sentTo a (sendings ++ said) =
      s.sentTo a sendings ++ said.filterMap (·.message? a s.bridge.group) := by
  unfold sentTo
  rw [List.drop_append_of_le_length h, List.filterMap_append]

/-- What is sent while a station does nothing itself waits behind the rest. -/
theorem Carries.grow (h : s.Carries net sendings a taken waiting)
    (hpending : s.bridge.isOpen = true →
      s.bridge.group.heard a (left.pending s.bridge.subscription) =
        s.bridge.group.heard a (net.pending s.bridge.subscription) ++
          said.filterMap (·.message? a s.bridge.group)) :
    s.Carries left (sendings ++ said) a taken
      (waiting ++ said.filterMap (·.message? a s.bridge.group)) where
  since_le := by
    have hle := h.since_le
    rw [List.length_append]
    omega
  screened := h.screened
  sentTo_eq := by rw [sentTo_append h.since_le, h.sentTo_eq, List.append_assoc]
  waiting_eq := by
    intro hopen
    rw [hpending hopen, h.waiting_eq hopen]

theorem Carries.of_heard_eq (h : s.Carries net sendings a taken waiting)
    (hpending : s.bridge.isOpen = true →
      s.bridge.group.heard a (left.pending s.bridge.subscription) =
        s.bridge.group.heard a (net.pending s.bridge.subscription)) :
    s.Carries left sendings a taken waiting where
  since_le := h.since_le
  screened := h.screened
  sentTo_eq := h.sentTo_eq
  waiting_eq := fun hopen => (h.waiting_eq hopen).trans (hpending hopen).symm

theorem Carries.take (h : s.Carries net sendings a taken waiting) (hattached : s.Attached net)
    (hpeer : s.bridge.group.isPeer a = true) (hopen : s.bridge.isOpen = true) {inbound : Inbound}
    {rest : Network} (hreceive : net.receive s.bridge.subscription = (.envelope inbound, rest))
    (hleft : s.Published rest left []) :
    ({ s with bridge := (s.bridge.dispatch s.transport inbound rest).2.1 } : Station).Carries left
      sendings a (taken ++ [inbound])
      (s.bridge.group.heard a (rest.pending s.bridge.subscription)) := by
  have haddress := hattached.address hopen
  have hkept := Network.address?_receive net s.bridge.subscription s.bridge.subscription
  rw [hreceive, haddress] at hkept
  have hscreened := h.screened.dispatch s.transport inbound rest
  obtain ⟨signals, he⟩ := Bridge.dispatch_bridge_eq s.bridge s.transport inbound rest
  have hstream : s.stream ++ (s.bridge.fresh? inbound).toList =
      s.read ++ (s.bridge.dispatch s.transport inbound rest).2.1.messages := by
    rw [he, stream, List.append_assoc]
  rw [hstream] at hscreened
  refine ⟨h.since_le, hscreened, ?_, ?_⟩
  · have hwaiting := h.waiting_eq hopen
    rw [Network.pending_of_receive haddress hreceive, ← List.singleton_append,
      Group.heard_append] at hwaiting
    simp only [he, sentTo, Group.heard_append, List.append_assoc]
    rw [← hwaiting]
    exact h.sentTo_eq
  · intro _
    have hheard := hleft.heard hpeer hkept
    rw [List.filterMap_nil, List.append_nil] at hheard
    simp only [he]
    exact hheard.symm

theorem Carries.act (h : s.Carries net sendings a taken waiting) (hattached : s.Attached net)
    (hpeer : s.bridge.group.isPeer a = true) (hacts : s.Acts net s' left said) :
    ∃ taken waiting, s'.Carries left (sendings ++ said) a taken waiting := by
  cases hacts with
  | publish hleft =>
    exact ⟨taken, _, h.grow fun hopen => hleft.heard hpeer (hattached.address hopen)⟩
  | consume signals hstream =>
    rw [List.append_nil]
    have hscreened := h.screened
    rw [← hstream] at hscreened
    exact ⟨taken, waiting, h.since_le, hscreened.of_eq rfl rfl, h.sentTo_eq, h.waiting_eq⟩
  | take hopen hreceive hleft =>
    rw [List.append_nil]
    exact ⟨_, _, h.take hattached hpeer hopen hreceive hleft⟩
  | close =>
    rw [List.append_nil]
    refine ⟨taken, waiting, h.since_le, h.screened.of_eq rfl rfl, h.sentTo_eq, ?_⟩
    intro hopen
    cases hopen

theorem carries_connect {g : Group} {m : MemberId} {b : Bridge} (hnumbered : net.Numbered)
    (hconnect : Bridge.connect g (Network.transport m) net = (.ok b, left))
    (sendings : List Sending) (a : MemberId) :
    (⟨b, [], sendings.length⟩ : Station).Carries left sendings a [] [] := by
  obtain ⟨-, hb, hsubscribe, -⟩ := Bridge.connect_eq_ok hconnect
  obtain ⟨-, -, -, hpending⟩ := Network.subscribe_eq_ok hnumbered hsubscribe
  refine ⟨Nat.le_refl _, ?_, ?_, ?_⟩
  · rw [hb]
    exact Bridge.screened_create g b.subscription b.announce
  · simp [sentTo, Group.heard]
  · intro _
    rw [hpending]
    rfl

theorem Carries.stream_filter_eq (h : s.Carries net sendings a taken waiting) :
    s.stream.filter (·.sender = a) =
      firstBy ProtocolMessage.fingerprint (s.bridge.group.heard a taken) := by
  rw [h.screened.stream_eq, filter_firstBy, Group.heard]
  intro m m' hkey
  have hsender : m.sender = m'.sender := congrArg Fingerprint.sender hkey
  rw [hsender]

theorem Carries.mem_sentTo (h : s.Carries net sendings a taken waiting) {m : ProtocolMessage}
    (hm : m ∈ s.stream) (hsender : m.sender = a) : m ∈ s.sentTo a sendings := by
  have hmem : m ∈ s.stream.filter (·.sender = a) := List.mem_filter.mpr ⟨hm, by simpa using hsender⟩
  rw [h.stream_filter_eq] at hmem
  rw [h.sentTo_eq]
  exact List.mem_append_left _ (mem_of_mem_firstBy hmem)

theorem exists_of_mem_sentTo {m : ProtocolMessage} (hm : m ∈ s.sentTo a sendings)
    (hunicast : m.broadcast = false) :
    ∃ x ∈ sendings, x.sender = a ∧ x.group = s.bridge.group.id ∧ x.payload = m.payload ∧
      x.target = .only s.bridge.group.localMember := by
  obtain ⟨x, hx, hmessage⟩ := List.mem_filterMap.mp hm
  unfold Sending.message? at hmessage
  split at hmessage
  next hmeant =>
    obtain ⟨hsender, hgroup, -, htarget⟩ := hmeant
    cases hmessage
    have hne : x.target ≠ .everyone := by simpa using hunicast
    exact ⟨x, List.mem_of_mem_drop hx, hsender, hgroup, rfl, htarget.resolve_left hne⟩
  next => cases hmessage

end Station

namespace Gathering

variable {w w' : Gathering} {a : MemberId} {group : String}

/-- The bridges of a group carry to their members what `a` sends. -/
def Carries (w : Gathering) (a : MemberId) (group : String) : Prop :=
  ∀ s ∈ w.stations, s.bridge.group.id = group → s.bridge.group.isPeer a = true →
    ∃ taken waiting, s.Carries w.network w.sendings a taken waiting

theorem Carries.step {move : Move} (h : w.Carries a group) (hattached : w.Attached)
    (honest : ∀ target bytes, move ≠ .post a group target bytes) (hstep : w.Steps move w') :
    w'.Carries a group := by
  cases hstep with
  | quiet hquiet =>
    intro s hs hgroup hpeer
    obtain ⟨taken, waiting, hc⟩ := h s hs hgroup hpeer
    refine ⟨taken, waiting, hc.of_heard_eq fun hopen => ?_⟩
    rw [hquiet.pending s hs hopen]
  | post m other target bytes =>
    intro s hs hgroup hpeer
    obtain ⟨taken, waiting, hc⟩ := h s hs hgroup hpeer
    -- Anyone may claim to be `a` inside the bytes, but the network names who published them.
    have hforeign : m ≠ a ∨ other ≠ s.bridge.group.id := by
      by_contra hown
      rw [not_or, not_not, not_not] at hown
      obtain ⟨rfl, rfl⟩ := hown
      exact honest target bytes (by rw [hgroup])
    refine ⟨taken, waiting, hc.of_heard_eq fun hopen => ?_⟩
    have haddress := (hattached.stations s hs).address hopen
    rw [Network.pending_send haddress target bytes, Group.heard_append,
      Group.heard_arrivals_eq_nil (hforeign.imp_right Or.inl), List.append_nil]
  | @connect m g b left hconnect hquiet =>
    intro s hs hgroup hpeer
    rcases List.mem_append.mp hs with hold | hnew
    · obtain ⟨taken, waiting, hc⟩ := h s hold hgroup hpeer
      refine ⟨taken, waiting, hc.of_heard_eq fun hopen => ?_⟩
      rw [hquiet.pending s hold hopen]
    · rw [List.mem_singleton.mp hnew]
      exact ⟨[], [], Station.carries_connect hattached.numbered hconnect w.sendings a⟩
  | @act deed s s' left said hs hacts =>
    intro x hx hgroup hpeer
    obtain ⟨y, hy, rfl⟩ := List.mem_map.mp hx
    dsimp only at hgroup hpeer ⊢
    by_cases hsame : y.bridge.subscription = s.bridge.subscription
    · rw [if_pos hsame] at hgroup hpeer ⊢
      rw [hacts.kept.1] at hgroup hpeer
      obtain ⟨taken, waiting, hc⟩ := h s hs hgroup hpeer
      exact hc.act (hattached.stations s hs) hpeer hacts
    · rw [if_neg hsame] at hgroup hpeer ⊢
      obtain ⟨taken, waiting, hc⟩ := h y hy hgroup hpeer
      refine ⟨taken, _, hc.grow fun hopen => ?_⟩
      exact hacts.heard hpeer hsame ((hattached.stations y hy).address hopen)

theorem carries_run {moves : List Move}
    (honest : ∀ target bytes, Move.post a group target bytes ∉ moves) :
    (run moves).Carries a group := by
  induction moves using List.reverseRecOn with
  | nil =>
    intro s hs
    cases hs
  | append_singleton moves move ih =>
    have hbefore := ih fun target bytes hmem => honest target bytes (List.mem_append_left _ hmem)
    have hmove (target : Target) (bytes : ByteArray) : move ≠ .post a group target bytes := by
      rintro rfl
      exact honest target bytes (List.mem_append_right _ (List.mem_singleton_self _))
    have hattached := attached_run moves
    rw [run_append_singleton]
    exact hbefore.step hattached hmove (steps_step hattached move)

/-- Whatever all members do, and whatever anyone publishes past the bridges: as long as `a` itself
publishes to the group through bridges only, a bridge that has drained its subscription has
delivered the first occurrences of what `a` has sent to it, in their order and nothing else of `a`;
and at no time has it delivered a message of `a` to one member that was not sent to its own. -/
theorem stream_filter_eq_eraseDups_sentTo {moves : List Move} {s : Station} {a : MemberId}
    (connected : s ∈ (run moves).stations) (peer : s.bridge.group.isPeer a = true)
    (honest : ∀ target bytes, Move.post a s.bridge.group.id target bytes ∉ moves) :
    (s.bridge.isOpen = true → (run moves).network.pending s.bridge.subscription = [] →
        CollisionFree (s.sentTo a (run moves).sendings) →
        s.stream.filter (·.sender = a) = (s.sentTo a (run moves).sendings).eraseDups) ∧
      (∀ m ∈ s.stream, m.sender = a → m ∈ s.sentTo a (run moves).sendings) ∧
      ∀ m ∈ s.stream, m.sender = a → m.broadcast = false →
        ∃ x ∈ (run moves).sendings, x.sender = a ∧ x.group = s.bridge.group.id ∧
          x.payload = m.payload ∧ x.target = .only s.bridge.group.localMember := by
  obtain ⟨taken, waiting, hcarries⟩ := carries_run honest s connected rfl peer
  refine ⟨?_, fun m hm hsender => hcarries.mem_sentTo hm hsender, ?_⟩
  · intro hopen hdrained apart
    have hwaiting : waiting = [] := by
      rw [hcarries.waiting_eq hopen, hdrained]
      rfl
    have hsent := hcarries.sentTo_eq
    rw [hwaiting, List.append_nil] at hsent
    rw [hsent] at apart ⊢
    rw [hcarries.stream_filter_eq, firstBy_eq_eraseDups apart]
  · intro m hm hsender hunicast
    exact Station.exists_of_mem_sentTo (hcarries.mem_sentTo hm hsender) hunicast

def groupOfA : Group :=
  ⟨"g", Screening.a, [Screening.a, Screening.b, Screening.c], 1, by decide, by decide, by decide,
    by decide⟩

/-- Before `b` is connected `a` sends to all, then to `c`, to `b`, and to all while `b` is offline;
`c` forges a message of `a`, and `a` publishes to another group past its bridge. -/
def script : List Move :=
  [.connect Screening.a groupOfA, .act 0 (.send ⟨#[1]⟩ .everyone),
    .connect Screening.b Screening.group, .act 0 (.send ⟨#[2]⟩ (.only Screening.c)),
    .act 0 (.send ⟨#[3]⟩ (.only Screening.b)),
    .post Screening.c "g" (.only Screening.b) (Screening.frame Screening.a [4]),
    .post Screening.a "h" .everyone (Screening.frame Screening.a [5]),
    .setOffline Screening.b true, .act 0 (.send ⟨#[6]⟩ .everyone), .act 1 .dispatch,
    .act 1 .dispatch]

/-- What the theorem asks of a station, to be looked up for a subscription. -/
def view? (w : Gathering) (a : MemberId) (subscription : Nat) :
    Option (Group × Bool × List Inbound × List ProtocolMessage) :=
  (w.station? subscription).map fun s =>
    (s.bridge.group, s.bridge.isOpen, w.network.pending s.bridge.subscription,
      s.sentTo a w.sendings)

theorem exists_of_view? {subscription : Nat} {g : Group} {still : Bool} {pending : List Inbound}
    {sent : List ProtocolMessage} (h : w.view? a subscription = some (g, still, pending, sent)) :
    ∃ s ∈ w.stations, s.bridge.group = g ∧ s.bridge.isOpen = still ∧
      w.network.pending s.bridge.subscription = pending ∧ s.sentTo a w.sendings = sent := by
  obtain ⟨s, hs, hview⟩ := Option.map_eq_some_iff.mp h
  simp only [Prod.mk.injEq] at hview
  exact ⟨s, List.mem_of_find?_eq_some hs, hview⟩

theorem view?_script :
    (run script).view? Screening.a 1 =
      some (Screening.group, true, [], [⟨Screening.a, ⟨#[3]⟩, false⟩]) := by
  decide +kernel

theorem stream_script :
    ∃ s ∈ (run script).stations, s.bridge.group.isPeer Screening.a = true ∧
      (∀ target bytes, Move.post Screening.a s.bridge.group.id target bytes ∉ script) ∧
      s.bridge.isOpen = true ∧ (run script).network.pending s.bridge.subscription = [] ∧
      s.stream.filter (·.sender = Screening.a) = [⟨Screening.a, ⟨#[3]⟩, false⟩] := by
  obtain ⟨s, hmem, hgroup, hopen, hpending, hsent⟩ := exists_of_view? view?_script
  have hpeer : s.bridge.group.isPeer Screening.a = true := by
    rw [hgroup]
    decide
  have honest (target : Target) (bytes : ByteArray) :
      Move.post Screening.a s.bridge.group.id target bytes ∉ script := by
    rw [hgroup]
    simp [script, Screening.group, Screening.a, Screening.c]
  have apart : CollisionFree (s.sentTo Screening.a (run script).sendings) := by
    rw [hsent]
    intro m hm m' hm' _
    rw [List.mem_singleton.mp hm, List.mem_singleton.mp hm']
  have hstream := (stream_filter_eq_eraseDups_sentTo hmem hpeer honest).1 hopen hpending apart
  rw [hsent] at hstream
  exact ⟨s, hmem, hpeer, honest, hopen, hpending, hstream⟩

end Gathering

end ThresholdSigning
