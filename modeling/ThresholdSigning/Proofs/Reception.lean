import ThresholdSigning.Proofs.Isolation

namespace ThresholdSigning

/-- What was asked of an exchange, in order and with the answers. -/
abbrev History := List (Operation × Answer)

/-- An operation of the network itself, not of a bridge. -/
def Operation.isPlain : Operation → Bool
  | .use _ (.connect _ _) => false
  | .use _ (.act _) => false
  | _ => true

namespace History

/-- What an entry makes of a member: offline, or back again. -/
def switch? (m : MemberId) : Operation × Answer → Option Bool
  | (.setOffline m' offline, _) => if m' = m then some offline else none
  | _ => none

/-- The last that was said about a member is that it is offline. -/
def IsAway (history : History) (m : MemberId) : Prop :=
  (history.filterMap (switch? m)).getLast? = some true

instance (history : History) (m : MemberId) : Decidable (history.IsAway m) := by
  unfold IsAway
  infer_instance

/-- The send that an entry stands for, if it was answered with success. -/
def sending? : Operation × Answer → Option (MemberId × String × Target × ByteArray)
  | (.send m group target bytes, .sent (.ok _)) => some (m, group, target, bytes)
  | _ => none

/-- How many sends had success. -/
def sent (history : History) : Nat := (history.filterMap sending?).length

/-- What a successful send owes to an address: a broadcast to the group by another member, or a
message for that member alone. -/
def mail? (address : String × MemberId) :
    MemberId × String × Target × ByteArray → Option Inbound
  | (m, group, target, bytes) =>
    if group = address.1 ∧ (target = .everyone ∧ m ≠ address.2 ∨ target = .only address.2) then
      some ⟨group, m, bytes⟩
    else none

/-- What is owed to an address by the entries after a first part of a history. Nothing is owed for a
send that was made while the member was offline. -/
def due (address : String × MemberId) (before : History) : History → List Inbound
  | [] => []
  | e :: after =>
    (if before.IsAway address.2 then [] else ((sending? e).bind (mail? address)).toList) ++
      due address (before ++ [e]) after

/-- What an entry hands over from the subscription of a handle. -/
def handed? (h : Handle) : Operation × Answer → Option Inbound
  | (.use h' .receive, .received (.envelope inbound)) => if h' = h then some inbound else none
  | _ => none

def received (h : Handle) (history : History) : List Inbound := history.filterMap (handed? h)

variable {address : String × MemberId} {before after history : History} {e : Operation × Answer}
  {m : MemberId} {h : Handle}

theorem isAway_nil : ¬ IsAway [] m := by simp [IsAway]

theorem isAway_append_singleton :
    IsAway (history ++ [e]) m ↔ (switch? m e).elim (history.IsAway m) (· = true) := by
  unfold IsAway
  rw [List.filterMap_append, List.getLast?_append]
  cases hs : switch? m e with
  | none => simp [hs]
  | some offline => simp [hs]

theorem handed?_of_ne {h' : Handle} (hne : h' ≠ h) (u : Use) (answer : Answer) :
    handed? h (.use h' u, answer) = none := by
  unfold handed?
  split
  next heq =>
    cases heq
    exact if_neg hne
  next => rfl

theorem received_append : received h (history ++ after) = history.received h ++ after.received h :=
  List.filterMap_append

theorem sent_append_singleton (history : History) (e : Operation × Answer) :
    sent (history ++ [e]) = history.sent + (sending? e).toList.length := by
  unfold sent
  rw [List.filterMap_append, List.length_append]
  cases hs : sending? e <;> simp [hs]

theorem due_append_singleton :
    due address before (after ++ [e]) = due address before after ++
      if (before ++ after).IsAway address.2 then []
      else ((sending? e).bind (mail? address)).toList := by
  induction after generalizing before with
  | nil => simp [due]
  | cons a after ih =>
    rw [List.cons_append, due, due, ih, List.append_assoc, List.append_assoc, List.singleton_append]

end History

namespace Network

variable {net : Network} {id : Nat} {m : MemberId} {group : String} {target : Target}
  {bytes : ByteArray}

theorem send_of_mem_offline (h : m ∈ net.offline) :
    net.send m group target bytes = (.error (.notConnected m), net) :=
  if_pos h

theorem send_of_notMem_offline (h : m ∉ net.offline) (group : String) (target : Target)
    (bytes : ByteArray) :
    (net.send m group target bytes).1 = .ok () ∧
      (net.send m group target bytes).2.sent = net.sent + 1 := by
  simp [send, h]

theorem sent_subscribe : (net.subscribe m group).2.sent = net.sent := by
  unfold subscribe
  split <;> rfl

theorem sent_receive : (net.receive id).2.sent = net.sent := by
  unfold receive
  split
  next => rfl
  next => split <;> rfl

theorem arrivals_eq_mail? (h : m ∉ net.offline) (address : String × MemberId) :
    net.arrivals m group target bytes address =
      if address.2 ∈ net.offline then []
      else (History.mail? address (m, group, target, bytes)).toList := by
  by_cases hoff : address.2 ∈ net.offline
  · simp [arrivals, hoff]
  · by_cases hmail : group = address.1 ∧
        (target = .everyone ∧ m ≠ address.2 ∨ target = .only address.2)
    · have hreach : m ∉ net.offline ∧ address.1 = group ∧ address.2 ∉ net.offline ∧
          (target = .everyone ∧ address.2 ≠ m ∨ target = .only address.2) :=
        ⟨h, hmail.1.symm, hoff, hmail.2.imp_left fun hb => ⟨hb.1, hb.2.symm⟩⟩
      rw [arrivals, if_pos hreach, if_neg hoff, History.mail?, if_pos hmail, Option.toList_some]
    · have hreach : ¬ (m ∉ net.offline ∧ address.1 = group ∧ address.2 ∉ net.offline ∧
          (target = .everyone ∧ address.2 ≠ m ∨ target = .only address.2)) :=
        fun hr => hmail ⟨hr.2.1.symm, hr.2.2.2.imp_left fun hb => ⟨hb.1, hb.2.symm⟩⟩
      rw [arrivals, if_neg hreach, if_neg hoff, History.mail?, if_neg hmail, Option.toList_none]

theorem mem_offline_setOffline {other : MemberId} {offline : Bool} :
    m ∈ (net.setOffline other offline).offline ↔
      if other = m then offline = true else m ∈ net.offline := by
  unfold setOffline
  by_cases hm : other = m
  · subst hm
    cases offline <;> simp
  · cases offline <;> simp [hm, Ne.symm hm]

end Network

namespace Use

variable {u : Use} {h : Handle}

/-- A use of a plain handle is no send, and takes only from what waits for the handle itself. -/
theorem apply_of_isPlain (plain : (Operation.use h u).isPlain = true) (group : String)
    (net : Network) (held : Option Held) :
    (u.apply group held net).2.2.sent = net.sent ∧
      ∀ id address, net.address? id = some address → held.bind Held.own? ≠ some id →
        (u.apply group held net).2.2.pending id = net.pending id := by
  unfold apply
  split
  next m =>
    exact ⟨Network.sent_subscribe, fun id address ha _ => Network.pending_subscribe_of_address? ha⟩
  next m g => cases plain
  next m own =>
    refine ⟨rfl, fun id address _ hown => ?_⟩
    exact Network.pending_release_other fun he => hown (congrArg some he.symm)
  next m own =>
    refine ⟨Network.sent_receive, fun id address _ hown => ?_⟩
    exact Network.pending_receive_other net fun he => hown (congrArg some he.symm)
  next b deed => cases plain
  next => exact ⟨rfl, fun _ _ _ _ => rfl⟩

end Use

namespace Exchange

open History

variable {x : Exchange} {history before after : History} {o : Operation} {h h' : Handle}
  {m : MemberId} {id : Nat} {group : String}

/-- What a history says of the exchange that it has led to. -/
structure Recorded (history : History) (x : Exchange) : Prop where
  offline : ∀ m, m ∈ x.network.offline ↔ history.IsAway m
  sent : x.network.sent = history.sent
  /-- A subscription that was made and not dropped has handed over, or still holds, what was owed to
  it since it was made. -/
  settled : ∀ before after h m, history = before ++ after →
    before.getLast? = some (.use h (.subscribe m), .subscribed (.ok ())) →
    (∀ answer, (.use h .drop, answer) ∉ after) →
    ∃ id, x.held h = some (.subscription m id) ∧
      after.received h ++ x.network.pending id = due (h.group, m) before after

theorem recorded_empty : Recorded [] empty where
  offline := fun m => by simp [empty, Network.empty, isAway_nil]
  sent := rfl
  settled := by
    intro before after h m hsplit hlast
    obtain ⟨rfl, -⟩ := List.append_eq_nil_iff.mp hsplit.symm
    cases hlast

theorem Recorded.offline_step (hr : x.Recorded history) (hx : x.Sound) (o : Operation)
    (m : MemberId) : m ∈ (x.step o).2.network.offline ↔
      IsAway (history ++ [(o, (x.step o).1)]) m := by
  rw [isAway_append_singleton]
  cases o with
  | setOffline other offline =>
    simp only [step, switch?, Network.mem_offline_setOffline, ← hr.offline m]
    by_cases hm : other = m
    · simp [hm]
    · simp [hm]
  | send other group target bytes =>
    simp only [step, Network.offline_send, switch?, Option.elim_none]
    exact hr.offline m
  | use h u =>
    have hoffline := (u.confined_apply hx.tidy (hx.bound h)).offline
    simp only [step, put, hoffline, switch?, Option.elim_none]
    exact hr.offline m

theorem Recorded.sent_step (hr : x.Recorded history) (plain : o.isPlain = true) :
    (x.step o).2.network.sent = History.sent (history ++ [(o, (x.step o).1)]) := by
  rw [sent_append_singleton, ← hr.sent]
  cases o with
  | setOffline m offline => rfl
  | send m group target bytes =>
    by_cases hoff : m ∈ x.network.offline
    · simp [step, Network.send_of_mem_offline hoff, sending?]
    · obtain ⟨hresult, hsent⟩ := Network.send_of_notMem_offline hoff group target bytes
      simp [step, hresult, hsent, sending?]
  | use h u =>
    have hsent := (Use.apply_of_isPlain plain h.group x.network (x.held h)).1
    simp [step, put, hsent, sending?]

/-- What an operation adds for a subscription goes to its end, and what it hands over is taken from
the front. -/
theorem settled_step (hx : x.Sound) (hheld : x.held h = some (.subscription m id))
    (plain : o.isPlain = true) (hkept : o ≠ .use h .drop) :
    (x.step o).2.held h = some (.subscription m id) ∧
      received h [(o, (x.step o).1)] ++ (x.step o).2.network.pending id =
        x.network.pending id ++ if m ∈ x.network.offline then []
          else ((sending? (o, (x.step o).1)).bind (mail? (h.group, m))).toList := by
  have ha : x.network.address? id = some (h.group, m) := hx.bound h _ hheld
  cases o with
  | setOffline other offline =>
    refine ⟨hheld, ?_⟩
    simp [step, received, handed?, sending?]
    rfl
  | send sender group target bytes =>
    refine ⟨hheld, ?_⟩
    simp only [step, received, handed?, List.filterMap_cons, List.filterMap_nil, List.nil_append,
      Network.pending_send ha]
    congr 1
    by_cases hoff : sender ∈ x.network.offline
    · simp [Network.send_of_mem_offline hoff, sending?, Network.arrivals, hoff]
    · have hresult := (Network.send_of_notMem_offline hoff group target bytes).1
      rw [Network.arrivals_eq_mail? hoff]
      simp only [hresult, sending?, Option.bind_some]
  | use h' u =>
    by_cases hh : h' = h
    · subst hh
      cases u with
      | subscribe m' => simp [step, put, hheld, Use.apply, received, handed?, sending?]
      | connect m' g => cases plain
      | drop => exact absurd rfl hkept
      | receive =>
        simp only [step, hheld, Use.apply, held_put_self, sending?, Option.bind_none,
          Option.toList_none, ite_self, List.append_nil, true_and]
        rcases Network.receive_of_address? ha with ⟨hnone, hreceive⟩ | ⟨e, left, hreceive, hsome, -⟩
        · rw [hreceive]
          simp [received, handed?, put]
        · rw [hreceive, hsome]
          simp [received, handed?, put]
      | act deed => cases plain
    · have hown : (x.held h').bind Held.own? ≠ some id := by
        intro hid
        exact hh (hx.apart h' h id hid (by rw [hheld]; rfl))
      have hpending := (Use.apply_of_isPlain plain h'.group x.network (x.held h')).2 id _ ha hown
      refine ⟨by rw [step, held_put_other x _ _ (Ne.symm hh), hheld], ?_⟩
      simp [step, put, hpending, sending?, received, handed?_of_ne hh]

theorem Recorded.step (hr : x.Recorded history) (hx : x.Sound) (plain : o.isPlain = true) :
    Recorded (history ++ [(o, (x.step o).1)]) (x.step o).2 where
  offline := hr.offline_step hx o
  sent := hr.sent_step plain
  settled := by
    intro before after h m hsplit hlast hkept
    rcases List.eq_nil_or_concat after with rfl | ⟨rest, e, rfl⟩
    · rw [List.append_nil] at hsplit
      rw [← hsplit, List.getLast?_concat] at hlast
      obtain ⟨rfl, hanswer⟩ := Prod.mk.inj (Option.some.inj hlast)
      obtain ⟨id, hheld, hpending⟩ := hx.held_of_subscribed hanswer
      exact ⟨id, hheld, by rw [hpending]; rfl⟩
    · rw [List.concat_eq_append] at hsplit hkept ⊢
      rw [← List.append_assoc] at hsplit
      obtain ⟨hhistory, he⟩ := List.append_inj' hsplit rfl
      obtain rfl := List.singleton_inj.mp he
      have hrest (answer : Answer) : (Operation.use h .drop, answer) ∉ rest :=
        fun hmem => hkept answer (List.mem_append_left _ hmem)
      have hdrop : o ≠ .use h .drop := by
        rintro rfl
        exact hkept _ (List.mem_append_right _ (List.mem_singleton_self _))
      obtain ⟨id, hheld, hsettled⟩ := hr.settled before rest h m hhistory hlast hrest
      obtain ⟨hheld', hmoved⟩ := settled_step hx hheld plain hdrop
      refine ⟨id, hheld', ?_⟩
      simp only [received_append, due_append_singleton, List.append_assoc, hmoved]
      rw [← List.append_assoc, hsettled]
      simp only [hr.offline m, hhistory]

theorem recorded_run {os : List Operation} (plain : ∀ o ∈ os, o.isPlain = true) :
    Recorded (empty.trace os) (empty.run os) := by
  induction os using List.reverseRecOn with
  | nil => exact recorded_empty
  | append_singleton os o ih =>
    rw [trace_append_singleton, run_append_singleton]
    have hbefore := ih fun o ho => plain o (List.mem_append_left _ ho)
    exact hbefore.step (sound_run sound_empty os)
      (plain o (List.mem_append_right _ (List.mem_singleton_self o)))

/-- Whatever is subscribed, dropped, received and sent, and whoever goes offline: what a
subscription has handed over and what still waits on it are together what was owed to it since it
was made, in the order of the sends. A send fails exactly if its sender is offline, and then it
changes nothing. -/
theorem received_append_waiting {os : List Operation} (plain : ∀ o ∈ os, o.isPlain = true) :
    (∀ before after h m, empty.trace os = before ++ after →
        before.getLast? = some (.use h (.subscribe m), .subscribed (.ok ())) →
        (∀ answer, (.use h .drop, answer) ∉ after) →
        ∃ waiting, (empty.run os).network.queue? (h.group, m) = some waiting ∧
          received h after ++ waiting = due (h.group, m) before after) ∧
      (∀ m group target bytes,
        (IsAway (empty.trace os) m → (empty.run os).network.send m group target bytes =
          (.error (.notConnected m), (empty.run os).network)) ∧
        (¬ IsAway (empty.trace os) m →
          ((empty.run os).network.send m group target bytes).1 = .ok ())) ∧
      (empty.run os).network.sent = History.sent (empty.trace os) := by
  have hr := recorded_run plain
  have hx := sound_run sound_empty os
  refine ⟨?_, ?_, hr.sent⟩
  · intro before after h m hsplit hlast hkept
    obtain ⟨id, hheld, hsettled⟩ := hr.settled before after h m hsplit hlast hkept
    have ha : (empty.run os).network.address? id = some (h.group, m) := hx.bound h _ hheld
    exact ⟨_, hx.tidy.queue?_of_address? ha, hsettled⟩
  · intro m group target bytes
    constructor
    · intro haway
      exact Network.send_of_mem_offline ((hr.offline m).mpr haway)
    · intro haway
      have hoff : m ∉ (empty.run os).network.offline := mt (hr.offline m).mp haway
      exact (Network.send_of_notMem_offline hoff group target bytes).1

end Exchange

namespace Reception

open Screening (a b c)

def handle : Handle := ⟨"g", 0⟩

/-- Nobody is there for the first message of `a`, and the second one goes with a subscription that
`b` drops. Then `b` subscribes again, writes to all and to itself, and is offline for a while. -/
def script : List Operation :=
  [.send a "g" .everyone ⟨#[1]⟩, .use handle (.subscribe b), .send a "g" .everyone ⟨#[2]⟩,
    .use handle .drop, .use handle (.subscribe b), .send b "g" .everyone ⟨#[3]⟩,
    .send b "g" (.only b) ⟨#[4]⟩, .send a "h" .everyone ⟨#[5]⟩, .setOffline b true,
    .send a "g" .everyone ⟨#[6]⟩, .send b "g" .everyone ⟨#[7]⟩, .setOffline b false,
    .use handle .receive, .send c "g" (.only b) ⟨#[8]⟩]

def since : History :=
  [(.send b "g" .everyone ⟨#[3]⟩, .sent (.ok ())), (.send b "g" (.only b) ⟨#[4]⟩, .sent (.ok ())),
    (.send a "h" .everyone ⟨#[5]⟩, .sent (.ok ())), (.setOffline b true, .done),
    (.send a "g" .everyone ⟨#[6]⟩, .sent (.ok ())),
    (.send b "g" .everyone ⟨#[7]⟩, .sent (.error (.notConnected b))), (.setOffline b false, .done),
    (.use handle .receive, .received (.envelope ⟨"g", b, ⟨#[4]⟩⟩)),
    (.send c "g" (.only b) ⟨#[8]⟩, .sent (.ok ()))]

theorem received_append_waiting_script :
    (∀ o ∈ script, o.isPlain = true) ∧
      Exchange.empty.trace script = (Exchange.empty.trace script).take 5 ++ since ∧
      ((Exchange.empty.trace script).take 5).getLast? =
        some (.use handle (.subscribe b), .subscribed (.ok ())) ∧
      (∀ answer, (.use handle .drop, answer) ∉ since) ∧
      ∃ waiting, (Exchange.empty.run script).network.queue? ("g", b) = some waiting ∧
        History.received handle since ++ waiting = [⟨"g", b, ⟨#[4]⟩⟩, ⟨"g", c, ⟨#[8]⟩⟩] := by
  have plain : ∀ o ∈ script, o.isPlain = true := by decide
  have hsplit : Exchange.empty.trace script = (Exchange.empty.trace script).take 5 ++ since := rfl
  have hlast : ((Exchange.empty.trace script).take 5).getLast? =
      some (.use handle (.subscribe b), .subscribed (.ok ())) := rfl
  have hkept (answer : Answer) : (.use handle .drop, answer) ∉ since := by simp [since, handle]
  refine ⟨plain, hsplit, hlast, hkept, ?_⟩
  obtain ⟨waiting, hwaiting, hall⟩ :=
    (Exchange.received_append_waiting plain).1 _ since handle b hsplit hlast hkept
  exact ⟨waiting, hwaiting, hall⟩

end Reception

end ThresholdSigning
