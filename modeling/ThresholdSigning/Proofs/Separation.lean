import ThresholdSigning.Proofs.Admission
import ThresholdSigning.Proofs.Group
import ThresholdSigning.Proofs.Mirror
import ThresholdSigning.Proofs.ExecuteCall
import ThresholdSigning.Proofs.Text

namespace ThresholdSigning

theorem slash_notMem_hex (bytes : ByteArray) : '/' ∉ (hex bytes).toList := by
  intro hmem
  obtain ⟨d, hd, hc⟩ := exists_of_mem_hex hmem
  interval_cases d <;> exact absurd hc (by decide)

/-- The digest stands after the last slash of the id, whatever the id of the group is. -/
theorem takeWhile_signingId (group : String) (digest : ByteArray) :
    (signingId group digest).toList.reverse.takeWhile (· ≠ '/') = (hex digest).toList.reverse := by
  have hdigits : ∀ c ∈ (hex digest).toList.reverse, decide (c ≠ '/') = true := by
    intro c hc
    refine decide_eq_true ?_
    rintro rfl
    exact slash_notMem_hex digest (List.mem_reverse.mp hc)
  have hmiddle : "/signing/".toList.reverse = '/' :: "gningis/".toList := by decide
  rw [signingId, String.toList_append, String.toList_append, List.reverse_append,
    List.reverse_append, hmiddle, List.cons_append, List.takeWhile_append_of_pos hdigits,
    List.takeWhile_cons_of_neg (by simp), List.append_nil]

theorem signingId_eq_iff {group group' : String} {digest digest' : ByteArray} :
    signingId group digest = signingId group' digest' ↔ group = group' ∧ digest = digest' := by
  constructor
  · intro h
    have hhex : (hex digest).toList.reverse = (hex digest').toList.reverse := by
      rw [← takeWhile_signingId group, h, takeWhile_signingId]
    obtain rfl := hex_inj (String.toList_inj.mp (List.reverse_injective hhex))
    refine ⟨?_, rfl⟩
    have hlist := congrArg String.toList h
    simp only [signingId, String.toList_append, List.append_cancel_right_eq] at hlist
    exact String.toList_inj.mp hlist
  · rintro ⟨rfl, rfl⟩
    rfl

namespace Network

/-- Two networks that a member of a group cannot tell apart, where the subscription it may hold has
a number on each. -/
structure Shared (group : String) (m : MemberId) (n n' : Nat) (held : Bool) (net net' : Network) :
    Prop where
  tidy : net.Tidy
  tidy' : net'.Tidy
  alike : Alike group net net'
  address : held = true → net.address? n = some (group, m)
  address' : held = true → net'.address? n' = some (group, m)

/-- One network, on which all that has changed since is for one group. -/
structure Kept (group : String) (m : MemberId) (own : Option Nat) (n : Nat) (before : Network)
    (held : Bool) (net net' : Network) : Prop where
  same : net = net'
  confined : Confined group own before net
  own : held = true → own = some n
  address : held = true → net.address? n = some (group, m)

end Network

namespace Mirror

/-- The same member on two networks. -/
def ofShared (group : String) (m : MemberId) (n n' : Nat) : Mirror Network Network where
  left := Network.transport m
  right := Network.transport m
  group := group
  number := n
  number' := n'
  Rel := Network.Shared group m n n'
  send target bytes h := by
    obtain ⟨hresult, hleft⟩ := h.alike.send m group target bytes
    exact ⟨hresult, h.tidy.send target bytes, h.tidy'.send target bytes, hleft,
      fun hheld => (Network.address?_send target bytes).trans (h.address hheld),
      fun hheld => (Network.address?_send target bytes).trans (h.address' hheld)⟩
  receive h := by
    obtain ⟨harrival, hleft⟩ := h.alike.receive h.tidy h.tidy' (h.address rfl) (h.address' rfl)
    exact ⟨harrival, h.tidy.receive n, h.tidy'.receive n', hleft,
      fun _ => (Network.address?_receive _ n n).trans (h.address rfl),
      fun _ => (Network.address?_receive _ n' n').trans (h.address' rfl)⟩
  release h := by
    have hleft := h.alike.release h.tidy h.tidy' (h.address rfl) (h.address' rfl)
    exact ⟨h.tidy.release n, h.tidy'.release n', hleft, Bool.noConfusion, Bool.noConfusion⟩

/-- A member against itself. -/
def ofKept (group : String) (m : MemberId) (own : Option Nat) (n : Nat) (before : Network) :
    Mirror Network Network where
  left := Network.transport m
  right := Network.transport m
  group := group
  number := n
  number' := n
  Rel := Network.Kept group m own n before
  send target bytes h := by
    obtain ⟨rfl, hconfined, hown, haddress⟩ := h
    exact ⟨rfl, rfl, hconfined.trans (hconfined.tidy.confined_send m group target bytes own), hown,
      fun hheld => (Network.address?_send target bytes).trans (haddress hheld)⟩
  receive h := by
    obtain ⟨rfl, hconfined, hown, haddress⟩ := h
    have hreceive := hconfined.tidy.confined_receive (haddress rfl)
    rw [← hown rfl] at hreceive
    exact ⟨rfl, rfl, hconfined.trans hreceive, hown,
      fun _ => (Network.address?_receive _ n n).trans (haddress rfl)⟩
  release h := by
    obtain ⟨rfl, hconfined, hown, haddress⟩ := h
    have hrelease := hconfined.tidy.confined_release (haddress rfl)
    rw [← hown rfl] at hrelease
    exact ⟨rfl, hconfined.trans hrelease, Bool.noConfusion, Bool.noConfusion⟩

end Mirror

variable {σ α : Type}

namespace Request

def relabel (n : Nat) : Request σ α → Request σ α
  | .refused e => .refused e
  | .begun x => .begun (x.relabel n)

/-- The subscription that is held for a request. -/
def own? (r : Request σ α) : Option Nat := r.bridge?.bind Bridge.own?

/-- A request is for a group, and what is held for it is the subscription of a member. -/
def Placed (group : String) (m : MemberId) (net : Network) (r : Request σ α) : Prop :=
  ∀ b ∈ r.bridge?, b.group.id = group ∧
    ∀ id, b.own? = some id → net.address? id = some (group, m)

end Request

namespace Execution

variable {p : Party σ α} {x x' y : Execution σ α} {group : String} {m : MemberId}
  {net net' left : Network} {now : Nat} {move : Move} {events : List Event}

/-- The number under which the execution knows its subscription. -/
def number (x : Execution σ α) : Nat := (x.bridge?.map Bridge.subscription).getD 0

theorem number_of_bridge? {b : Bridge} (h : x.bridge? = some b) : x.number = b.subscription := by
  rw [number, h]
  rfl

/-- What is held is held through a bridge that is open. -/
theorem own?_eq_some_iff {id : Nat} :
    (Request.begun x).own? = some id ↔
      ∃ b, x.bridge? = some b ∧ b.isOpen = true ∧ b.subscription = id := by
  constructor
  · intro h
    obtain ⟨b, hb, hown⟩ := Option.bind_eq_some_iff.mp h
    unfold Bridge.own? at hown
    split at hown
    next hopen => exact ⟨b, hb, hopen, Option.some.inj hown⟩
    next => cases hown
  · rintro ⟨b, hb, hopen, rfl⟩
    exact Option.bind_eq_some_iff.mpr ⟨b, hb, Bridge.own?_of_isOpen hopen⟩

theorem own?_of_isHeld (h : x.isHeld = true) : (Request.begun x).own? = some x.number := by
  cases hb : x.bridge? with
  | none =>
    rw [isHeld, hb] at h
    cases h
  | some b =>
    rw [isHeld_of_bridge? hb] at h
    exact own?_eq_some_iff.mpr ⟨b, hb, h, (number_of_bridge? hb).symm⟩

theorem isHeld_relabel (x : Execution σ α) (n : Nat) : (x.relabel n).isHeld = x.isHeld := by
  obtain ⟨plan, startedAt, deadline, phase⟩ := x
  cases phase <;> rfl

theorem relabel_number (x : Execution σ α) : x.relabel x.number = x := by
  obtain ⟨plan, startedAt, deadline, phase⟩ := x
  cases phase <;> rfl

theorem relabel_relabel (x : Execution σ α) (n k : Nat) :
    (x.relabel n).relabel k = x.relabel k := by
  obtain ⟨plan, startedAt, deadline, phase⟩ := x
  cases phase <;> rfl

theorem eq_relabel_of_relabel_eq (h : x.relabel 0 = x'.relabel 0) : x' = x.relabel x'.number := by
  rw [← relabel_relabel x 0, h, relabel_relabel, relabel_number]

end Execution

namespace Request.Placed

variable {p : Party σ α} {x x' y : Execution σ α} {r : Request σ α} {group : String} {m : MemberId}
  {net net' left : Network} {now n : Nat} {move : Execution.Move} {events : List Event}

theorem address (h : r.Placed group m net) {id : Nat} (hown : r.own? = some id) :
    net.address? id = some (group, m) := by
  obtain ⟨b, hb, hid⟩ := Option.bind_eq_some_iff.mp hown
  exact (h b hb).2 id hid

theorem of_held (hbridge : ∀ b ∈ y.bridge?, b.group.id = group ∧ b.subscription = n)
    (haddress : y.isHeld = true → net.address? n = some (group, m)) :
    (Request.begun y).Placed group m net := by
  intro b hb
  obtain ⟨hgroup, rfl⟩ := hbridge b hb
  refine ⟨hgroup, fun id hown => ?_⟩
  have hheld : (Request.begun y).own? = some id := Option.bind_eq_some_iff.mpr ⟨b, hb, hown⟩
  obtain ⟨c, hc, hopen, rfl⟩ := Execution.own?_eq_some_iff.mp hheld
  cases hc.symm.trans hb
  exact haddress ((Execution.isHeld_of_bridge? hc).trans hopen)

theorem kept (h : (Request.begun x).Placed group m net) (htidy : net.Tidy) :
    (Mirror.ofKept group m (Request.begun x).own? x.number net).Executions x net x net where
  bridge := fun b hb => ⟨(h b hb).1, (Execution.number_of_bridge? hb).symm⟩
  same := x.relabel_number.symm
  state := ⟨rfl, htidy.confined_refl _ _, Execution.own?_of_isHeld,
    fun hheld => h.address (Execution.own?_of_isHeld hheld)⟩

/-- A step changes nothing on the network for other groups, and touches no subscription but the one
that is held. -/
theorem step (h : (Request.begun x).Placed group m net) (htidy : net.Tidy)
    (hstep : x.step p (Network.transport m) now move net = some (events, y, left)) :
    Network.Confined group (Request.begun x).own? net left ∧
      (Request.begun y).Placed group m left ∧
        ∀ id, (Request.begun y).own? = some id → (Request.begun x).own? = some id := by
  have hsteps : Option.Rel
      (Mirror.Outcomes (Mirror.ofKept group m (Request.begun x).own? x.number net))
      (x.step p (Network.transport m) now move net)
      (x.step p (Network.transport m) now move net) :=
    (h.kept htidy).step p now move
  rw [hstep] at hsteps
  cases hsteps with
  | some houtcomes =>
    obtain ⟨hbridge, -, hkept⟩ := houtcomes.executions
    refine ⟨hkept.confined, of_held hbridge hkept.address, fun id hown => ?_⟩
    obtain ⟨b, hb, hopen, rfl⟩ := Execution.own?_eq_some_iff.mp hown
    rw [hkept.own ((Execution.isHeld_of_bridge? hb).trans hopen), (hbridge b hb).2]
    rfl

/-- Two executions that differ in the numbers of their subscriptions at most do the same on two
networks that they cannot tell apart. -/
theorem alike_step (h : (Request.begun x).Placed group m net)
    (h' : (Request.begun x').Placed group m net') (htidy : net.Tidy) (htidy' : net'.Tidy)
    (halike : Network.Alike group net net') (hsame : x.relabel 0 = x'.relabel 0) (p : Party σ α)
    (now : Nat) (move : Execution.Move) :
    Option.Rel
      (fun r r' : List Event × Execution σ α × Network =>
        r.1 = r'.1 ∧ r.2.1.relabel 0 = r'.2.1.relabel 0 ∧ Network.Alike group r.2.2 r'.2.2)
      (x.step p (Network.transport m) now move net)
      (x'.step p (Network.transport m) now move net') := by
  have hexecutions : (Mirror.ofShared group m x.number x'.number).Executions x net x' net' := by
    refine ⟨fun b hb => ⟨(h b hb).1, (Execution.number_of_bridge? hb).symm⟩,
      Execution.eq_relabel_of_relabel_eq hsame, htidy, htidy', halike,
      fun hheld => h.address (Execution.own?_of_isHeld hheld), fun hheld => ?_⟩
    rw [← x.isHeld_relabel 0, hsame, x'.isHeld_relabel] at hheld
    exact h'.address (Execution.own?_of_isHeld hheld)
  have hsteps : Option.Rel (Mirror.Outcomes (Mirror.ofShared group m x.number x'.number))
      (x.step p (Network.transport m) now move net)
      (x'.step p (Network.transport m) now move net') :=
    hexecutions.step p now move
  generalize x.step p (Network.transport m) now move net = o at hsteps ⊢
  generalize x'.step p (Network.transport m) now move net' = o' at hsteps ⊢
  cases hsteps with
  | none => exact .none
  | some houtcomes =>
    obtain ⟨hevents, hexecutions⟩ := houtcomes
    refine .some ⟨hevents, ?_, hexecutions.state.alike⟩
    rw [hexecutions.same, Execution.relabel_relabel]

end Request.Placed

namespace Request

variable {plan : Except Error (List Event × Plan)} {makeParty : Group → Except PartyError σ}
  {r : Request σ α} {group : String} {m : MemberId} {net net' left : Network} {now elapsed : Nat}
  {events : List Event}

theorem placed_of_unbound (h : r.bridge? = none) : r.Placed group m net ∧ r.own? = none := by
  constructor
  · rw [Placed, h]
    rintro b ⟨⟩
  · rw [own?, h]
    rfl

/-- A beginning changes nothing on the network for other groups, and if it takes a subscription, it
is a new one for its own group. -/
theorem placed_of_begin?
    (hid : ∀ events accepted, plan = .ok (events, accepted) → accepted.group.id = group)
    (htidy : net.Tidy)
    (h : begin? plan (Network.transport m) makeParty now elapsed net = some (events, r, left)) :
    Network.Confined group none net left ∧ r.Placed group m left ∧
      ∀ id, r.own? = some id → id = net.nextId := by
  have hunbound {left : Network} (hnone : r.bridge? = none) :
      r.Placed group m left ∧ ∀ id, r.own? = some id → id = net.nextId := by
    obtain ⟨hplaced, hown⟩ := placed_of_unbound hnone
    refine ⟨hplaced, fun id hid => ?_⟩
    cases hown.symm.trans hid
  cases plan with
  | error e =>
    cases h
    exact ⟨htidy.confined_refl group none, hunbound rfl⟩
  | ok accepted =>
    obtain ⟨first, plan⟩ := accepted
    obtain rfl := hid first plan rfl
    obtain ⟨⟨more, x, left⟩, hx, he⟩ := Option.map_eq_some_iff.mp h
    cases he
    cases Execution.begins_of_begin? hx with
    | failed _ hphase =>
      refine ⟨htidy.confined_refl _ none, hunbound ?_⟩
      simp only [bridge?, Execution.bridge?, hphase]
    | refused _ hphase hconnect =>
      have hconfined := Bridge.confined_connect htidy plan.group m
      rw [hconnect] at hconfined
      refine ⟨hconfined, hunbound ?_⟩
      simp only [bridge?, Execution.bridge?, hphase]
    | @bound party b _ _ _ hconnect hphase =>
      have hconfined := Bridge.confined_connect htidy plan.group m
      rw [hconnect] at hconfined
      obtain ⟨-, he, hsubscribe, -⟩ := Bridge.connect_eq_ok hconnect
      obtain ⟨hnew, -, haddress, -⟩ := Network.subscribe_eq_ok htidy.numbered hsubscribe
      have hbridge : (Request.begun x).bridge? = some b := by
        simp only [bridge?, Execution.bridge?, hphase]
      have hown : b.own? = some b.subscription := by
        rw [he]
        rfl
      refine ⟨hconfined, ?_, ?_⟩
      · rw [Placed, hbridge]
        rintro _ ⟨⟩
        refine ⟨by rw [he]; rfl, fun id hid => ?_⟩
        cases hown.symm.trans hid
        exact haddress
      · rw [own?, hbridge]
        intro id hid
        cases hown.symm.trans hid
        exact hnew

theorem alike_begin?
    (hid : ∀ events accepted, plan = .ok (events, accepted) → accepted.group.id = group)
    (htidy : net.Tidy) (htidy' : net'.Tidy) (halike : Network.Alike group net net') :
    Option.Rel
      (fun r r' : List Event × Request σ α × Network =>
        r.1 = r'.1 ∧ r.2.1.relabel 0 = r'.2.1.relabel 0 ∧ Network.Alike group r.2.2 r'.2.2)
      (begin? plan (Network.transport m) makeParty now elapsed net)
      (begin? plan (Network.transport m) makeParty now elapsed net') := by
  cases plan with
  | error e => exact .some ⟨rfl, rfl, halike⟩
  | ok accepted =>
    obtain ⟨first, plan⟩ := accepted
    obtain rfl := hid first plan rfl
    obtain ⟨hresult, hleft⟩ := Bridge.alike_connect halike htidy htidy' m
    simp only [begin?, Execution.begin?]
    cases Deadline.start? now plan.timeout with
    | none => exact .none
    | some deadline =>
      cases makeParty plan.group with
      | error e => exact .some ⟨rfl, rfl, halike⟩
      | ok party =>
        dsimp only
        split
        next => exact .some ⟨rfl, rfl, halike⟩
        next =>
          rcases hc : Bridge.connect plan.group (Network.transport m) net with ⟨result, left⟩
          rcases hc' : Bridge.connect plan.group (Network.transport m) net' with ⟨result', left'⟩
          rw [hc, hc'] at hresult hleft
          simp only [Execution.connect, hc, hc']
          cases result with
          | error e =>
            cases result' with
            | error e' =>
              cases hresult
              exact .some ⟨rfl, rfl, hleft⟩
            | ok b' => cases hresult
          | ok b =>
            cases result' with
            | error e' => cases hresult
            | ok b' =>
              have hlabel : b.relabel 0 = b'.relabel 0 := Except.ok.inj hresult
              refine .some ⟨rfl, ?_, hleft⟩
              simp only [relabel, Execution.relabel, Phase.relabel, hlabel]

end Request

/-- A signing that is asked for: with which key and of what, by whom, and on whose transport. -/
structure Commission (σ : Type) where
  settings : Settings
  signer : Signer
  digest : ByteArray
  participants : List MemberId
  member : MemberId
  party : Party σ Signature
  makeParty : Group → Except PartyError σ

namespace Commission

def id (c : Commission σ) : String := signingId c.signer.group.id c.digest

/-- The key's group and what is signed. -/
def subject (c : Commission σ) : String × ByteArray := (c.signer.group.id, c.digest)

def plan (c : Commission σ) : Except Error (List Event × Plan) :=
  Signing.plan c.settings c.signer c.digest c.participants

inductive Move
  | begin (now elapsed : Nat)
  | step (now : Nat) (move : Execution.Move)
  | tick (now : Nat)

/-- One move of a signing: it is begun once, and goes on from there. -/
def perform? (c : Commission σ) (call : Option (Request σ Signature)) (move : Move)
    (net : Network) : Option (List Event × Request σ Signature × Network) :=
  match call, move with
  | none, .begin now elapsed =>
    Request.begin? c.plan (Network.transport c.member) c.makeParty now elapsed net
  | some (.begun x), .step now move =>
    (x.step c.party (Network.transport c.member) now move net).map fun (events, x, left) =>
      (events, .begun x, left)
  | some (.begun x), .tick now => some ([], .begun (x.tick now), net)
  | _, _ => none

variable {c : Commission σ} {call call' : Option (Request σ Signature)} {move : Move}
  {net net' left : Network} {events : List Event} {r : Request σ Signature}

theorem id_eq_iff {subject : String × ByteArray} :
    c.id = signingId subject.1 subject.2 ↔ c.subject = subject := by
  rw [id, signingId_eq_iff, Commission.subject, Prod.ext_iff]

theorem id_of_plan {accepted : Plan} (h : c.plan = .ok (events, accepted)) :
    accepted.group.id = c.id := by
  have hadmits := Signing.admits c.settings c.signer c.digest c.participants
  have hplan : Signing.plan c.settings c.signer c.digest c.participants = .ok (events, accepted) :=
    h
  rw [hplan] at hadmits
  cases hadmits with
  | accepted _ _ _ hgroup => exact (Group.create_eq_ok_iff.mp hgroup).1

/-- A signing changes nothing on the network for other groups than its own, and holds nothing but
the subscription that it had or has made. -/
theorem placed_of_perform? (htidy : net.Tidy)
    (hplaced : ∀ r ∈ call, r.Placed c.id c.member net)
    (h : c.perform? call move net = some (events, r, left)) :
    Network.Confined c.id (call.bind Request.own?) net left ∧ r.Placed c.id c.member left ∧
      ∀ id, r.own? = some id → call.bind Request.own? = some id ∨ id = net.nextId := by
  unfold perform? at h
  split at h
  next now elapsed =>
    obtain ⟨hconfined, hafter, hnew⟩ :=
      Request.placed_of_begin? (fun _ _ hplan => id_of_plan hplan) htidy h
    exact ⟨hconfined, hafter, fun id hid => .inr (hnew id hid)⟩
  next x now move =>
    obtain ⟨⟨more, y, mid⟩, hstep, he⟩ := Option.map_eq_some_iff.mp h
    cases he
    obtain ⟨hconfined, hafter, hown⟩ := (hplaced _ rfl).step htidy hstep
    exact ⟨hconfined, hafter, fun id hid => .inl (hown id hid)⟩
  next x now =>
    cases h
    have hbefore : (Request.begun x).Placed c.id c.member net := hplaced _ rfl
    exact ⟨htidy.confined_refl _ _, hbefore, fun id hid => .inl hid⟩
  next => cases h

/-- What comes of a move depends on nothing but what the networks have for its own group. -/
theorem alike_perform? (htidy : net.Tidy) (htidy' : net'.Tidy)
    (halike : Network.Alike c.id net net') (hplaced : ∀ r ∈ call, r.Placed c.id c.member net)
    (hplaced' : ∀ r ∈ call', r.Placed c.id c.member net')
    (hsame : call.map (Request.relabel 0) = call'.map (Request.relabel 0)) (move : Move) :
    Option.Rel
      (fun r r' : List Event × Request σ Signature × Network =>
        r.1 = r'.1 ∧ r.2.1.relabel 0 = r'.2.1.relabel 0 ∧ Network.Alike c.id r.2.2 r'.2.2)
      (c.perform? call move net) (c.perform? call' move net') := by
  cases call with
  | none =>
    obtain rfl : call' = none := Option.map_eq_none_iff.mp hsame.symm
    cases move with
    | begin now elapsed =>
      exact Request.alike_begin? (fun _ _ hplan => id_of_plan hplan) htidy htidy' halike
    | step | tick => exact .none
  | some r =>
    obtain ⟨r', rfl, hr⟩ := Option.map_eq_some_iff.mp hsame.symm
    cases r with
    | refused e =>
      cases r' with
      | refused e' => cases move <;> exact .none
      | begun x' => cases hr
    | begun x =>
      cases r' with
      | refused e' => cases hr
      | begun x' =>
        injection hr with hx
        cases move with
        | begin => exact .none
        | step now move =>
          refine rel_map ((hplaced _ rfl).alike_step (hplaced' _ rfl) htidy htidy' halike hx.symm
            c.party now move) ?_
          rintro ⟨events, y, left⟩ ⟨events', y', left'⟩ ⟨hevents, hy, hleft⟩
          exact ⟨hevents, congrArg Request.begun hy, hleft⟩
        | tick now =>
          refine .some ⟨rfl, congrArg Request.begun ?_, halike⟩
          exact congrArg (fun y : Execution σ Signature => y.tick now) hx.symm

end Commission

/-- Signings that members of one network are at, each of whatever is asked for under its index. -/
structure Concert (ι σ : Type) where
  network : Network
  calls : ι → Option (Request σ Signature)

namespace Concert

inductive Move (ι : Type)
  | call (i : ι) (move : Commission.Move)
  /-- Anyone sends anything, for whatever group. -/
  | send (m : MemberId) (group : String) (target : Target) (bytes : ByteArray)
  | setOffline (m : MemberId) (offline : Bool)

inductive Reply (σ : Type)
  /-- The events and what the signing has come to, without the number of its subscription. Nothing
  if the move is impossible. -/
  | moved (outcome : Option (List Event × Request σ Signature))
  | sent (result : Except TransportError Unit)
  | done

variable {ι : Type}

/-- Others have used the network before. -/
def opening (ι σ : Type) (before : List Operation) : Concert ι σ :=
  ⟨(Exchange.empty.run before).network, fun _ => none⟩

/-- What has come of a signing, without the number of its subscription. -/
def view (c : Concert ι σ) (i : ι) : Option (Request σ Signature) :=
  (c.calls i).map (Request.relabel 0)

/-- Moves of signings of the same digest with the key of the same group, and what is sent for the id
of these signings. Members go offline for all. -/
def concerns (asked : ι → Commission σ) (subject : String × ByteArray) : Move ι → Bool
  | .call i _ => decide ((asked i).subject = subject)
  | .send _ group _ _ => decide (group = signingId subject.1 subject.2)
  | .setOffline _ _ => true

structure Sound (asked : ι → Commission σ) (c : Concert ι σ) : Prop where
  tidy : c.network.Tidy
  placed : ∀ i, ∀ r ∈ c.calls i, r.Placed (asked i).id (asked i).member c.network
  apart : ∀ i j n, (c.calls i).bind Request.own? = some n →
    (c.calls j).bind Request.own? = some n → i = j

/-- Two concerts that are the same for the signings with one id. -/
structure Alike (asked : ι → Commission σ) (id : String) (c d : Concert ι σ) : Prop where
  network : Network.Alike id c.network d.network
  view : ∀ i, (asked i).id = id → c.view i = d.view i

variable {asked : ι → Commission σ} {c d : Concert ι σ} {subject : String × ByteArray}
  {move : Move ι}

theorem sound_opening (asked : ι → Commission σ) (before : List Operation) :
    (opening ι σ before).Sound asked where
  tidy := (Exchange.sound_run Exchange.sound_empty before).tidy
  placed := by
    rintro i r ⟨⟩
  apart := by
    rintro i j n ⟨⟩

theorem Sound.lt_nextId (hc : c.Sound asked) {i : ι} {n : Nat}
    (hn : (c.calls i).bind Request.own? = some n) : n < c.network.nextId := by
  obtain ⟨r, hr, hown⟩ := Option.bind_eq_some_iff.mp hn
  exact hc.tidy.numbered.lt_nextId ((hc.placed i r hr).address hown)

variable [DecidableEq ι]

def put (c : Concert ι σ) (i : ι) (r : Request σ Signature) (left : Network) : Concert ι σ :=
  ⟨left, Function.update c.calls i (some r)⟩

def step (asked : ι → Commission σ) (c : Concert ι σ) : Move ι → Reply σ × Concert ι σ
  | .call i move =>
    match (asked i).perform? (c.calls i) move c.network with
    | none => (.moved none, c)
    | some (events, r, left) => (.moved (some (events, r.relabel 0)), c.put i r left)
  | .send m group target bytes =>
    let (result, left) := c.network.send m group target bytes
    (.sent result, { c with network := left })
  | .setOffline m offline => (.done, { c with network := c.network.setOffline m offline })

def trace (asked : ι → Commission σ) (c : Concert ι σ) : List (Move ι) → List (Move ι × Reply σ)
  | [] => []
  | move :: moves =>
    (move, (c.step asked move).1) :: (c.step asked move).2.trace asked moves

def run (asked : ι → Commission σ) (c : Concert ι σ) (moves : List (Move ι)) : Concert ι σ :=
  moves.foldl (fun c move => (c.step asked move).2) c

theorem calls_put_self (c : Concert ι σ) (i : ι) (r : Request σ Signature) (left : Network) :
    (c.put i r left).calls i = some r :=
  Function.update_self ..

theorem calls_put_other (c : Concert ι σ) {i j : ι} (r : Request σ Signature) (left : Network)
    (hne : j ≠ i) : (c.put i r left).calls j = c.calls j :=
  Function.update_of_ne hne ..

theorem Sound.put (hc : c.Sound asked) {i : ι} {move : Commission.Move} {events : List Event}
    {r : Request σ Signature} {left : Network}
    (h : (asked i).perform? (c.calls i) move c.network = some (events, r, left)) :
    (c.put i r left).Sound asked := by
  obtain ⟨hconfined, hafter, hown⟩ := Commission.placed_of_perform? hc.tidy (hc.placed i) h
  refine ⟨hconfined.tidy, ?_, ?_⟩
  · intro j s hs
    by_cases hj : j = i
    · subst hj
      rw [calls_put_self] at hs
      cases hs
      exact hafter
    · rw [calls_put_other c r left hj] at hs
      intro b hb
      obtain ⟨hgroup, haddress⟩ := hc.placed j s hs b hb
      refine ⟨hgroup, fun n hn => hconfined.address n _ (fun hi => hj ?_) (haddress n hn)⟩
      have hheld : (c.calls j).bind Request.own? = some n := by
        rw [hs, Option.bind_some, Request.own?, hb, Option.bind_some, hn]
      exact hc.apart j i n hheld hi
  · refine apart_of_next hc.apart (fun _ _ => hc.lt_nextId) ?_
      fun j hj => congrArg (Option.bind · Request.own?) (calls_put_other c r left hj)
    intro n hn
    rw [calls_put_self, Option.bind_some] at hn
    exact hown n hn

theorem Sound.step (hc : c.Sound asked) (move : Move ι) : (c.step asked move).2.Sound asked := by
  cases move with
  | call i move =>
    simp only [Concert.step]
    cases h : (asked i).perform? (c.calls i) move c.network with
    | none => exact hc
    | some outcome => exact hc.put h
  | send m group target bytes =>
    refine ⟨hc.tidy.send target bytes, fun i r hr b hb => ?_, hc.apart⟩
    obtain ⟨hgroup, haddress⟩ := hc.placed i r hr b hb
    exact ⟨hgroup, fun n hn => (Network.address?_send target bytes).trans (haddress n hn)⟩
  | setOffline m offline => exact ⟨hc.tidy.setOffline offline, hc.placed, hc.apart⟩

/-- What does not concern a signing leaves it and its part of the network as they are. -/
theorem alike_step_other (hc : c.Sound asked) (hmove : concerns asked subject move = false) :
    Alike asked (signingId subject.1 subject.2) (c.step asked move).2 c := by
  cases move with
  | call i move =>
    have hother : signingId subject.1 subject.2 ≠ (asked i).id :=
      fun hid => of_decide_eq_false hmove (Commission.id_eq_iff.mp hid.symm)
    simp only [step]
    cases h : (asked i).perform? (c.calls i) move c.network with
    | none => exact ⟨⟨rfl, fun _ => rfl⟩, fun _ _ => rfl⟩
    | some outcome =>
      obtain ⟨hconfined, -, -⟩ := Commission.placed_of_perform? hc.tidy (hc.placed i) h
      refine ⟨hconfined.alike hother, fun j hj => ?_⟩
      have hne : j ≠ i := by
        rintro rfl
        exact hother hj.symm
      simp only [view, calls_put_other c _ _ hne]
  | send m group target bytes =>
    have hne : signingId subject.1 subject.2 ≠ group :=
      fun hid => of_decide_eq_false hmove hid.symm
    exact ⟨(hc.tidy.confined_send m group target bytes none).alike hne, fun _ _ => rfl⟩
  | setOffline m offline => cases hmove

theorem Alike.step (h : Alike asked (signingId subject.1 subject.2) c d) (hc : c.Sound asked)
    (hd : d.Sound asked) (hmove : concerns asked subject move = true) :
    (c.step asked move).1 = (d.step asked move).1 ∧
      Alike asked (signingId subject.1 subject.2) (c.step asked move).2 (d.step asked move).2 := by
  cases move with
  | call i move =>
    obtain rfl := of_decide_eq_true hmove
    have hperform := Commission.alike_perform? hc.tidy hd.tidy h.network (hc.placed i)
      (hd.placed i) (h.view i rfl) move
    simp only [Concert.step]
    generalize (asked i).perform? (c.calls i) move c.network = o at hperform ⊢
    generalize (asked i).perform? (d.calls i) move d.network = o' at hperform ⊢
    cases hperform with
    | none => exact ⟨rfl, h⟩
    | @some outcome outcome' houtcome =>
      obtain ⟨events, r, left⟩ := outcome
      obtain ⟨events', r', left'⟩ := outcome'
      obtain ⟨rfl, hr, hleft⟩ := houtcome
      dsimp only at hr hleft ⊢
      refine ⟨by rw [hr], hleft, fun j hj => ?_⟩
      by_cases hji : j = i
      · subst hji
        simp only [Concert.view, calls_put_self, Option.map_some, hr]
      · simp only [Concert.view, calls_put_other c r left hji, calls_put_other d r' left' hji]
        exact h.view j hj
  | send m group target bytes =>
    obtain ⟨hresult, hleft⟩ := h.network.send m group target bytes
    exact ⟨congrArg Reply.sent hresult, hleft, h.view⟩
  | setOffline m offline => exact ⟨rfl, h.network.setOffline m offline, h.view⟩

theorem Alike.trace (h : Alike asked (signingId subject.1 subject.2) c d) (hc : c.Sound asked)
    (hd : d.Sound asked) (moves : List (Move ι)) :
    (c.trace asked moves).filter (fun turn => concerns asked subject turn.1) =
        d.trace asked (moves.filter (concerns asked subject)) ∧
      Alike asked (signingId subject.1 subject.2) (c.run asked moves)
        (d.run asked (moves.filter (concerns asked subject))) := by
  induction moves generalizing c d with
  | nil => exact ⟨rfl, h⟩
  | cons move moves ih =>
    cases hmove : concerns asked subject move with
    | false =>
      have hother := alike_step_other hc hmove
      have hnext : Alike asked (signingId subject.1 subject.2) (c.step asked move).2 d :=
        ⟨hother.network.trans h.network, fun i hi => (hother.view i hi).trans (h.view i hi)⟩
      obtain ⟨htrace, hrun⟩ := ih hnext (hc.step move) hd
      rw [List.filter_cons_of_neg (by simp [hmove])]
      refine ⟨?_, hrun⟩
      rw [Concert.trace, List.filter_cons_of_neg (by simp [hmove]), htrace]
    | true =>
      obtain ⟨hreply, hnext⟩ := h.step hc hd hmove
      obtain ⟨htrace, hrun⟩ := ih hnext (hc.step move) (hd.step move)
      rw [List.filter_cons_of_pos hmove]
      refine ⟨?_, hrun⟩
      rw [Concert.trace, List.filter_cons_of_pos (by simpa using hmove), htrace, hreply,
        Concert.trace]

/-- The id of a signing tells the id of the group and the digest, whatever else the id of a group
looks like. So signings of different digests, or with the keys of different groups, share nothing:
whatever is asked for on one network and however it goes on there, erasing all that is done for
other signings leaves a signing every one of its replies, all that waits at the routes for its id,
and all that has come of it. -/
theorem signings_apart :
    (∀ (group group' : String) (digest digest' : ByteArray),
      signingId group digest = signingId group' digest' ↔ group = group' ∧ digest = digest') ∧
    ∀ (asked : ι → Commission σ) (before : List Operation) (moves : List (Move ι)) (i : ι),
      ((opening ι σ before).trace asked moves).filter
          (fun turn => concerns asked (asked i).subject turn.1) =
        (opening ι σ before).trace asked (moves.filter (concerns asked (asked i).subject)) ∧
      (∀ m, ((opening ι σ before).run asked moves).network.queue? ((asked i).id, m) =
        ((opening ι σ before).run asked
          (moves.filter (concerns asked (asked i).subject))).network.queue? ((asked i).id, m)) ∧
      ((opening ι σ before).run asked moves).view i =
        ((opening ι σ before).run asked
          (moves.filter (concerns asked (asked i).subject))).view i := by
  refine ⟨fun _ _ _ _ => signingId_eq_iff, ?_⟩
  intro asked before moves i
  have hopening : Alike asked (signingId (asked i).subject.1 (asked i).subject.2)
      (opening ι σ before) (opening ι σ before) :=
    ⟨⟨rfl, fun _ => rfl⟩, fun _ _ => rfl⟩
  have hsound := sound_opening (σ := σ) asked before
  obtain ⟨htrace, hrun⟩ := hopening.trace hsound hsound moves
  exact ⟨htrace, hrun.network.queue, hrun.view i rfl⟩

end Concert

end ThresholdSigning
