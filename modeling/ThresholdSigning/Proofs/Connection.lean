import ThresholdSigning.Proofs.Sending
import ThresholdSigning.Proofs.Tenancy

namespace ThresholdSigning

variable {τ ω : Type}

/-- Subscribing in a state leaves no trace in a view of it, where it is refused and where it is
taken back at once. -/
structure Transport.Traceless (t : Transport τ) (view : τ → ω) (group : String) (s : τ) : Prop where
  refused : ∀ e left, t.subscribe group s = (.error e, left) → view left = view s
  released : ∀ id left, t.subscribe group s = (.ok id, left) → view (t.release id left) = view s

namespace Network

variable {net left : Network} {m : MemberId} {group : String} {id : Nat}

/-- What can be seen of a network: its routes with all that waits there, who is offline, and how
much was sent. The number of the next subscription is not to be seen. -/
def visible (net : Network) : List Route × List MemberId × Nat :=
  (net.routes, net.offline, net.sent)

theorem subscribe_of_vacant (h : net.hasRoute group m = false) :
    net.subscribe m group =
      (.ok net.nextId,
        { net with
          routes := net.routes ++ [⟨net.nextId, group, m, []⟩]
          nextId := net.nextId + 1 }) :=
  if_neg (by simp [h])

theorem visible_subscribe (h : net.subscribe m group = (.ok id, left)) :
    left.visible = (net.routes ++ [⟨id, group, m, []⟩], net.offline, net.sent) := by
  unfold subscribe at h
  split at h
  next => cases h
  next =>
    cases h
    rfl

/-- Other routes have older numbers, so that giving a new one back takes away nothing else. -/
theorem Numbered.visible_release_subscribe (hn : net.Numbered)
    (h : net.subscribe m group = (.ok id, left)) : (left.release id).visible = net.visible := by
  unfold subscribe at h
  split at h
  next => cases h
  next =>
    cases h
    have hold : net.routes.filter (fun r => decide (r.id ≠ net.nextId)) = net.routes := by
      refine List.filter_eq_self.mpr fun r hr => ?_
      have hlt := hn r hr
      simp only [ne_eq, decide_eq_true_eq]
      omega
    simp only [visible, release, List.filter_append, hold]
    simp

theorem Numbered.traceless (hn : net.Numbered) (m : MemberId) (group : String) :
    (transport m).Traceless visible group net where
  refused e left h := by
    have hsame : left = net := eq_of_subscribe_eq_error h
    rw [hsame]
  released id left h := hn.visible_release_subscribe h

end Network

namespace Bridge

variable {g : Group} {t : Transport τ} {s left : τ} {asked : List Transport.Demand}
  {demands : List Transport.Demand} {result : Except Error Bridge}

/-- How connecting can go: the outcome, the state that is left, and the demands on the
transport. -/
inductive Connects (g : Group) (t : Transport τ) (s : τ) :
    Except Error Bridge → τ → List Transport.Demand → Prop
  | foreign (hlocal : t.localMember ≠ g.localMember) :
      Connects g t s (.error (.setting (.foreignTransport t.localMember g.localMember))) s []
  | refused {e : TransportError} {left : τ} (hlocal : t.localMember = g.localMember)
      (hsubscribe : t.subscribe g.id s = (.error e, left)) :
      Connects g t s (.error (.transport e)) left [.subscribe g.id]
  | withdrawn {id : Nat} {left : τ} (hlocal : t.localMember = g.localMember)
      (hsubscribe : t.subscribe g.id s = (.ok id, left))
      (hsize : maxEnvelopeSize < (Envelope.announce g.localMember).framed.size) :
      Connects g t s
        (.error (.codec (.envelopeTooLarge (Envelope.announce g.localMember).framed.size)))
        (t.release id left) [.subscribe g.id, .release id]
  | connected {id : Nat} {left : τ} (hlocal : t.localMember = g.localMember)
      (hsubscribe : t.subscribe g.id s = (.ok id, left))
      (hfits : (Envelope.announce g.localMember).framed.size ≤ maxEnvelopeSize) :
      Connects g t s (.ok (create g id (Envelope.announce g.localMember).framed)) left
        [.subscribe g.id]

theorem Connects.connect_eq (h : Connects g t s result left demands) :
    connect g t s = (result, left) := by
  unfold connect
  cases h with
  | foreign hlocal => exact if_pos hlocal
  | refused hlocal hsubscribe =>
    simp only [hlocal, hsubscribe, ne_eq, not_true_eq_false, if_false]
  | withdrawn hlocal hsubscribe hsize =>
    simp only [hlocal, hsubscribe, ne_eq, not_true_eq_false, if_false,
      Envelope.encode_eq_error_iff.mpr ⟨hsize, rfl⟩]
  | connected hlocal hsubscribe hfits =>
    simp only [hlocal, hsubscribe, ne_eq, not_true_eq_false, if_false,
      Envelope.encode_eq_ok_iff.mpr ⟨hfits, rfl⟩]

theorem exists_connects (g : Group) (t : Transport τ) (s : τ) :
    ∃ demands, Connects g t s (connect g t s).1 (connect g t s).2 demands := by
  have hgoes {result : Except Error Bridge} {left : τ} {demands : List Transport.Demand}
      (h : Connects g t s result left demands) :
      ∃ demands, Connects g t s (connect g t s).1 (connect g t s).2 demands := by
    rw [h.connect_eq]
    exact ⟨demands, h⟩
  by_cases hlocal : t.localMember = g.localMember
  · rcases hsubscribe : t.subscribe g.id s with ⟨e | id, left⟩
    · exact hgoes (.refused hlocal hsubscribe)
    · by_cases hfits : (Envelope.announce g.localMember).framed.size ≤ maxEnvelopeSize
      · exact hgoes (.connected hlocal hsubscribe hfits)
      · exact hgoes (.withdrawn hlocal hsubscribe (Nat.lt_of_not_le hfits))
  · exact hgoes (.foreign hlocal)

/-- The demands are those that a watched transport has on record. -/
theorem Connects.connect_watched (h : Connects g t s result left demands)
    (asked : List Transport.Demand) :
    connect g t.watched (s, asked) = (result, left, asked ++ demands) := by
  suffices hwatched : Connects g t.watched (s, asked) result (left, asked ++ demands) demands from
    hwatched.connect_eq
  cases h with
  | foreign hlocal =>
    rw [List.append_nil]
    exact .foreign hlocal
  | refused hlocal hsubscribe =>
    exact .refused hlocal (by simp only [Transport.watched, hsubscribe])
  | @withdrawn id left hlocal hsubscribe hsize =>
    have hsame : t.watched.localMember = g.localMember := hlocal
    have hsubscribed : t.watched.subscribe g.id (s, asked) =
        (.ok id, left, asked ++ [.subscribe g.id]) := by
      simp only [Transport.watched, hsubscribe]
    have hreleased : t.watched.release id (left, asked ++ [.subscribe g.id]) =
        (t.release id left, asked ++ [.subscribe g.id, .release id]) := by
      simp [Transport.watched]
    rw [← hreleased]
    exact .withdrawn hsame hsubscribed hsize
  | connected hlocal hsubscribe hfits =>
    exact .connected hlocal (by simp only [Transport.watched, hsubscribe]) hfits

theorem Connects.send_notMem (h : Connects g t s result left demands) (group : String)
    (target : Target) (bytes : ByteArray) : .send group target bytes ∉ demands := by
  cases h <;> simp

/-- Where a transport leaves no trace of a subscription that came to nothing, neither does a bridge
that was not connected. -/
theorem Connects.view_eq {view : τ → ω} {e : Error} (h : Connects g t s (.error e) left demands)
    (ht : t.Traceless view g.id s) : view left = view s := by
  cases h with
  | foreign => rfl
  | refused _ hsubscribe => exact ht.refused _ _ hsubscribe
  | withdrawn _ hsubscribe _ => exact ht.released _ _ hsubscribe

variable {net mid : Network} {m : MemberId}

theorem visible_of_connect_ok {b : Bridge} {left : Network}
    (h : connect g (Network.transport m) net = (.ok b, left)) :
    left.visible =
      (net.routes ++ [⟨b.subscription, g.id, g.localMember, []⟩], net.offline, net.sent) := by
  obtain ⟨hlocal, -, hsubscribe, -⟩ := connect_eq_ok h
  have hm : m = g.localMember := hlocal
  subst hm
  exact Network.visible_subscribe hsubscribe

/-- A subscription that is withdrawn takes away what is at its address, which is its own route. -/
theorem release_eq_vacate_of_subscribe (htidy : net.Tidy) {id : Nat} {group : String}
    (h : net.subscribe m group = (.ok id, mid)) : mid.release id = mid.vacate (group, m) := by
  have hmid : (net.subscribe m group).2.Tidy := htidy.subscribe
  rw [h] at hmid
  exact hmid.release_eq_vacate (Network.subscribe_eq_ok htidy.numbered h).2.2.1

/-- Over any transport, connecting asks for one subscription and for no send, and takes back what it
cannot use. So wherever that leaves no trace, only a bridge that is connected leaves one. On a
network, after whatever was done with it, the bridge has its own new route beside all others, or the
routes, what waits there and the count of what was sent are as before: for a transport of another
member, an address that has a route already, and an announce that is too large, in this order. -/
theorem connect_leaves_no_trace (t : Transport τ) (s : τ) (asked : List Transport.Demand)
    (os : List Operation) (g : Group) (m : MemberId) :
    let frame := (Envelope.announce g.localMember).framed
    let net := (Exchange.empty.run os).network
    let outcome := connect g (Network.transport m) net
    (∃ demands, Connects g t s (connect g t s).1 (connect g t s).2 demands ∧
        connect g t.watched (s, asked) =
          ((connect g t s).1, (connect g t s).2, asked ++ demands) ∧
        ∀ group target bytes, .send group target bytes ∉ demands) ∧
      (∀ {ω : Type} (view : τ → ω) (e : Error), t.Traceless view g.id s →
        (connect g t s).1 = .error e → view (connect g t s).2 = view s) ∧
      (∀ b, outcome.1 = .ok b →
        outcome.2.visible =
          (net.routes ++ [⟨b.subscription, g.id, g.localMember, []⟩], net.offline, net.sent)) ∧
      (∀ e, outcome.1 = .error e → outcome.2.visible = net.visible) ∧
      (m ≠ g.localMember → outcome = (.error (.setting (.foreignTransport m g.localMember)), net)) ∧
      (m = g.localMember → net.hasRoute g.id m = true →
        outcome = (.error (.transport (.alreadySubscribed g.id m)), net)) ∧
      (m = g.localMember → net.hasRoute g.id m = false → maxEnvelopeSize < frame.size →
        outcome = (.error (.codec (.envelopeTooLarge frame.size)),
          (net.subscribe m g.id).2.vacate (g.id, m))) ∧
      (m = g.localMember → net.hasRoute g.id m = false → frame.size ≤ maxEnvelopeSize →
        outcome = (.ok (create g net.nextId frame), (net.subscribe m g.id).2)) := by
  intro frame net outcome
  have htidy : net.Tidy := (Exchange.sound_run Exchange.sound_empty os).tidy
  refine ⟨?_, fun view e ht he => ?_, fun b hb => ?_, fun e he => ?_, fun hm => ?_,
    fun hm hheld => ?_, fun hm hvacant hsize => ?_, fun hm hvacant hfits => ?_⟩
  · obtain ⟨demands, h⟩ := exists_connects g t s
    exact ⟨demands, h, h.connect_watched asked, h.send_notMem⟩
  · obtain ⟨demands, h⟩ := exists_connects g t s
    rw [he] at h
    exact h.view_eq ht
  · exact visible_of_connect_ok (Prod.ext hb rfl)
  · obtain ⟨demands, h⟩ := exists_connects g (Network.transport m) net
    rw [show (connect g (Network.transport m) net).1 = .error e from he] at h
    exact h.view_eq (htidy.numbered.traceless m g.id)
  · exact Connects.connect_eq (.foreign hm)
  · exact Connects.connect_eq (.refused hm (Network.subscribe_of_hasRoute hheld))
  · have hsubscribe := Network.subscribe_of_vacant hvacant
    rw [hsubscribe, ← release_eq_vacate_of_subscribe htidy hsubscribe]
    exact Connects.connect_eq (.withdrawn hm hsubscribe hsize)
  · have hsubscribe := Network.subscribe_of_vacant hvacant
    rw [hsubscribe]
    exact Connects.connect_eq (.connected hm hsubscribe hfits)

end Bridge

end ThresholdSigning
