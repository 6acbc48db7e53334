import ThresholdSigning.Bridge
import ThresholdSigning.Proofs.Frame
import ThresholdSigning.Proofs.Group

namespace ThresholdSigning

variable {τ : Type}

namespace Transport

/-- What can be asked of a transport. -/
inductive Demand
  | subscribe (group : String)
  | receive (subscription : Nat)
  | release (subscription : Nat)
  | send (group : String) (target : Target) (bytes : ByteArray)

/-- The same transport, with a record of all that is asked of it. -/
def watched (t : Transport τ) : Transport (τ × List Demand) where
  localMember := t.localMember
  subscribe group s :=
    ((t.subscribe group s.1).1, (t.subscribe group s.1).2, s.2 ++ [.subscribe group])
  receive id s := ((t.receive id s.1).1, (t.receive id s.1).2, s.2 ++ [.receive id])
  release id s := (t.release id s.1, s.2 ++ [.release id])
  send group target bytes s :=
    ((t.send group target bytes s.1).1, (t.send group target bytes s.1).2,
      s.2 ++ [.send group target bytes])

end Transport

/-- Messages of the local member go to everyone, or to another member. -/
def Group.Reaches (g : Group) : Target → Prop
  | .everyone => True
  | .only m => m ∈ g.members ∧ m ≠ g.localMember

theorem Group.reaches_only_iff {g : Group} {m : MemberId} :
    g.Reaches (.only m) ↔ g.isPeer m = true := by
  simp [Reaches, isPeer, isMember]

namespace Bridge

variable {b : Bridge} {t : Transport τ} {payload : ByteArray} {target : Target} {s : τ}

/-- What a payload of the local member is sent as. -/
def wrapped (b : Bridge) (payload : ByteArray) (target : Target) : Envelope :=
  .protocol ⟨b.group.localMember, payload, decide (target = .everyone)⟩

theorem refusal?_of_reaches (h : b.group.Reaches target) : b.refusal? target = none := by
  cases target with
  | everyone => rfl
  | only m => simp only [refusal?, Group.reaches_only_iff.mp h, if_true]

/-- A recipient that cannot be reached is refused before anything is encoded. -/
theorem send_of_not_reaches {m : MemberId} (h : ¬ b.group.Reaches (.only m)) :
    b.send t payload (.only m) s =
      (.error (.unexpectedMessage (.notAPeer m b.group.id)), s) := by
  have hpeer : b.group.isPeer m = false := by
    rw [Group.reaches_only_iff] at h
    simpa using h
  simp only [send, refusal?, hpeer, Bool.false_eq_true, if_false]

theorem publish_of_oversized {e : Envelope} (h : maxEnvelopeSize < e.framed.size) :
    b.publish t e target s = (.error (.codec (.envelopeTooLarge e.framed.size)), s) := by
  simp only [publish, Envelope.encode_eq_error_iff.mpr ⟨h, rfl⟩]

/-- What fits in an envelope is handed to the transport, whose answer is the last word. -/
theorem publish_of_fits {e : Envelope} (h : e.framed.size ≤ maxEnvelopeSize) :
    b.publish t e target s =
      ((t.send b.group.id target e.framed s).1.mapError .transport,
        (t.send b.group.id target e.framed s).2) := by
  have hencode : e.encode = .ok e.framed := Envelope.encode_eq_ok_iff.mpr ⟨h, rfl⟩
  simp only [publish, hencode]
  rcases t.send b.group.id target e.framed s with ⟨answer, left⟩
  cases answer with
  | error fault => rfl
  | ok _ => rfl

theorem send_of_reaches (h : b.group.Reaches target) :
    b.send t payload target s = b.publish t (b.wrapped payload target) target s := by
  simp only [send, refusal?_of_reaches h, wrapped]

theorem send_of_oversized (hreaches : b.group.Reaches target)
    (hsize : maxEnvelopeSize < (b.wrapped payload target).framed.size) :
    b.send t payload target s =
      (.error (.codec (.envelopeTooLarge (b.wrapped payload target).framed.size)), s) :=
  (send_of_reaches hreaches).trans (publish_of_oversized hsize)

theorem send_of_fits (hreaches : b.group.Reaches target)
    (hfits : (b.wrapped payload target).framed.size ≤ maxEnvelopeSize) :
    b.send t payload target s =
      ((t.send b.group.id target (b.wrapped payload target).framed s).1.mapError .transport,
        (t.send b.group.id target (b.wrapped payload target).framed s).2) :=
  (send_of_reaches hreaches).trans (publish_of_fits hfits)

theorem mapError_eq_ok_iff {answer : Except TransportError Unit} :
    answer.mapError Error.transport = .ok () ↔ answer = .ok () := by
  cases answer with
  | error fault =>
    constructor
    · rintro ⟨⟩
    · rintro ⟨⟩
  | ok _ => exact ⟨fun _ => rfl, fun _ => rfl⟩

theorem mapError_eq_error_iff {answer : Except TransportError Unit} {e : Error} :
    answer.mapError Error.transport = .error e ↔
      ∃ fault, answer = .error fault ∧ e = .transport fault := by
  cases answer with
  | error fault =>
    constructor
    · rintro ⟨⟩
      exact ⟨fault, rfl, rfl⟩
    · rintro ⟨_, ⟨⟩, rfl⟩
      rfl
  | ok _ =>
    constructor
    · rintro ⟨⟩
    · rintro ⟨_, ⟨⟩, -⟩

theorem send_eq_ok_iff :
    (b.send t payload target s).1 = .ok () ↔
      b.group.Reaches target ∧ (b.wrapped payload target).framed.size ≤ maxEnvelopeSize ∧
        (t.send b.group.id target (b.wrapped payload target).framed s).1 = .ok () := by
  constructor
  · intro hok
    by_cases hreaches : b.group.Reaches target
    · by_cases hfits : (b.wrapped payload target).framed.size ≤ maxEnvelopeSize
      · rw [send_of_fits hreaches hfits] at hok
        exact ⟨hreaches, hfits, mapError_eq_ok_iff.mp hok⟩
      · rw [send_of_oversized hreaches (Nat.lt_of_not_le hfits)] at hok
        cases hok
    · cases target with
      | everyone => exact absurd trivial hreaches
      | only m =>
        rw [send_of_not_reaches hreaches] at hok
        cases hok
  · rintro ⟨hreaches, hfits, hgiven⟩
    rw [send_of_fits hreaches hfits]
    exact mapError_eq_ok_iff.mpr hgiven

/-- Whether the transport is watched makes no difference to connecting, which sends nothing. -/
theorem connect_watched (g : Group) (t : Transport τ) (s : τ) (asked : List Transport.Demand) :
    ∃ demands, connect g t.watched (s, asked) =
        ((connect g t s).1, (connect g t s).2, asked ++ demands) ∧
      ∀ group target bytes, .send group target bytes ∉ demands := by
  unfold connect
  by_cases hlocal : t.localMember = g.localMember
  · have hlocal' : t.watched.localMember = g.localMember := hlocal
    have hsubscribe : t.watched.subscribe g.id (s, asked) = ((t.subscribe g.id s).1,
        (t.subscribe g.id s).2, asked ++ [.subscribe g.id]) := rfl
    simp only [hlocal, hlocal', ne_eq, not_true_eq_false, if_false, hsubscribe]
    rcases t.subscribe g.id s with ⟨e | id, left⟩
    · exact ⟨[.subscribe g.id], rfl, by simp⟩
    · cases (Envelope.announce g.localMember).encode with
      | error e => exact ⟨[.subscribe g.id, .release id], by simp [Transport.watched], by simp⟩
      | ok announce => exact ⟨[.subscribe g.id], rfl, by simp⟩
  · have hlocal' : t.watched.localMember ≠ g.localMember := hlocal
    rw [if_pos hlocal, if_pos hlocal']
    exact ⟨[], by rw [List.append_nil]; rfl, by simp⟩

/-- Whether the transport is watched makes no difference to what is sent. -/
theorem send_watched (b : Bridge) (t : Transport τ) (payload : ByteArray) (target : Target) (s : τ)
    (asked : List Transport.Demand) :
    ((b.send t.watched payload target (s, asked)).1,
      (b.send t.watched payload target (s, asked)).2.1) = b.send t payload target s := by
  by_cases hreaches : b.group.Reaches target
  · by_cases hfits : (b.wrapped payload target).framed.size ≤ maxEnvelopeSize
    · rw [send_of_fits hreaches hfits, send_of_fits hreaches hfits]
      rfl
    · have hsize := Nat.lt_of_not_le hfits
      rw [send_of_oversized hreaches hsize, send_of_oversized hreaches hsize]
  · cases target with
    | everyone => exact absurd trivial hreaches
    | only m => rw [send_of_not_reaches hreaches, send_of_not_reaches hreaches]

/-- Sending succeeds exactly if the target can be reached, the frame fits and the transport accepts
it. The transport is asked once, for the bridge's group and the target, with a frame that decodes to
what was to be sent, and its failure is passed on; otherwise it is not asked for anything. -/
theorem send_all_or_nothing (b : Bridge) (t : Transport τ) (payload : ByteArray) (target : Target)
    (s : τ) (asked : List Transport.Demand) :
    let frame := (b.wrapped payload target).framed
    let given := t.send b.group.id target frame s
    let outcome := b.send t.watched payload target (s, asked)
    (outcome.1, outcome.2.1) = b.send t payload target s ∧
      (outcome.1 = .ok () ↔
        b.group.Reaches target ∧ frame.size ≤ maxEnvelopeSize ∧ given.1 = .ok ()) ∧
      (b.group.Reaches target → frame.size ≤ maxEnvelopeSize →
        outcome.2 = (given.2, asked ++ [.send b.group.id target frame]) ∧
          Envelope.decode frame =
            .ok (.protocol ⟨b.group.localMember, payload, decide (target = .everyone)⟩) ∧
          ∀ e, outcome.1 = .error e ↔ ∃ fault, given.1 = .error fault ∧ e = .transport fault) ∧
      (b.group.Reaches target → maxEnvelopeSize < frame.size →
        outcome = (.error (.codec (.envelopeTooLarge frame.size)), s, asked)) ∧
      ∀ m, target = .only m → ¬ b.group.Reaches target →
        outcome = (.error (.unexpectedMessage (.notAPeer m b.group.id)), s, asked) := by
  intro frame given outcome
  refine ⟨send_watched b t payload target s asked, send_eq_ok_iff, ?_, send_of_oversized, ?_⟩
  · intro hreaches hfits
    have houtcome : outcome =
        (given.1.mapError .transport, given.2, asked ++ [.send b.group.id target frame]) :=
      send_of_fits hreaches hfits
    rw [houtcome]
    exact ⟨rfl, Envelope.decode_eq_ok_iff.mpr ⟨hfits, rfl⟩, fun e => mapError_eq_error_iff⟩
  · rintro m rfl hreaches
    exact send_of_not_reaches hreaches

end Bridge

end ThresholdSigning
