import ThresholdSigning.Proofs.Signals
import Mathlib.Data.List.Basic

namespace ThresholdSigning

theorem filterMap_concat {α β : Type} (f : α → Option β) (xs : List α) (x : α) :
    (xs ++ [x]).filterMap f = xs.filterMap f ++ (f x).toList := by
  simp only [List.filterMap_eq_flatMap_toList, List.flatMap_append, List.flatMap_cons,
    List.flatMap_nil, List.append_nil]

/-- The signal that inbound bytes are in the eyes of a group's local member. -/
def Group.signal? (g : Group) (inbound : Inbound) : Option Signal :=
  if inbound.group = g.id ∧ g.isPeer inbound.sender = true then
    match Envelope.decode inbound.bytes with
    | .ok (.join sender) => if sender = inbound.sender then some (.join sender) else none
    | .ok (.announce sender) => if sender = inbound.sender then some (.announce sender) else none
    | _ => none
  else none

theorem Group.signal?_eq_some_iff {g : Group} {inbound : Inbound} {signal : Signal} :
    g.signal? inbound = some signal ↔ g.Hears inbound signal := by
  unfold signal?
  constructor
  · intro h
    split at h
    next hfrom =>
      split at h
      next sender hdecode =>
        split at h
        next hsender =>
          cases h
          exact ⟨hfrom.1, hfrom.2, hdecode, hsender⟩
        next => cases h
      next sender hdecode =>
        split at h
        next hsender =>
          cases h
          exact ⟨hfrom.1, hfrom.2, hdecode, hsender⟩
        next => cases h
      next => cases h
    next => cases h
  · rintro ⟨hgroup, hpeer, hdecode, hsender⟩
    cases signal with
    | join sender =>
      have hdecode : Envelope.decode inbound.bytes = .ok (.join sender) := hdecode
      have hsender : sender = inbound.sender := hsender
      simp only [hgroup, hpeer, and_self, if_true, hdecode, hsender]
    | announce sender =>
      have hdecode : Envelope.decode inbound.bytes = .ok (.announce sender) := hdecode
      have hsender : sender = inbound.sender := hsender
      simp only [hgroup, hpeer, and_self, if_true, hdecode, hsender]

theorem Group.signal?_eq_none_iff {g : Group} {inbound : Inbound} :
    g.signal? inbound = none ↔ ∀ signal, ¬ g.Hears inbound signal := by
  simp only [Option.eq_none_iff_forall_ne_some, ne_eq, Group.signal?_eq_some_iff]

/-- A signal is no round message. -/
theorem Group.Hears.roundMessage?_eq_none {g : Group} {inbound : Inbound} {signal : Signal}
    (h : g.Hears inbound signal) : g.roundMessage? inbound = none := by
  rw [Option.eq_none_iff_forall_ne_some]
  intro m hm
  have hdecode := h.decode.symm.trans (Group.roundMessage?_eq_some_iff.mp hm).2.2.2.1
  cases signal <;> cases hdecode

/-- What can become of an envelope. -/
inductive Fate
  | delivery (m : ProtocolMessage)
  | signal (signal : Signal)
  | discard (reason : Error)

/-- An envelope that a bridge has taken, with the bridge before and after that, the event that it
left and the sends that it asks for. -/
structure Note where
  inbound : Inbound
  before : Bridge
  after : Bridge
  event : Option Event
  asked : List Draft

namespace Note

/-- The fate of an envelope, with all that it means to anyone. -/
inductive Settles (e : Note) : Fate → Prop
  | delivery {m : ProtocolMessage}
      (hround : e.before.group.roundMessage? e.inbound = some m)
      (hnew : m.fingerprint ∉ e.before.delivered)
      (hafter : e.after = { e.before with
        delivered := m.fingerprint :: e.before.delivered, messages := e.before.messages ++ [m] })
      (hevent : e.event = none) (hasked : e.asked = []) : e.Settles (.delivery m)
  | signal {signal : Signal} (hears : e.before.group.Hears e.inbound signal)
      (hafter : e.after = e.before.signal signal) (hevent : e.event = none)
      (hasked : (∃ sender, signal = .join sender) ∧
          e.asked = [⟨e.before.group.id, .everyone, e.before.announce⟩] ∨
        (∃ sender, signal = .announce sender) ∧ e.asked = []) : e.Settles (.signal signal)
  | discard {reason : Error} {event : Event} (hscreen : e.before.screen e.inbound = .error reason)
      (hafter : e.after = e.before) (hasked : e.asked = []) (hevent : e.event = some event)
      (hkind : event.kind = .messageDropped) (hgroup : event.correlationId = some e.before.group.id)
      (hsender : event.context.lookup? "sender" = some e.inbound.sender.text)
      (hreason : event.error = some reason.message) : e.Settles (.discard reason)

/-- What an envelope adds to the stream of protocol messages. -/
def delivered? (e : Note) : Option ProtocolMessage := e.before.fresh? e.inbound

def signal? (e : Note) : Option Signal := e.before.group.signal? e.inbound

/-- What an envelope adds to the queue of signals, which is nothing if the queue is full. -/
def kept? (e : Note) : Option Signal :=
  if e.before.signals.length < signalCapacity then e.signal? else none

variable {e : Note} {fate fate' : Fate}

theorem Settles.unique (h : e.Settles fate) (h' : e.Settles fate') : fate' = fate := by
  cases h with
  | delivery hround _ _ hevent _ =>
    cases h' with
    | delivery hround' _ _ _ _ =>
      cases hround.symm.trans hround'
      rfl
    | signal hears _ _ _ => cases hround.symm.trans hears.roundMessage?_eq_none
    | discard _ _ _ hevent' _ _ _ _ => cases hevent.symm.trans hevent'
  | signal hears _ hevent _ =>
    cases h' with
    | delivery hround _ _ _ _ => cases hround.symm.trans hears.roundMessage?_eq_none
    | signal hears' _ _ _ => rw [hears.unique hears']
    | discard _ _ _ hevent' _ _ _ _ => cases hevent.symm.trans hevent'
  | discard hscreen _ _ hevent _ _ _ _ =>
    cases h' with
    | delivery _ _ _ hevent' _ => cases hevent.symm.trans hevent'
    | signal _ _ hevent' _ => cases hevent.symm.trans hevent'
    | discard hscreen' _ _ _ _ _ _ _ =>
      cases hscreen.symm.trans hscreen'
      rfl

theorem delivered?_of_hears {signal : Signal} (h : e.before.group.Hears e.inbound signal) :
    e.delivered? = none := by
  rw [delivered?, Bridge.fresh?, h.roundMessage?_eq_none, Option.filter_none]

/-- What is discarded is neither a signal nor a message that the bridge has not seen. -/
theorem nothing_of_screen {reason : Error} (h : e.before.screen e.inbound = .error reason) :
    e.delivered? = none ∧ e.signal? = none := by
  constructor
  · rw [Option.eq_none_iff_forall_ne_some]
    intro m hm
    cases h.symm.trans (Bridge.screen_eq_protocol_iff.mpr hm)
  · rw [signal?, Group.signal?_eq_none_iff]
    intro signal hears
    cases h.symm.trans (Bridge.screen_of_hears hears)

/-- Of a delivery, a signal and an event there is exactly one. -/
theorem Settles.count (h : e.Settles fate) :
    e.delivered?.toList.length + e.signal?.toList.length + e.event.toList.length = 1 := by
  cases h with
  | @delivery m hround hnew _ hevent _ =>
    have hdelivered : e.delivered? = some m := by
      rw [delivered?, Bridge.fresh?, hround]
      simp [hnew]
    have hdeaf : e.signal? = none := by
      rw [signal?, Group.signal?_eq_none_iff]
      intro signal hears
      cases hround.symm.trans hears.roundMessage?_eq_none
    simp only [hdelivered, hdeaf, hevent, Option.toList_some, Option.toList_none, List.length_cons,
      List.length_nil]
  | signal hears _ hevent _ =>
    have hsignal := Group.signal?_eq_some_iff.mpr hears
    simp only [delivered?_of_hears hears, signal?, hsignal, hevent, Option.toList_some,
      Option.toList_none, List.length_cons, List.length_nil]
  | discard hscreen _ _ hevent _ _ _ _ =>
    obtain ⟨hnone, hdeaf⟩ := nothing_of_screen hscreen
    simp only [hnone, hdeaf, hevent, Option.toList_some, Option.toList_none, List.length_cons,
      List.length_nil]

end Note

variable {τ : Type}

namespace Bridge

variable {b : Bridge} {t : Transport τ} {s : τ} {inbound : Inbound}

/-- What is noted of an envelope that a bridge takes. -/
def note (b : Bridge) (t : Transport τ) (inbound : Inbound) (s : τ) : Note :=
  let taken := b.dispatch t.drafting inbound (s, [])
  ⟨inbound, b, taken.2.1, taken.1, taken.2.2.2⟩

theorem note_settles (b : Bridge) (t : Transport τ) (inbound : Inbound) (s : τ) :
    ∃ fate, (b.note t inbound s).Settles fate := by
  unfold note dispatch
  cases hscreen : b.screen inbound with
  | error reason => exact ⟨.discard reason, .discard hscreen rfl rfl rfl rfl rfl rfl rfl⟩
  | ok e =>
    cases e with
    | protocol m =>
      have hfresh := screen_eq_protocol_iff.mp hscreen
      obtain ⟨hround, hnew⟩ := Option.filter_eq_some_iff.mp hfresh
      exact ⟨.delivery m, .delivery hround (by simpa using hnew) rfl rfl rfl⟩
    | join sender =>
      exact ⟨.signal (.join sender),
        .signal (hears_of_screen hscreen) rfl rfl (Or.inl ⟨⟨sender, rfl⟩, rfl⟩)⟩
    | announce sender =>
      exact ⟨.signal (.announce sender),
        .signal (hears_of_screen hscreen) rfl rfl (Or.inr ⟨⟨sender, rfl⟩, rfl⟩)⟩

/-- An envelope changes nothing of a bridge but what it has delivered and what waits at it. -/
theorem note_kept (b : Bridge) (t : Transport τ) (inbound : Inbound) (s : τ) :
    (b.note t inbound s).after.group = b.group ∧
      (b.note t inbound s).after.subscription = b.subscription ∧
      (b.note t inbound s).after.announce = b.announce ∧
      (b.note t inbound s).after.isOpen = b.isOpen :=
  (dispatches b t.drafting inbound (s, [])).kept

theorem messages_note (b : Bridge) (t : Transport τ) (inbound : Inbound) (s : τ) :
    (b.note t inbound s).after.messages =
      b.messages ++ (b.note t inbound s).delivered?.toList := by
  obtain ⟨signals, he⟩ := dispatch_bridge_eq b t.drafting inbound (s, [])
  exact congrArg Bridge.messages he

theorem signals_note (b : Bridge) (t : Transport τ) (inbound : Inbound) (s : τ) :
    (b.note t inbound s).after.signals = b.signals ++ (b.note t inbound s).kept?.toList := by
  have hbefore : (b.note t inbound s).before = b := rfl
  obtain ⟨fate, hfate⟩ := b.note_settles t inbound s
  unfold Note.kept? Note.signal?
  cases hfate with
  | delivery hround _ hafter _ _ =>
    have hdeaf : b.group.signal? inbound = none := by
      rw [Group.signal?_eq_none_iff]
      intro signal hears
      cases hround.symm.trans hears.roundMessage?_eq_none
    rw [hafter, hbefore]
    simp [note, hdeaf]
  | signal hears hafter _ _ =>
    rw [hafter, Group.signal?_eq_some_iff.mpr hears, hbefore]
    unfold Bridge.signal
    split
    next => rfl
    next => simp
  | discard hscreen hafter _ _ _ _ _ _ =>
    have hdeaf := (Note.nothing_of_screen hscreen).2
    rw [Note.signal?] at hdeaf
    rw [hafter, hdeaf, hbefore]
    simp

end Bridge

/-- A bridge at work, with all that it has done since it was connected. Its dispatcher can be in the
middle of an answer, which it owes. -/
structure Logbook (τ : Type) where
  bridge : Bridge
  state : τ
  owed : List Draft
  notes : List Note
  /-- What the transport was asked to send for the dispatcher. -/
  posted : List Draft
  /-- The signals that were read. -/
  heeded : List Signal
  /-- The protocol messages that were read. -/
  read : List ProtocolMessage
  /-- It was closed, or what comes in has ended. -/
  ended : Bool

namespace Logbook

/-- What can happen next; who reads the queues does so at any time, also during an answer. -/
inductive Move (τ : Type)
  /-- The dispatcher takes the next that comes in, up to the answer. -/
  | take
  | answer
  | heed
  | read
  | close
  /-- Others use the transport. -/
  | others (state : τ)

def start (b : Bridge) (s : τ) : Logbook τ where
  bridge := b
  state := s
  owed := []
  notes := []
  posted := []
  heeded := []
  read := []
  ended := false

def enter (x : Logbook τ) (e : Note) (s : τ) : Logbook τ :=
  { x with bridge := e.after, state := s, owed := e.asked, notes := x.notes ++ [e] }

def close (x : Logbook τ) (t : Transport τ) (s : τ) : Logbook τ :=
  { x with bridge := (x.bridge.close t s).1, state := (x.bridge.close t s).2, ended := true }

def take (x : Logbook τ) (t : Transport τ) : Logbook τ :=
  if x.owed = [] ∧ x.bridge.isOpen = true then
    match t.receive x.bridge.subscription x.state with
    | (.envelope inbound, s) => x.enter (x.bridge.note t inbound s) s
    | (.nothing, _) => x
    | (.closed, s) => x.close t s
  else x

def answer (x : Logbook τ) (t : Transport τ) : Logbook τ :=
  match x.owed with
  | [] => x
  | d :: owed => { x with owed := owed, posted := x.posted ++ [d], state := t.post d x.state }

def heed (x : Logbook τ) : Logbook τ :=
  match x.bridge.signals with
  | [] => x
  | signal :: signals =>
    { x with bridge := { x.bridge with signals := signals }, heeded := x.heeded ++ [signal] }

def readNext (x : Logbook τ) : Logbook τ :=
  match x.bridge.messages with
  | [] => x
  | m :: messages =>
    { x with bridge := { x.bridge with messages := messages }, read := x.read ++ [m] }

/-- A move that is impossible changes nothing. A dispatcher stops only between two envelopes. -/
def step (t : Transport τ) (x : Logbook τ) : Move τ → Logbook τ
  | .take => x.take t
  | .answer => x.answer t
  | .heed => x.heed
  | .read => x.readNext
  | .close => if x.owed = [] then x.close t x.state else x
  | .others s => { x with state := s }

def run (t : Transport τ) (x : Logbook τ) (moves : List (Move τ)) : Logbook τ :=
  moves.foldl (step t) x

/-- The logbook of a bridge that was connected for a group, at any later time. -/
def Kept (g : Group) (t : Transport τ) (x : Logbook τ) : Prop :=
  ∃ s left b moves, Bridge.connect g t s = (.ok b, left) ∧ x = run t (start b left) moves

/-- What the bridge has taken, in order. -/
def taken (x : Logbook τ) : List Inbound := x.notes.map Note.inbound

/-- All protocol messages that were delivered, read or not. -/
def stream (x : Logbook τ) : List ProtocolMessage := x.read ++ x.bridge.messages

/-- All signals that passed the screening, whether or not there was room for them. -/
def accepted (x : Logbook τ) : List Signal := x.notes.filterMap Note.signal?

def events (x : Logbook τ) : List Event := x.notes.filterMap Note.event

/-- All that a logbook adds up to. -/
structure Sound (g : Group) (x : Logbook τ) : Prop where
  group : x.bridge.group = g
  announce : (Envelope.announce g.localMember).encode = .ok x.bridge.announce
  isOpen : x.bridge.isOpen = !x.ended
  notes : ∀ e ∈ x.notes, e.before.group = g ∧ e.before.announce = x.bridge.announce ∧
    e.after.isOpen = true ∧ ∃ fate, e.Settles fate
  owed : x.owed.length ≤ 1
  posted : x.posted ++ x.owed = x.notes.flatMap Note.asked
  queue : x.heeded ++ x.bridge.signals = x.notes.filterMap Note.kept?
  room : x.bridge.signals.length ≤ signalCapacity
  stream : x.stream = x.notes.filterMap Note.delivered?
  screened : x.bridge.Screened x.taken x.stream

variable {g : Group} {t : Transport τ} {x : Logbook τ} {s left : τ} {b : Bridge}

theorem sound_start (h : Bridge.connect g t s = (.ok b, left)) : (start b left).Sound g := by
  obtain ⟨-, he, -, hannounce⟩ := Bridge.connect_eq_ok h
  have hscreened : b.Screened [] [] := by
    rw [he]
    exact Bridge.screened_create g b.subscription b.announce
  have hsignals : b.signals = [] := by rw [he]; rfl
  have hmessages : b.messages = [] := by rw [he]; rfl
  constructor
  · exact (congrArg Bridge.group he).trans rfl
  · exact hannounce
  · exact (congrArg Bridge.isOpen he).trans rfl
  · intro e he
    cases he
  · exact Nat.zero_le 1
  · rfl
  · exact hsignals
  · simp only [start, hsignals, List.length_nil, Nat.zero_le]
  · exact hmessages
  · have hstream : (start b left).stream = [] := hmessages
    rw [hstream]
    exact hscreened

theorem taken_enter (x : Logbook τ) (e : Note) (s : τ) :
    (x.enter e s).taken = x.taken ++ [e.inbound] := by
  simp only [taken, enter, List.map_append, List.map_cons, List.map_nil]

theorem events_enter (x : Logbook τ) (e : Note) (s : τ) :
    (x.enter e s).events = x.events ++ e.event.toList := by
  simp only [events, enter, filterMap_concat]

theorem stream_enter (x : Logbook τ) (t : Transport τ) (inbound : Inbound) (s : τ) :
    (x.enter (x.bridge.note t inbound s) s).stream =
      x.stream ++ (x.bridge.note t inbound s).delivered?.toList := by
  simp only [stream, enter, Bridge.messages_note, List.append_assoc]

theorem Sound.enter (h : x.Sound g) (howed : x.owed = []) (hopen : x.bridge.isOpen = true)
    (t : Transport τ) (inbound : Inbound) (s : τ) :
    (x.enter (x.bridge.note t inbound s) s).Sound g := by
  obtain ⟨hgroup, -, hannounce, hstill⟩ := x.bridge.note_kept t inbound s
  have hposted := h.posted
  rw [howed, List.append_nil] at hposted
  constructor
  · exact hgroup.trans h.group
  · simp only [Logbook.enter, hannounce]
    exact h.announce
  · simp only [Logbook.enter, hstill]
    exact h.isOpen
  · intro e he
    simp only [Logbook.enter, hannounce]
    rcases List.mem_append.mp he with hold | hnew
    · exact h.notes e hold
    · rw [List.mem_singleton.mp hnew]
      exact ⟨h.group, rfl, hstill.trans hopen, x.bridge.note_settles t inbound s⟩
  · obtain ⟨fate, hfate⟩ := x.bridge.note_settles t inbound s
    simp only [Logbook.enter]
    cases hfate with
    | delivery _ _ _ _ hasked => simp [hasked]
    | signal _ _ _ hasked => rcases hasked with ⟨-, hasked⟩ | ⟨-, hasked⟩ <;> simp [hasked]
    | discard _ _ hasked _ _ _ _ _ => simp [hasked]
  · simp only [Logbook.enter, List.flatMap_append, List.flatMap_cons, List.flatMap_nil,
      List.append_nil, hposted]
  · simp only [Logbook.enter, filterMap_concat, ← h.queue, Bridge.signals_note, List.append_assoc]
  · have hroom := h.room
    simp only [Logbook.enter, Bridge.signals_note, List.length_append]
    unfold Note.kept?
    split
    next hless =>
      have hless : x.bridge.signals.length < signalCapacity := hless
      have hone (o : Option Signal) : o.toList.length ≤ 1 := by cases o <;> simp
      have := hone (x.bridge.note t inbound s).signal?
      omega
    next => simpa using hroom
  · rw [stream_enter, h.stream]
    simp only [Logbook.enter, filterMap_concat]
  · rw [stream_enter, taken_enter]
    exact h.screened.dispatch t.drafting inbound (s, [])

theorem Sound.close (h : x.Sound g) (t : Transport τ) (s : τ) : (x.close t s).Sound g := by
  have hclose : (x.close t s).bridge = { x.bridge with isOpen := false } := Bridge.close_eq
  constructor
  · rw [hclose]
    exact h.group
  · rw [hclose]
    exact h.announce
  · rw [hclose]
    rfl
  · rw [hclose]
    exact h.notes
  · exact h.owed
  · exact h.posted
  · rw [hclose]
    exact h.queue
  · rw [hclose]
    exact h.room
  · rw [Logbook.stream, hclose]
    exact h.stream
  · rw [Logbook.stream, hclose]
    exact h.screened.of_eq rfl rfl

theorem Sound.take (h : x.Sound g) (t : Transport τ) : (x.take t).Sound g := by
  unfold Logbook.take
  split
  next hfree =>
    split
    next inbound s _ => exact h.enter hfree.1 hfree.2 t inbound s
    next => exact h
    next s _ => exact h.close t s
  next => exact h

theorem Sound.answer (h : x.Sound g) (t : Transport τ) : (x.answer t).Sound g := by
  unfold Logbook.answer
  split
  next => exact h
  next d owed howed =>
    have hposted := h.posted
    have hfew := h.owed
    rw [howed] at hposted hfew
    refine { h with owed := ?_, posted := ?_ }
    · exact Nat.le_of_succ_le hfew
    · simpa using hposted

theorem Sound.heed (h : x.Sound g) : x.heed.Sound g := by
  unfold Logbook.heed
  split
  next => exact h
  next signal signals hsignals =>
    have hqueue := h.queue
    have hroom := h.room
    rw [hsignals] at hqueue hroom
    refine ⟨h.group, h.announce, h.isOpen, h.notes, h.owed, h.posted, ?_, ?_, h.stream,
      h.screened.of_eq rfl rfl⟩
    · simpa using hqueue
    · exact Nat.le_of_succ_le hroom

theorem Sound.readNext (h : x.Sound g) : x.readNext.Sound g := by
  unfold Logbook.readNext
  split
  next => exact h
  next m messages hmessages =>
    have hstream := h.stream
    have hscreened := h.screened
    rw [Logbook.stream, hmessages] at hstream hscreened
    refine ⟨h.group, h.announce, h.isOpen, h.notes, h.owed, h.posted, h.queue, h.room, ?_, ?_⟩
    · simpa [Logbook.stream] using hstream
    · have hsame : Bridge.Screened { x.bridge with messages := messages } x.taken
          (x.read ++ m :: messages) := hscreened.of_eq rfl rfl
      simpa [Logbook.stream, taken] using hsame

theorem Sound.step (h : x.Sound g) (t : Transport τ) (move : Move τ) : (x.step t move).Sound g := by
  cases move with
  | take => exact h.take t
  | answer => exact h.answer t
  | heed => exact h.heed
  | read => exact h.readNext
  | close =>
    simp only [Logbook.step]
    split
    next => exact h.close t x.state
    next => exact h
  | others s => exact { h with }

theorem Kept.sound (h : x.Kept g t) : x.Sound g := by
  obtain ⟨s, left, b, moves, hconnect, rfl⟩ := h
  induction moves using List.reverseRecOn with
  | nil => exact sound_start hconnect
  | append_singleton moves move ih =>
    rw [run, List.foldl_append]
    exact ih.step t move

theorem Sound.accepted_eq (h : x.Sound g) : x.accepted = x.taken.filterMap g.signal? := by
  rw [accepted, taken, List.filterMap_map]
  refine List.filterMap_congr fun e he => ?_
  rw [Note.signal?, (h.notes e he).1]
  rfl

/-- What is delivered depends on what was taken, and on nothing else. -/
theorem Sound.stream_eq (h : x.Sound g) :
    x.stream = firstBy ProtocolMessage.fingerprint (x.taken.filterMap g.roundMessage?) := by
  rw [h.screened.stream_eq, h.group]

/-- Every envelope counts once. -/
theorem Sound.count (h : x.Sound g) :
    x.stream.length + x.accepted.length + x.events.length = x.notes.length := by
  have hcount : ∀ notes : List Note, (∀ e ∈ notes, ∃ fate, e.Settles fate) →
      (notes.filterMap Note.delivered?).length + (notes.filterMap Note.signal?).length +
        (notes.filterMap Note.event).length = notes.length := by
    intro notes
    induction notes using List.reverseRecOn with
    | nil => exact fun _ => rfl
    | append_singleton notes e ih =>
      intro hsettles
      obtain ⟨fate, hfate⟩ := hsettles e (by simp)
      have hone := hfate.count
      have hrest := ih fun e he => hsettles e (List.mem_append_left _ he)
      simp only [filterMap_concat, List.length_append, List.length_cons, List.length_nil]
      omega
  rw [h.stream]
  exact hcount x.notes fun e he => (h.notes e he).2.2.2

theorem Sound.owed_answer (h : x.Sound g) (t : Transport τ) :
    (x.answer t).owed = [] ∧ (x.answer t).bridge = x.bridge := by
  have hfew := h.owed
  unfold Logbook.answer
  split
  next howed => exact ⟨howed, rfl⟩
  next d owed howed =>
    rw [howed] at hfew
    exact ⟨List.length_eq_zero_iff.mp (Nat.le_zero.mp (Nat.le_of_succ_le_succ hfew)), rfl⟩

theorem take_of_envelope {inbound : Inbound} (howed : x.owed = []) (hopen : x.bridge.isOpen = true)
    (hreceive : t.receive x.bridge.subscription x.state = (.envelope inbound, s)) :
    x.take t = x.enter (x.bridge.note t inbound s) s := by
  simp only [take, howed, hopen, and_self, if_true, hreceive]

theorem answer_of_nothing (howed : x.owed = []) : x.answer t = x := by
  simp only [answer, howed]

/-- What a dispatcher does that does not stop over an answer: nothing, or one step. -/
def Performs (t : Transport τ) (x y : Logbook τ) : Prop :=
  match x.bridge.step t x.state with
  | none => y = x
  | some (event, b, s) => y.bridge = b ∧ y.state = s ∧ y.events = x.events ++ event.toList

/-- To take an envelope and then to answer it is one step of the bridge. -/
theorem performs_answer_take (t : Transport τ) (howed : x.owed = []) :
    x.Performs t ((x.take t).answer t) := by
  unfold Performs
  by_cases hopen : x.bridge.isOpen = true
  · rcases hreceive : t.receive x.bridge.subscription x.state with ⟨arrival, s⟩
    cases arrival with
    | nothing =>
      have htake : x.take t = x := by simp only [take, howed, hopen, and_self, if_true, hreceive]
      rw [Bridge.step_of_nothing hopen hreceive, htake]
      exact answer_of_nothing howed
    | closed =>
      have htake : x.take t = x.close t s := by
        simp only [take, howed, hopen, and_self, if_true, hreceive]
      rw [Bridge.step_of_end hopen hreceive, htake, answer_of_nothing (x := x.close t s) howed]
      exact ⟨rfl, rfl, (List.append_nil _).symm⟩
    | envelope inbound =>
      obtain ⟨drafts, hdraft, hleft, hdrafts⟩ := x.bridge.dispatch_drafting t inbound s
      have hnote : x.bridge.note t inbound s =
          ⟨inbound, x.bridge, (x.bridge.dispatch t inbound s).2.1,
            (x.bridge.dispatch t inbound s).1, drafts⟩ := by
        simp only [Bridge.note, hdraft]
      rw [Bridge.step_of_envelope hopen hreceive, take_of_envelope howed hopen hreceive, hnote]
      rcases hdrafts with rfl | rfl
      · exact ⟨rfl, hleft.symm, events_enter x _ s⟩
      · exact ⟨rfl, hleft.symm, events_enter x _ s⟩
  · have htake : x.take t = x := if_neg fun hfree => hopen hfree.2
    rw [Bridge.step_of_closed (by simpa using hopen), htake]
    exact answer_of_nothing howed

theorem answer_eq (x : Logbook τ) (t : Transport τ) :
    ∃ owed posted state,
      x.answer t = { x with owed := owed, posted := posted, state := state } := by
  unfold answer
  split
  next => exact ⟨_, _, _, rfl⟩
  next => exact ⟨_, _, _, rfl⟩

/-- What waits is read by no other move, and only gets more. -/
theorem heeded_step (move : Move τ) (h : move ≠ .heed) :
    (x.step t move).heeded = x.heeded ∧ x.bridge.signals <+: (x.step t move).bridge.signals := by
  have hclose (s : τ) : (x.close t s).heeded = x.heeded ∧
      x.bridge.signals <+: (x.close t s).bridge.signals := by
    rw [close, Bridge.close_eq]
    exact ⟨rfl, List.prefix_refl _⟩
  cases move with
  | take =>
    simp only [step, take]
    split
    next =>
      split
      next inbound s _ =>
        rw [enter, Bridge.signals_note]
        exact ⟨rfl, List.prefix_append _ _⟩
      next => exact ⟨rfl, List.prefix_refl _⟩
      next s _ => exact hclose s
    next => exact ⟨rfl, List.prefix_refl _⟩
  | answer =>
    obtain ⟨owed, posted, state, he⟩ := x.answer_eq t
    rw [step, he]
    exact ⟨rfl, List.prefix_refl _⟩
  | heed => exact absurd rfl h
  | read =>
    simp only [step, readNext]
    split
    next => exact ⟨rfl, List.prefix_refl _⟩
    next => exact ⟨rfl, List.prefix_refl _⟩
  | close =>
    simp only [step]
    split
    next => exact hclose x.state
    next => exact ⟨rfl, List.prefix_refl _⟩
  | others s => exact ⟨rfl, List.prefix_refl _⟩

theorem inbox_answer (x : Logbook Link) (m : MemberId) :
    (x.answer (Link.transport m)).state.inbox = x.state.inbox := by
  unfold answer
  split
  next => rfl
  next =>
    simp only [Transport.post, Link.transport]
    split <;> rfl

/-- A link that was fed any list makes a bridge take that list. -/
theorem taken_run_link {x : Logbook Link} (h : x.Sound g) (howed : x.owed = [])
    (hopen : x.bridge.isOpen = true) (m : MemberId) :
    (x.run (Link.transport m)
        (List.replicate x.state.inbox.length [Move.take, Move.answer]).flatten).taken =
      x.taken ++ x.state.inbox := by
  generalize hn : x.state.inbox.length = n
  induction n generalizing x with
  | zero => simp [run, List.length_eq_zero_iff.mp hn]
  | succ n ih =>
    obtain ⟨inbound, inbox, hinbox⟩ := List.exists_cons_of_length_eq_add_one hn
    obtain ⟨left, hreceive, hrest⟩ : ∃ left,
        (Link.transport m).receive x.bridge.subscription x.state = (.envelope inbound, left) ∧
          left.inbox = inbox :=
      ⟨{ x.state with inbox := inbox }, by simp only [Link.transport, hinbox], rfl⟩
    have htake := take_of_envelope howed hopen hreceive
    have hsound := h.take (Link.transport m)
    obtain ⟨hfree, hbridge⟩ := hsound.owed_answer (Link.transport m)
    have hstill : ((x.take (Link.transport m)).answer (Link.transport m)).bridge.isOpen = true := by
      rw [hbridge, htake]
      exact (x.bridge.note_kept (Link.transport m) inbound left).2.2.2.trans hopen
    have hleft : ((x.take (Link.transport m)).answer (Link.transport m)).state.inbox = inbox := by
      rw [inbox_answer, htake]
      exact hrest
    have htaken : ((x.take (Link.transport m)).answer (Link.transport m)).taken =
        x.taken ++ [inbound] := by
      obtain ⟨owed, posted, state, he⟩ := (x.take (Link.transport m)).answer_eq (Link.transport m)
      rw [he, htake]
      exact taken_enter x (x.bridge.note (Link.transport m) inbound left) left
    have hlen : inbox.length = n := by simpa [hinbox] using hn
    have hlast := ih (hsound.answer (Link.transport m)) hfree hstill (by rw [hleft]; exact hlen)
    rw [hleft, htaken] at hlast
    rw [List.replicate_succ, List.flatten_cons, hinbox, List.append_cons, ← hlast]
    rfl

/-- Each envelope that a bridge has taken has one fate, and deliveries, accepted signals and events
add up to what was taken. The dispatcher goes on until it is closed or nothing more comes in: its
next step takes what is there, and it can be made to take any list. -/
theorem Kept.adds_up (h : x.Kept g t) :
    (∀ e ∈ x.notes, e.before.group = g ∧ ∃! fate, e.Settles fate) ∧
      x.stream.length + x.accepted.length + x.events.length = x.taken.length ∧
      (∀ e ∈ x.notes, e.after.isOpen = true) ∧ x.bridge.isOpen = !x.ended ∧
      (x.owed = [] → x.Performs t ((x.take t).answer t) ∧
        ∀ inbound s, x.ended = false →
          t.receive x.bridge.subscription x.state = (.envelope inbound, s) →
            (x.take t).taken = x.taken ++ [inbound]) ∧
      ∀ (b : Bridge) (l left : Link) (m : MemberId),
        Bridge.connect g (Link.transport m) l = (.ok b, left) →
          ((start b left).run (Link.transport m)
            (List.replicate left.inbox.length [.take, .answer]).flatten).taken = left.inbox := by
  have hsound := h.sound
  refine ⟨?_, ?_, fun e he => (hsound.notes e he).2.2.1, hsound.isOpen, ?_, ?_⟩
  · intro e he
    obtain ⟨hgroup, -, -, fate, hfate⟩ := hsound.notes e he
    exact ⟨hgroup, fate, hfate, fun fate' hfate' => hfate.unique hfate'⟩
  · rw [hsound.count, taken, List.length_map]
  · intro howed
    refine ⟨performs_answer_take t howed, fun inbound s hgoing hreceive => ?_⟩
    have hopen : x.bridge.isOpen = true := by rw [hsound.isOpen, hgoing]; rfl
    rw [take_of_envelope howed hopen hreceive]
    exact taken_enter x _ _
  · intro b l left m hconnect
    have hopen : b.isOpen = true := by rw [(Bridge.connect_eq_ok hconnect).2.1]; rfl
    exact taken_run_link (sound_start hconnect) rfl hopen m

end Logbook

/-- A link that does not refuse can be connected to wherever the announce can be encoded. -/
theorem Bridge.connect_eq_ok_of_link {g : Group} {announce : ByteArray} {l : Link}
    (hopen : l.refusesSubscription = false)
    (hannounce : (Envelope.announce g.localMember).encode = .ok announce) :
    connect g (Link.transport g.localMember) l = (.ok (create g 0 announce), l) := by
  simp [connect, Link.transport, hopen, hannounce]

/-- The bridge of the group of three, over any link that takes a subscription. -/
theorem Screening.connect_of_link {l : Link} (h : l.refusesSubscription = false) :
    Bridge.connect group (Link.transport b) l = (.ok bridge, l) :=
  Bridge.connect_eq_ok_of_link h (Bridge.connect_eq_ok connect_link).2.2.2

namespace LogbookSample

open Screening Logbook

/-- A message and the same again, a join and an announce, and what is discarded: an outsider's
message, an announce in the name of another, bytes that are no envelope, another group. -/
def link : Link := { Link.create b none false with
  inbox := [⟨"g", a, frame a [3]⟩, ⟨"g", a, frame a [3]⟩, ⟨"g", a, (Envelope.join a).framed⟩,
    ⟨"g", ⟨⟨#[120]⟩⟩, frame ⟨⟨#[120]⟩⟩ [1]⟩, ⟨"g", a, (Envelope.announce c).framed⟩,
    ⟨"g", a, ⟨#[0xde, 0xad]⟩⟩, ⟨"h", c, (Envelope.join c).framed⟩,
    ⟨"g", c, (Envelope.announce c).framed⟩] }

def sample : Logbook Link :=
  (start bridge link).run (Link.transport b)
    (List.replicate link.inbox.length [Move.take, Move.answer]).flatten

theorem kept_sample : sample.Kept group (Link.transport b) :=
  ⟨link, link, bridge, _, connect_of_link rfl, rfl⟩

theorem adds_up_sample :
    sample.Kept group (Link.transport b) ∧ (∀ e ∈ sample.notes, ∃! fate, e.Settles fate) ∧
      sample.taken = link.inbox ∧ sample.stream = [said a [3]] ∧
      sample.accepted = [.join a, .announce c] ∧ sample.events.length = 5 := by
  obtain ⟨hfates, hcount, -, -, -, hfeed⟩ := Kept.adds_up kept_sample
  have htaken : sample.taken = link.inbox := hfeed bridge link link b (connect_of_link rfl)
  have hround : link.inbox.filterMap group.roundMessage? = [said a [3], said a [3]] := by
    decide +kernel
  have hsignals : link.inbox.filterMap group.signal? = [.join a, .announce c] := by
    decide +kernel
  have hstream : sample.stream = [said a [3]] := by
    rw [kept_sample.sound.stream_eq, htaken, hround, firstBy_cons,
      List.filter_cons_of_neg (by simp)]
    rfl
  have haccepted : sample.accepted = [.join a, .announce c] := by
    rw [kept_sample.sound.accepted_eq, htaken, hsignals]
  have hlength : link.inbox.length = 8 := rfl
  -- the rest is said of any number, so that none is computed from the run
  have hrest : ∀ n, sample.stream.length + sample.accepted.length + n = sample.taken.length →
      n = 5 := by
    intro n hn
    rw [hstream, haccepted, htaken] at hn
    simp only [List.length_cons, List.length_nil, hlength] at hn
    omega
  exact ⟨kept_sample, fun e he => (hfates e he).2, htaken, hstream, haccepted, hrest _ hcount⟩

end LogbookSample

end ThresholdSigning
