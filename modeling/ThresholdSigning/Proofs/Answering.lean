import ThresholdSigning.Proofs.Logbook
import ThresholdSigning.Proofs.Sending

namespace ThresholdSigning

variable {σ τ : Type} {g : Group} {t : Transport τ}

/-- A join asks for one announce to the group, and nothing else asks for anything. -/
theorem Note.Settles.asked {e : Note} {fate : Fate} (h : e.Settles fate) :
    (∃ sender, e.before.group.Hears e.inbound (.join sender)) ∧
        e.asked = [⟨e.before.group.id, .everyone, e.before.announce⟩] ∨
      (∀ sender, ¬ e.before.group.Hears e.inbound (.join sender)) ∧ e.asked = [] := by
  cases h with
  | delivery hround _ _ _ hasked =>
    refine Or.inr ⟨fun sender hears => ?_, hasked⟩
    cases hround.symm.trans hears.roundMessage?_eq_none
  | signal hears _ _ hasked =>
    rcases hasked with ⟨⟨sender, rfl⟩, hasked⟩ | ⟨⟨sender, rfl⟩, hasked⟩
    · exact Or.inl ⟨⟨sender, hears⟩, hasked⟩
    · refine Or.inr ⟨fun sender' hears' => ?_, hasked⟩
      cases hears.unique hears'
  | discard hscreen _ hasked _ _ _ _ _ =>
    refine Or.inr ⟨fun sender hears => ?_, hasked⟩
    cases hscreen.symm.trans (Bridge.screen_of_hears hears)

/-- What is noted of an envelope is the same over any transport. -/
theorem Bridge.note_eq (b : Bridge) (t : Transport τ) (u : Transport σ) (inbound : Inbound) (s : τ)
    (r : σ) : b.note t inbound s = b.note u inbound r := by
  unfold note dispatch
  cases b.screen inbound with
  | error e => rfl
  | ok e => cases e <;> rfl

/-- The send that is asked for, if any is. -/
def Transport.Demand.draft? : Transport.Demand → Option Draft
  | .send group target bytes => some ⟨group, target, bytes⟩
  | _ => none

@[simp] theorem Transport.Demand.draft?_send (group : String) (target : Target)
    (bytes : ByteArray) : (send group target bytes).draft? = some ⟨group, target, bytes⟩ := rfl

@[simp] theorem Transport.Demand.draft?_receive (id : Nat) : (receive id).draft? = none := rfl

@[simp] theorem Transport.Demand.draft?_release (id : Nat) : (release id).draft? = none := rfl

namespace Logbook

variable {x : Logbook τ}

theorem Sound.asked (h : x.Sound g) {e : Note} (he : e ∈ x.notes) :
    (∃ sender, g.Hears e.inbound (.join sender)) ∧
        e.asked = [⟨g.id, .everyone, x.bridge.announce⟩] ∨
      (∀ sender, ¬ g.Hears e.inbound (.join sender)) ∧ e.asked = [] := by
  obtain ⟨hgroup, hannounce, -, fate, hfate⟩ := h.notes e he
  rw [← hgroup, ← hannounce]
  exact hfate.asked

/-- The signals that were queued are those that found room, in the order in which they came. -/
theorem Sound.queue_eq (h : x.Sound g) :
    x.heeded ++ x.bridge.signals =
      (x.notes.filter (·.before.signals.length < signalCapacity)).filterMap
        (g.signal? ·.inbound) := by
  rw [h.queue, List.filterMap_filter]
  refine List.filterMap_congr fun e he => ?_
  simp only [Note.kept?, Note.signal?, (h.notes e he).1, decide_eq_true_eq]

section Watched

open Transport (Demand)

/-- A logbook over a transport whose record holds what is asked of it for the bridge. Others use the
transport as well, and what they ask for does not go on the record. -/
inductive Watched (g : Group) (t : Transport τ) : Logbook (τ × List Demand) → Prop
  | start {s : τ} {left : τ × List Demand} {b : Bridge}
      (hconnect : Bridge.connect g t.watched (s, []) = (.ok b, left)) : Watched g t (start b left)
  | own {y : Logbook (τ × List Demand)} (h : Watched g t y) (move : Move (τ × List Demand))
      (hown : ∀ p, move ≠ .others p) : Watched g t (y.step t.watched move)
  | others {y : Logbook (τ × List Demand)} (h : Watched g t y) (s : τ) :
      Watched g t (y.step t.watched (.others (s, y.state.2)))

/-- The same logbook, without the record. -/
def forget (y : Logbook (τ × List Demand)) : Logbook τ where
  bridge := y.bridge
  state := y.state.1
  owed := y.owed
  notes := y.notes
  posted := y.posted
  heeded := y.heeded
  read := y.read
  ended := y.ended

def Move.forget : Move (τ × List Demand) → Move τ
  | take => .take
  | answer => .answer
  | heed => .heed
  | read => .read
  | close => .close
  | others p => .others p.1

variable {y : Logbook (τ × List Demand)}

theorem forget_close (y : Logbook (τ × List Demand)) (t : Transport τ) (s : τ)
    (asked : List Demand) : (y.close t.watched (s, asked)).forget = y.forget.close t s := by
  unfold close Bridge.close
  split
  next hopen => simp only [forget, hopen, if_true, Transport.watched]
  next hopen => simp only [forget, hopen, if_false, Bool.false_eq_true]

theorem forget_take (y : Logbook (τ × List Demand)) (t : Transport τ) :
    (y.take t.watched).forget = y.forget.take t := by
  unfold take
  by_cases hfree : y.owed = [] ∧ y.bridge.isOpen = true
  · have hfree' : y.forget.owed = [] ∧ y.forget.bridge.isOpen = true := hfree
    rw [if_pos hfree, if_pos hfree']
    have hreceive : t.watched.receive y.bridge.subscription y.state =
        ((t.receive y.bridge.subscription y.state.1).1,
          (t.receive y.bridge.subscription y.state.1).2,
          y.state.2 ++ [.receive y.bridge.subscription]) := rfl
    have hreceive' : t.receive y.forget.bridge.subscription y.forget.state =
        t.receive y.bridge.subscription y.state.1 := rfl
    rw [hreceive, hreceive']
    rcases t.receive y.bridge.subscription y.state.1 with ⟨arrival, s⟩
    cases arrival with
    | envelope inbound =>
      simp only [enter, forget, Bridge.note_eq y.bridge t.watched t inbound _ s]
    | nothing => rfl
    | closed => exact forget_close y t s _
  · have hbusy : ¬ (y.forget.owed = [] ∧ y.forget.bridge.isOpen = true) := hfree
    rw [if_neg hfree, if_neg hbusy]

theorem Kept.step (h : x.Kept g t) (move : Move τ) : (x.step t move).Kept g t := by
  obtain ⟨s, left, b, moves, hconnect, rfl⟩ := h
  refine ⟨s, left, b, moves ++ [move], hconnect, ?_⟩
  rw [run, run, List.foldl_append]
  rfl

/-- A watched transport is used as one that is not watched. -/
theorem forget_step (y : Logbook (τ × List Demand)) (t : Transport τ)
    (move : Move (τ × List Demand)) :
    (y.step t.watched move).forget = y.forget.step t move.forget := by
  cases move with
  | take => exact forget_take y t
  | answer =>
    rcases howed : y.owed with _ | ⟨d, owed⟩
    · simp only [step, Move.forget, answer, forget, howed]
    · simp only [step, Move.forget, answer, forget, howed, Transport.post, Transport.watched]
  | heed =>
    rcases hsignals : y.bridge.signals with _ | ⟨signal, signals⟩
    · simp only [step, Move.forget, heed, forget, hsignals]
    · simp only [step, Move.forget, heed, forget, hsignals]
  | read =>
    rcases hmessages : y.bridge.messages with _ | ⟨m, messages⟩
    · simp only [step, Move.forget, readNext, forget, hmessages]
    · simp only [step, Move.forget, readNext, forget, hmessages]
  | close =>
    by_cases howed : y.owed = []
    · have howed' : y.forget.owed = [] := howed
      simp only [step, Move.forget, howed, howed', if_true]
      exact forget_close y t y.state.1 y.state.2
    · have howed' : y.forget.owed ≠ [] := howed
      simp only [step, Move.forget, howed, howed', if_false]
  | others p => rfl

theorem Watched.kept (h : y.Watched g t) : y.forget.Kept g t := by
  induction h with
  | @start s left b hconnect =>
    obtain ⟨demands, he, -⟩ := Bridge.connect_watched g t s []
    obtain ⟨hresult, hleft⟩ := Prod.ext_iff.mp (he.symm.trans hconnect)
    exact ⟨s, left.1, b, [], Prod.ext hresult (congrArg Prod.fst hleft), rfl⟩
  | own _ move _ ih =>
    rw [forget_step]
    exact ih.step move.forget
  | others _ s ih =>
    rw [forget_step]
    exact ih.step (.others s)

/-- Whatever a bridge does can be watched. -/
theorem Kept.exists_watched (h : x.Kept g t) : ∃ y, Watched g t y ∧ y.forget = x := by
  obtain ⟨s, left, b, moves, hconnect, rfl⟩ := h
  induction moves using List.reverseRecOn with
  | nil =>
    obtain ⟨demands, he, -⟩ := Bridge.connect_watched g t s []
    rw [hconnect] at he
    exact ⟨_, .start he, rfl⟩
  | append_singleton moves move ih =>
    obtain ⟨y, hy, hforget⟩ := ih
    have hnext {move' : Move (τ × List Demand)} (hmove : move'.forget = move) :
        (y.step t.watched move').forget = run t (start b left) (moves ++ [move]) := by
      rw [forget_step, hforget, hmove, run, run, List.foldl_append]
      rfl
    cases move with
    | take => exact ⟨_, hy.own .take (by simp), hnext rfl⟩
    | answer => exact ⟨_, hy.own .answer (by simp), hnext rfl⟩
    | heed => exact ⟨_, hy.own .heed (by simp), hnext rfl⟩
    | read => exact ⟨_, hy.own .read (by simp), hnext rfl⟩
    | close => exact ⟨_, hy.own .close (by simp), hnext rfl⟩
    | others s => exact ⟨_, hy.others s, hnext rfl⟩

/-- The record of a watched transport holds the sends that were posted. -/
def OnRecord (y : Logbook (τ × List Demand)) : Prop :=
  y.state.2.filterMap Demand.draft? = y.posted

theorem onRecord_close {p : τ × List Demand}
    (hp : p.2.filterMap Demand.draft? = y.posted) : (y.close t.watched p).OnRecord := by
  unfold OnRecord Logbook.close Bridge.close
  split
  next => simp [Transport.watched, hp]
  next => exact hp

theorem OnRecord.take (h : y.OnRecord) (t : Transport τ) : (y.take t.watched).OnRecord := by
  unfold Logbook.take
  split
  next =>
    rcases hreceive : t.watched.receive y.bridge.subscription y.state with ⟨arrival, p⟩
    have hrecord : y.state.2 ++ [.receive y.bridge.subscription] = p.2 :=
      congrArg (fun r => r.2.2) hreceive
    have hp : p.2.filterMap Demand.draft? = y.posted := by
      simp [← hrecord, show y.state.2.filterMap Demand.draft? = y.posted from h]
    cases arrival with
    | envelope inbound => exact hp
    | nothing => exact h
    | closed => exact onRecord_close hp
  next => exact h

theorem OnRecord.step (h : y.OnRecord) (t : Transport τ) {move : Move (τ × List Demand)}
    (hown : ∀ p, move ≠ .others p) : (y.step t.watched move).OnRecord := by
  cases move with
  | take => exact h.take t
  | answer =>
    simp only [Logbook.step, answer]
    split
    next => exact h
    next d owed howed =>
      have hrecord : y.state.2.filterMap Demand.draft? = y.posted := h
      simp [OnRecord, Transport.post, Transport.watched, hrecord]
  | heed =>
    simp only [Logbook.step, heed]
    split
    next => exact h
    next => exact h
  | read =>
    simp only [Logbook.step, readNext]
    split
    next => exact h
    next => exact h
  | close =>
    simp only [Logbook.step]
    split
    next => exact onRecord_close h
    next => exact h
  | others p => exact absurd rfl (hown p)

/-- What is sent for a bridge is what it posts, neither more nor less. -/
theorem Watched.onRecord (h : y.Watched g t) : y.OnRecord := by
  induction h with
  | @start s left b hconnect =>
    obtain ⟨demands, he, hnone⟩ := Bridge.connect_watched g t s []
    have hleft : demands = left.2 :=
      congrArg Prod.snd (Prod.ext_iff.mp (he.symm.trans hconnect)).2
    simp only [OnRecord, Logbook.start, ← hleft, List.filterMap_eq_nil_iff]
    intro demand hdemand
    cases demand with
    | send group target bytes => exact absurd hdemand (hnone group target bytes)
    | _ => rfl
  | own _ _ hown ih => exact ih.step t hown
  | others _ _ ih => exact ih

end Watched

end Logbook

/-- As long as the states of two transports are related, the same comes in under a subscription of
each, whatever comes of what is sent over them. -/
structure Transport.SameArrivals (t : Transport τ) (u : Transport σ) (id id' : Nat)
    (R : τ → σ → Prop) : Prop where
  receive : ∀ {s r}, R s r →
    (t.receive id s).1 = (u.receive id' r).1 ∧ R (t.receive id s).2 (u.receive id' r).2
  post : ∀ {s r} (d : Draft), R s r → R (t.post d s) (u.post d r)
  release : ∀ {s r}, R s r → R (t.release id s) (u.release id' r)

/-- Neither what waits of the signals nor the number of its subscription matters to what else a
bridge makes of an envelope. -/
theorem Bridge.note_restocked (b : Bridge) (t : Transport τ) (inbound : Inbound) (s : τ) (id : Nat)
    (signals : List Signal) :
    let b' := { b with subscription := id, signals := signals }
    (b'.note t inbound s).asked = (b.note t inbound s).asked ∧
      (b'.note t inbound s).after = { (b.note t inbound s).after with
        subscription := id, signals := (b'.note t inbound s).after.signals } := by
  intro b'
  have hscreen : b'.screen inbound = b.screen inbound := rfl
  have hsignal (signal : Signal) : b'.signal signal =
      { b.signal signal with subscription := id, signals := (b'.signal signal).signals } := by
    unfold Bridge.signal
    split <;> split <;> rfl
  unfold note dispatch
  rw [hscreen]
  cases b.screen inbound with
  | error e => exact ⟨rfl, rfl⟩
  | ok e =>
    cases e with
    | protocol m => exact ⟨rfl, rfl⟩
    | join sender => exact ⟨rfl, hsignal (.join sender)⟩
    | announce sender => exact ⟨rfl, hsignal (.announce sender)⟩

namespace Logbook

/-- The same moves on two logbooks, but that the signals of each are read at its own times. -/
inductive SameMoves (R : τ → σ → Prop) : List (Move τ) → List (Move σ) → Prop
  | nil : SameMoves R [] []
  | take {ms ns} (h : SameMoves R ms ns) : SameMoves R (.take :: ms) (.take :: ns)
  | answer {ms ns} (h : SameMoves R ms ns) : SameMoves R (.answer :: ms) (.answer :: ns)
  | read {ms ns} (h : SameMoves R ms ns) : SameMoves R (.read :: ms) (.read :: ns)
  | close {ms ns} (h : SameMoves R ms ns) : SameMoves R (.close :: ms) (.close :: ns)
  | others {ms ns} {s : τ} {r : σ} (hrel : R s r) (h : SameMoves R ms ns) :
      SameMoves R (.others s :: ms) (.others r :: ns)
  | heedLeft {ms ns} (h : SameMoves R ms ns) : SameMoves R (.heed :: ms) ns
  | heedRight {ms ns} (h : SameMoves R ms ns) : SameMoves R ms (.heed :: ns)

/-- Two bridges of one group, for which the same came in and the same was done at the same times.
What came of their announces can differ, and so can when their signals were read. -/
def Beside (g : Group) (t : Transport τ) (u : Transport σ) (x : Logbook τ) (y : Logbook σ) : Prop :=
  ∃ s left b moves s' left' b' moves', ∃ R : τ → σ → Prop,
    Bridge.connect g t s = (.ok b, left) ∧ Bridge.connect g u s' = (.ok b', left') ∧
      t.SameArrivals u b.subscription b'.subscription R ∧ R left left' ∧
      SameMoves R moves moves' ∧
      x = run t (start b left) moves ∧ y = run u (start b' left') moves'

/-- All is the same but what waits for who reads the signals, and what the transports made of it. -/
structure Abreast (id id' : Nat) (R : τ → σ → Prop) (x : Logbook τ) (y : Logbook σ) : Prop where
  number : x.bridge.subscription = id
  bridge : y.bridge = { x.bridge with subscription := id', signals := y.bridge.signals }
  state : R x.state y.state
  taken : y.taken = x.taken
  owed : y.owed = x.owed
  posted : y.posted = x.posted
  read : y.read = x.read
  ended : y.ended = x.ended

variable {u : Transport σ} {y : Logbook σ} {id id' : Nat} {R : τ → σ → Prop}

namespace Abreast

theorem isOpen (h : Abreast id id' R x y) : y.bridge.isOpen = x.bridge.isOpen := by
  rw [h.bridge]

theorem messages (h : Abreast id id' R x y) : y.bridge.messages = x.bridge.messages := by
  rw [h.bridge]

theorem close (h : Abreast id id' R x y) (hsame : t.SameArrivals u id id' R) {s : τ} {r : σ}
    (hrel : R s r) : Abreast id id' R (x.close t s) (y.close u r) := by
  have hopen := h.isOpen
  have hleft : R (x.close t s).state (y.close u r).state := by
    unfold Logbook.close Bridge.close
    by_cases hx : x.bridge.isOpen = true
    · have hid : y.bridge.subscription = id' := by rw [h.bridge]
      rw [if_pos hx, if_pos (hopen.trans hx), h.number, hid]
      exact hsame.release hrel
    · rw [if_neg hx, if_neg (by rw [hopen]; exact hx)]
      exact hrel
  have hx : (x.close t s).bridge = { x.bridge with isOpen := false } := Bridge.close_eq
  have hy : (y.close u r).bridge = { y.bridge with isOpen := false } := Bridge.close_eq
  refine ⟨?_, ?_, hleft, h.taken, h.owed, h.posted, h.read, rfl⟩
  · rw [hx]
    exact h.number
  · rw [hx, hy, h.bridge]

theorem enter (h : Abreast id id' R x y) {s : τ} {r : σ} (hrel : R s r) (inbound : Inbound) :
    Abreast id id' R (x.enter (x.bridge.note t inbound s) s)
      (y.enter (y.bridge.note u inbound r) r) := by
  obtain ⟨hasked, hafter⟩ :=
    x.bridge.note_restocked u inbound r id' y.bridge.signals
  rw [← h.bridge, x.bridge.note_eq u t inbound r s] at hasked hafter
  refine ⟨?_, hafter, hrel, ?_, hasked, h.posted, h.read, h.ended⟩
  · exact (x.bridge.note_kept t inbound s).2.1.trans h.number
  · rw [taken_enter, taken_enter, h.taken]
    rfl

theorem take (h : Abreast id id' R x y) (hsame : t.SameArrivals u id id' R) :
    Abreast id id' R (x.take t) (y.take u) := by
  by_cases hfree : x.owed = [] ∧ x.bridge.isOpen = true
  · have hfree' : y.owed = [] ∧ y.bridge.isOpen = true :=
      ⟨h.owed.trans hfree.1, h.isOpen.trans hfree.2⟩
    have hid : y.bridge.subscription = id' := by rw [h.bridge]
    obtain ⟨harrival, hleft⟩ := hsame.receive h.state
    unfold Logbook.take
    rw [if_pos hfree, if_pos hfree', h.number, hid]
    generalize t.receive id x.state = p at harrival hleft ⊢
    generalize u.receive id' y.state = q at harrival hleft ⊢
    obtain ⟨arrival, s⟩ := p
    obtain ⟨arrival', r⟩ := q
    cases harrival
    cases arrival with
    | envelope inbound => exact h.enter hleft inbound
    | nothing => exact h
    | closed => exact h.close hsame hleft
  · have hbusy : ¬ (y.owed = [] ∧ y.bridge.isOpen = true) := by
      rw [h.owed, h.isOpen]
      exact hfree
    rw [Logbook.take, if_neg hfree, Logbook.take, if_neg hbusy]
    exact h

theorem answer (h : Abreast id id' R x y) (hsame : t.SameArrivals u id id' R) :
    Abreast id id' R (x.answer t) (y.answer u) := by
  have howed := h.owed
  rcases hx : x.owed with _ | ⟨d, owed⟩
  · rw [answer_of_nothing hx, answer_of_nothing (howed.trans hx)]
    exact h
  · have hy : y.owed = d :: owed := howed.trans hx
    simp only [Logbook.answer, hx, hy]
    exact { h with
      state := hsame.post d h.state
      owed := rfl
      posted := congrArg (· ++ [d]) h.posted }

theorem heedLeft (h : Abreast id id' R x y) : Abreast id id' R x.heed y := by
  unfold Logbook.heed
  split
  next => exact h
  next => exact { h with bridge := h.bridge }

theorem heedRight (h : Abreast id id' R x y) : Abreast id id' R x y.heed := by
  unfold Logbook.heed
  split
  next => exact h
  next signal signals hsignals =>
    refine { h with bridge := ?_ }
    rw [h.bridge]

theorem readNext (h : Abreast id id' R x y) : Abreast id id' R x.readNext y.readNext := by
  have hmessages := h.messages
  rcases hx : x.bridge.messages with _ | ⟨m, messages⟩
  · simp only [Logbook.readNext, hx, hmessages.trans hx]
    exact h
  · simp only [Logbook.readNext, hx, hmessages.trans hx]
    refine { h with bridge := ?_, read := congrArg (· ++ [m]) h.read }
    rw [h.bridge]

theorem closeMove (h : Abreast id id' R x y) (hsame : t.SameArrivals u id id' R) :
    Abreast id id' R (x.step t .close) (y.step u .close) := by
  by_cases howed : x.owed = []
  · simp only [Logbook.step, howed, h.owed, if_true]
    exact h.close hsame h.state
  · simp only [Logbook.step, howed, h.owed, if_false]
    exact h

theorem run (h : Abreast id id' R x y) (hsame : t.SameArrivals u id id' R) {ms : List (Move τ)}
    {ns : List (Move σ)} (hmoves : SameMoves R ms ns) :
    Abreast id id' R (x.run t ms) (y.run u ns) := by
  induction hmoves generalizing x y with
  | nil => exact h
  | take _ ih => exact ih (h.take hsame)
  | answer _ ih => exact ih (h.answer hsame)
  | read _ ih => exact ih h.readNext
  | close _ ih => exact ih (h.closeMove hsame)
  | others hrel _ ih => exact ih { h with state := hrel }
  | heedLeft _ ih => exact ih h.heedLeft
  | heedRight _ ih => exact ih h.heedRight

end Abreast

/-- Neither a full queue nor an announce that fails makes any difference to the protocol messages,
nor to when they come. -/
theorem Beside.abreast (h : Beside g t u x y) : ∃ id id' R, Abreast id id' R x y := by
  obtain ⟨s, left, b, moves, s', left', b', moves', R, hconnect, hconnect', hsame, hrel, hmoves,
    rfl, rfl⟩ := h
  obtain ⟨-, hb, -, hannounce⟩ := Bridge.connect_eq_ok hconnect
  obtain ⟨-, hb', -, hannounce'⟩ := Bridge.connect_eq_ok hconnect'
  have hbytes : b'.announce = b.announce := Except.ok.inj (hannounce'.symm.trans hannounce)
  have hbridge : b' =
      { b with subscription := b'.subscription, signals := b'.signals } := by
    rw [hb, hb', hbytes]
    rfl
  have hstart : Abreast b.subscription b'.subscription R (start b left) (start b' left') :=
    ⟨rfl, hbridge, hrel, rfl, rfl, rfl, rfl, rfl⟩
  exact ⟨_, _, R, hstart.run hsame hmoves⟩

theorem Abreast.stream (h : Abreast id id' R x y) : y.stream = x.stream := by
  rw [Logbook.stream, Logbook.stream, h.read, h.messages]

theorem take_of_owed {x : Logbook τ} (howed : x.owed ≠ []) : x.take t = x :=
  if_neg fun hfree => howed hfree.1

/-- Each join that was accepted is answered by one announce to the group, whatever waits and
whatever comes of the announce, and nothing else is answered; what the transport is asked to send
for the bridge is these announces. The accepted signals wait in their order, at most 256 of them;
one that finds as many is lost. An announce under way holds up what comes in until the transport is
done with it, and then the next is taken, be it sent or refused: of two bridges for which the same
comes in, each takes, delivers and ends when the other does, though the announces of one fail or its
queue is full. -/
theorem Kept.routed (h : x.Kept g t) :
    (∀ e ∈ x.notes,
        (∃ sender, g.Hears e.inbound (.join sender)) ∧
            e.asked = [⟨g.id, .everyone, x.bridge.announce⟩] ∨
          (∀ sender, ¬ g.Hears e.inbound (.join sender)) ∧ e.asked = []) ∧
      Envelope.decode x.bridge.announce = .ok (.announce g.localMember) ∧
      x.posted ++ x.owed = x.notes.flatMap Note.asked ∧
      ((∃ y, Watched g t y ∧ y.forget = x) ∧ ∀ y, Watched g t y → y.forget = x →
        y.state.2.filterMap Transport.Demand.draft? = x.posted) ∧
      (x.owed = [] → x.Performs t ((x.take t).answer t)) ∧
      (x.owed ≠ [] → x.take t = x) ∧ (x.answer t).owed = [] ∧ (x.answer t).bridge = x.bridge ∧
      (∀ inbound s, x.ended = false →
        t.receive x.bridge.subscription (x.answer t).state = (.envelope inbound, s) →
          ((x.answer t).take t).taken = x.taken ++ [inbound]) ∧
      x.heeded ++ x.bridge.signals =
        (x.notes.filter (·.before.signals.length < 256)).filterMap (g.signal? ·.inbound) ∧
      x.bridge.signals.length ≤ 256 ∧
      x.stream = firstBy ProtocolMessage.fingerprint (x.taken.filterMap g.roundMessage?) ∧
      (∀ (u : Transport σ) (y : Logbook σ), y.Kept g u → y.taken = x.taken →
        y.stream = x.stream) ∧
      (∀ (u : Transport σ) (y : Logbook σ), Beside g t u x y →
        y.taken = x.taken ∧ y.stream = x.stream ∧ y.read = x.read ∧ y.owed = x.owed ∧
          y.posted = x.posted ∧ y.ended = x.ended) ∧
      x.bridge.isOpen = !x.ended := by
  have hsound := h.sound
  obtain ⟨hfree, hbridge⟩ := hsound.owed_answer t
  refine ⟨fun e he => hsound.asked he, Envelope.decode_of_encode hsound.announce, hsound.posted,
    ⟨h.exists_watched, fun y hy hforget => ?_⟩, performs_answer_take t, take_of_owed, hfree,
    hbridge, fun inbound s hgoing hreceive => ?_, hsound.queue_eq, hsound.room, hsound.stream_eq,
    fun u y hy htaken => ?_, fun u y hbeside => ?_, hsound.isOpen⟩
  · rw [← hforget]
    exact hy.onRecord
  · have hopen : (x.answer t).bridge.isOpen = true := by rw [hbridge, hsound.isOpen, hgoing]; rfl
    rw [← hbridge] at hreceive
    obtain ⟨owed, posted, state, he⟩ := x.answer_eq t
    have htaken : (x.answer t).taken = x.taken := by rw [he]; rfl
    rw [take_of_envelope hfree hopen hreceive, ← htaken]
    exact taken_enter _ _ _
  · rw [hy.sound.stream_eq, hsound.stream_eq, htaken]
  · obtain ⟨_, _, _, habreast⟩ := hbeside.abreast
    exact ⟨habreast.taken, habreast.stream, habreast.read, habreast.owed, habreast.posted,
      habreast.ended⟩

end Logbook

namespace Answering

open Screening Logbook

/-- A join, a message and an announce, over a link that refuses every send. -/
def link : Link := { Link.create b (some 0) false with
  inbox := [⟨"g", a, (Envelope.join a).framed⟩, ⟨"g", a, frame a [3]⟩,
    ⟨"g", c, (Envelope.announce c).framed⟩] }

def sample : Logbook Link :=
  (start bridge link).run (Link.transport b) [.take, .answer, .take, .answer, .take, .answer]

theorem kept_sample : sample.Kept group (Link.transport b) :=
  ⟨link, link, bridge, _, connect_of_link rfl, rfl⟩

/-- The same over a link that sends all, with the signals read as they come. -/
def openSample : Logbook Link :=
  (start bridge { link with failsFrom := none }).run (Link.transport b)
    [.take, .heed, .answer, .take, .answer, .take, .heed, .answer]

/-- Links of which the same comes in. -/
def Fed (l l' : Link) : Prop := l'.inbox = l.inbox ∧ l'.feedOpen = l.feedOpen

theorem fed_post (m : MemberId) (d : Draft) (l : Link) : Fed l ((Link.transport m).post d l) := by
  simp only [Transport.post, Link.transport]
  split
  next => exact ⟨rfl, rfl⟩
  next => exact ⟨rfl, rfl⟩

theorem sameArrivals_link (m : MemberId) (id id' : Nat) :
    (Link.transport m).SameArrivals (Link.transport m) id id' Fed where
  receive := by
    rintro l l' ⟨hinbox, hfeed⟩
    simp only [Link.transport, hinbox, hfeed]
    cases l.inbox with
    | nil => exact ⟨rfl, hinbox, hfeed⟩
    | cons e inbox => exact ⟨rfl, rfl, rfl⟩
  post := by
    rintro l l' d ⟨hinbox, hfeed⟩
    obtain ⟨hkept, hopen⟩ := fed_post m d l
    obtain ⟨hkept', hopen'⟩ := fed_post m d l'
    exact ⟨hkept'.trans (hinbox.trans hkept.symm), hopen'.trans (hfeed.trans hopen.symm)⟩
  release := fun h => h

theorem beside_sample : Beside group (Link.transport b) (Link.transport b) sample openSample :=
  ⟨link, link, bridge, _, { link with failsFrom := none }, _, bridge, _, Fed, connect_of_link rfl,
    connect_of_link rfl, sameArrivals_link b _ _, ⟨rfl, rfl⟩,
    .take (.heedRight (.answer (.take (.answer (.take (.heedRight (.answer .nil))))))), rfl, rfl⟩

theorem routed_sample :
    sample.Kept group (Link.transport b) ∧ sample.state.outbox = [] ∧
      Envelope.decode sample.bridge.announce = .ok (.announce b) ∧
      sample.posted = [⟨"g", .everyone, (Envelope.announce b).framed⟩] ∧
      sample.notes.flatMap Note.asked = sample.posted ∧
      sample.bridge.signals = [.join a, .announce c] ∧ sample.stream = [said a [3]] ∧
      sample.bridge.isOpen = true ∧
      openSample.state.outbox = [(.everyone, (Envelope.announce b).framed)] ∧
      openSample.bridge.signals = [] ∧ openSample.stream = [said a [3]] := by
  obtain ⟨-, hdecode, hposted, -, -, -, -, -, -, -, -, hstream, -, hbeside, hopen⟩ :=
    @Kept.routed Link Link group (Link.transport b) sample kept_sample
  obtain ⟨-, hsame, -⟩ := hbeside _ _ beside_sample
  obtain ⟨hout, howed, hanswers, hsignals, hround⟩ : sample.state.outbox = [] ∧ sample.owed = [] ∧
      sample.posted = [⟨"g", .everyone, (Envelope.announce b).framed⟩] ∧
      sample.bridge.signals = [.join a, .announce c] ∧
      sample.taken.filterMap group.roundMessage? = [said a [3]] := by decide +kernel
  obtain ⟨hsent, hread⟩ :
      openSample.state.outbox = [(.everyone, (Envelope.announce b).framed)] ∧
      openSample.bridge.signals = [] := by decide +kernel
  rw [howed, List.append_nil] at hposted
  rw [hround, firstBy_cons, List.filter_nil] at hstream
  exact ⟨kept_sample, hout, hdecode, hanswers, hposted.symm, hsignals, hstream, hopen, hsent, hread,
    hsame.trans hstream⟩

end Answering

end ThresholdSigning
