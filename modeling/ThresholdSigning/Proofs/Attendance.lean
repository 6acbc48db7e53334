import ThresholdSigning.Proofs.JoinRun

namespace ThresholdSigning

/-- What is noted of an announce. -/
theorem Bridge.note_announce {τ : Type} {b : Bridge} {inbound : Inbound} {m : MemberId}
    (h : b.group.Hears inbound (.announce m)) (t : Transport τ) (s : τ) :
    b.note t inbound s = ⟨inbound, b, b.signal (.announce m), none, []⟩ := by
  simp only [note, dispatch, screen_of_hears h, Signal.envelope, accept]

theorem Group.hears_announce {g : Group} {m : MemberId} {bytes : ByteArray}
    (hpeer : g.isPeer m = true) (h : (Envelope.announce m).encode = .ok bytes) :
    g.Hears ⟨g.id, m, bytes⟩ (.announce m) :=
  ⟨rfl, hpeer, Envelope.decode_of_encode h, rfl⟩

namespace Logbook

/-- To take an announce from a link. -/
theorem take_announce {x : Logbook Link} {inbound : Inbound} {inbox : List Inbound} {m : MemberId}
    (hears : x.bridge.group.Hears inbound (.announce m)) (howed : x.owed = [])
    (hopen : x.bridge.isOpen = true) (hinbox : x.state.inbox = inbound :: inbox) (l : MemberId) :
    x.take (Link.transport l) =
      x.enter ⟨inbound, x.bridge, x.bridge.signal (.announce m), none, []⟩
        { x.state with inbox := inbox } := by
  have hreceive : (Link.transport l).receive x.bridge.subscription x.state =
      (.envelope inbound, { x.state with inbox := inbox }) := by
    simp only [Link.transport, hinbox]
  rw [take_of_envelope howed hopen hreceive, Bridge.note_announce hears]

/-- A bridge after it has taken one announce many times. -/
structure Flooded (x y : Logbook Link) (inbound : Inbound) (inbox : List Inbound) (n : Nat) :
    Prop where
  group : y.bridge.group = x.bridge.group
  isOpen : y.bridge.isOpen = true
  owed : y.owed = []
  inbox : y.state.inbox = inbox
  signals : y.bridge.signals.length = x.bridge.signals.length + n
  notes : ∃ more, y.notes = x.notes ++ more ∧
    more.map Note.inbound = List.replicate n inbound

theorem flooded_run {x : Logbook Link} {inbound : Inbound} {inbox : List Inbound} {m : MemberId}
    {n : Nat} (hears : x.bridge.group.Hears inbound (.announce m)) (howed : x.owed = [])
    (hopen : x.bridge.isOpen = true)
    (hinbox : x.state.inbox = List.replicate n inbound ++ inbox)
    (hroom : x.bridge.signals.length + n ≤ signalCapacity) (l : MemberId) :
    x.Flooded (x.run (Link.transport l) (List.replicate n .take)) inbound inbox n := by
  induction n generalizing inbox with
  | zero => exact ⟨rfl, hopen, howed, hinbox, rfl, [], (List.append_nil _).symm, rfl⟩
  | succ n ih =>
    rw [List.replicate_succ', List.append_assoc] at hinbox
    rw [List.replicate_succ', run, List.foldl_append]
    have hbefore := ih hinbox (by omega)
    rw [run] at hbefore
    generalize (List.replicate n Move.take).foldl (step (Link.transport l)) x = y at hbefore ⊢
    obtain ⟨hgroup, hopen, howed, hinbox, hsignals, more, hnotes, hmore⟩ := hbefore
    have hsignal : y.bridge.signal (.announce m) =
        { y.bridge with signals := y.bridge.signals ++ [.announce m] } := if_pos (by omega)
    have htake := take_announce (hgroup ▸ hears) howed hopen hinbox l
    rw [hsignal] at htake
    rw [List.foldl_cons, List.foldl_nil, step, htake]
    refine ⟨hgroup, hopen, rfl, rfl, ?_, ?_⟩
    · simp only [enter, List.length_append, List.length_cons, List.length_nil, hsignals]
      rw [Nat.zero_add, Nat.add_assoc]
    · simp only [enter, hnotes, List.append_assoc]
      refine ⟨_, rfl, ?_⟩
      rw [List.map_append, hmore, List.replicate_succ']
      rfl

end Logbook

namespace JoinRun

variable {τ : Type} {g : Group} {t : Transport τ} {v w : JoinRun τ} {n : Nat}

/-- The bridge at work alone. -/
theorem run_bridge (moves : List (Logbook.Move τ)) (h : .heed ∉ moves) :
    v.run t (moves.map .bridge) = { v with book := v.book.run t moves } := by
  induction moves generalizing v with
  | nil => rfl
  | cons move moves ih =>
    have hmove : move ≠ .heed := fun he => h (he ▸ List.mem_cons_self)
    rw [List.map_cons, run, List.foldl_cons, step_bridge_of_ne move hmove]
    exact ih fun hlater => h (List.mem_cons_of_mem _ hlater)

theorem notes_step {move : Move τ} (h : move ≠ .bridge .take) :
    (v.step t move).book.notes = v.book.notes := by
  cases move with
  | bridge move =>
    cases move with
    | take => exact absurd rfl h
    | answer =>
      obtain ⟨owed, posted, state, he⟩ := v.book.answer_eq t
      simp only [step, Logbook.step, he]
    | heed => rfl
    | read =>
      simp only [step, Logbook.step, Logbook.readNext]
      split
      next => rfl
      next => rfl
    | close =>
      simp only [step, Logbook.step]
      split
      next => rfl
      next => rfl
    | others s => rfl
  | pass elapsed => rfl
  | poll => exact (v.poll_keeps t).2
  | sent result => exact congrArg Logbook.notes (v.sent_keeps result).2

theorem notes_run {moves : List (Move τ)} (h : ∀ move ∈ moves, move ≠ .bridge .take) :
    (v.run t moves).book.notes = v.book.notes := by
  induction moves generalizing v with
  | nil => rfl
  | cons move moves ih =>
    have hstep := notes_step (v := v) (t := t) (h move List.mem_cons_self)
    exact (ih fun move hm => h move (List.mem_cons_of_mem _ hm)).trans hstep

/-- A signal of a member was accepted while there was room for it. -/
def Attends (g : Group) (v : JoinRun τ) (m : MemberId) : Prop :=
  ∃ e ∈ v.book.notes, ∃ signal, g.Hears e.inbound signal ∧ signal.sender = m ∧
    e.before.signals.length < signalCapacity

/-- Any move but the failure of a join. -/
def Move.Harmless (move : Move τ) : Prop := ∀ e, move ≠ .sent (.error e)

/-- Rounds of any moves, after each of which the barrier gets a turn, and its join, if it has one to
send, is sent. -/
def goOn (t : Transport τ) (v : JoinRun τ) (rounds : List (List (Move τ))) : JoinRun τ :=
  v.run t (rounds.flatMap (· ++ [.poll, .sent (.ok ())]))

/-- Of each peer something was read, or one of the next signals is from it. -/
def Covers (g : Group) (v : JoinRun τ) (next : Nat) : Prop :=
  ∀ m ∈ g.peers, m ∈ v.senders ∨ ∃ signal ∈ v.book.bridge.signals.take next, signal.sender = m

/-- How many turns a barrier takes that reads nothing. -/
def phase (v : JoinRun τ) : Nat :=
  match v.barrier.state with
  | .idle => 3
  | .announcing => 2
  | _ => if v.sending.isSome then 2 else 1

/-- A barrier that gets ready in that many turns. -/
def Nears (g : Group) (v : JoinRun τ) (turns : Nat) : Prop :=
  v.barrier.result = some (.ok ()) ∨
    v.barrier.result = none ∧ ∃ next, v.Covers g next ∧ v.phase + next ≤ turns

theorem phase_pos (v : JoinRun τ) : 1 ≤ v.phase := by
  unfold phase
  split
  next => omega
  next => omega
  next => split <;> omega

theorem phase_le (v : JoinRun τ) : v.phase ≤ 3 := by
  unfold phase
  split
  next => omega
  next => omega
  next => split <;> omega

theorem Nears.mono (h : v.Nears g n) {n' : Nat} (hle : n ≤ n') : v.Nears g n' := by
  rcases h with hok | ⟨hresult, next, hcovers, hturns⟩
  · exact Or.inl hok
  · exact Or.inr ⟨hresult, next, hcovers, hturns.trans hle⟩

theorem Nears.ok_of_zero (h : v.Nears g 0) : v.barrier.result = some (.ok ()) := by
  rcases h with hok | ⟨-, next, -, hturns⟩
  · exact hok
  · have := v.phase_pos
    omega

/-- While a peer is missing, its signal is among the next. -/
theorem Covers.pos {seen : List MemberId} {next : Nat} (h : v.Covers g next)
    (htally : g.Tally v.senders seen) (hmissing : ∃ m ∈ g.peers, m ∉ seen) :
    0 < next ∧ v.book.bridge.signals ≠ [] := by
  obtain ⟨m, hm, hnew⟩ := hmissing
  rcases h m hm with hread | ⟨signal, hsignal, -⟩
  · exact absurd ((htally.mem_iff m).mpr ⟨hm, hread⟩) hnew
  · constructor
    · refine Nat.pos_of_ne_zero ?_
      rintro rfl
      simp at hsignal
    · exact List.ne_nil_of_mem (List.mem_of_mem_take hsignal)

/-- A turn up to the join brings the barrier nearer, unless a join is now under way. -/
theorem Nears.poll_succ (h : v.Nears g (n + 1)) (hsound : v.Sound g)
    (hlive : v.deadline.isExpired = false) (t : Transport τ) :
    (v.poll t).Nears g n ∨ (v.poll t).sending.isSome = true ∧ (v.poll t).Nears g (n + 1) := by
  rcases h with hok | ⟨hresult, next, hcovers, hturns⟩
  · have hdone : v.barrier.result ≠ none := by simp [hok]
    rw [poll_of_result (hsound.stands.sending_of_result hdone) hdone]
    exact Or.inl (Or.inl hok)
  · have hpolls := hsound.polls t
    generalize v.poll t = w at hpolls ⊢
    cases hpolls with
    | rest _ hrest =>
      cases hsending : v.sending with
      | some since =>
        exact Or.inr ⟨rfl, Or.inr ⟨hresult, next, hcovers, hturns⟩⟩
      | none =>
        obtain ⟨-, hsignals, seen, hstate, hmissing⟩ := hrest hsending hresult
        exact absurd hsignals (hcovers.pos (hsound.stands.of_waiting hstate).1 hmissing).2
    | begin _ _ hstate =>
      refine Or.inl (Or.inr ⟨hresult, next, hcovers, ?_⟩)
      simp only [phase, hstate] at hturns
      simp only [phase]
      omega
    | expire hexpired _ => cases hlive.symm.trans hexpired
    | call _ hsending _ hmisses hnext =>
      rcases hmisses with hstate | ⟨seen, hstate, hmissing⟩
      · refine Or.inr ⟨rfl, Or.inr ⟨hresult, next, hcovers, ?_⟩⟩
        simpa only [phase, hstate] using hturns
      · rcases hnext with hstate' | hsignals
        · cases hstate.symm.trans hstate'
        · exact absurd hsignals (hcovers.pos (hsound.stands.of_waiting hstate).1 hmissing).2
    | pass _ _ _ _ => exact Or.inl (Or.inl rfl)
    | @hear seen signal signals _ hsending _ hstate hmissing hsignals =>
      obtain ⟨hpos, -⟩ := hcovers.pos (hsound.stands.of_waiting hstate).1 hmissing
      obtain ⟨next, rfl⟩ := Nat.exists_eq_add_one_of_ne_zero hpos.ne'
      refine Or.inl (Or.inr ⟨hresult, next, ?_, ?_⟩)
      · intro m hm
        simp only [senders, Logbook.heed, hsignals, List.map_append, List.mem_append,
          List.map_cons, List.map_nil, List.mem_singleton]
        rcases hcovers m hm with hread | ⟨signal', hsignal', rfl⟩
        · exact Or.inl (Or.inl hread)
        · rw [hsignals, List.take_succ_cons] at hsignal'
          rcases List.mem_cons.mp hsignal' with rfl | hlater
          · exact Or.inl (Or.inr rfl)
          · exact Or.inr ⟨signal', hlater, rfl⟩
      · simp only [phase, hstate, hsending] at hturns ⊢
        omega
    | starve _ _ _ hstate hmissing hsignals =>
      exact absurd hsignals (hcovers.pos (hsound.stands.of_waiting hstate).1 hmissing).2

/-- A join that is sent brings the barrier nearer. -/
theorem Nears.sent_of_sending (h : v.Nears g (n + 1)) (hsound : v.Sound g)
    (hlive : v.deadline.isExpired = false) (hsending : v.sending.isSome = true) :
    (v.sent (.ok ())).Nears g n := by
  obtain ⟨hresult, hmisses⟩ := hsound.stands.misses hsending
  obtain ⟨since, hsince⟩ := Option.isSome_iff_exists.mp hsending
  rcases h with hok | ⟨-, next, hcovers, hturns⟩
  · cases hresult.symm.trans hok
  · simp only [JoinRun.sent, hsince, hlive, Bool.false_eq_true, if_false]
    rcases hmisses with hstate | ⟨seen, hstate, -⟩
    · simp only [Barrier.joined, hstate]
      refine Or.inr ⟨hresult, next, hcovers, ?_⟩
      simp only [phase, hstate] at hturns
      simp only [phase, Option.isSome_none, Bool.false_eq_true, if_false]
      omega
    · simp only [Barrier.joined, hstate]
      refine Or.inr ⟨hresult, next, hcovers, ?_⟩
      simp only [phase, hstate, hsending, if_true] at hturns
      simp only [phase, Option.isSome_none, Bool.false_eq_true, if_false]
      omega

theorem Nears.sent (h : v.Nears g n) (hsound : v.Sound g) (hlive : v.deadline.isExpired = false) :
    (v.sent (.ok ())).Nears g n := by
  cases hsending : v.sending with
  | none =>
    simp only [JoinRun.sent, hsending]
    exact h
  | some since =>
    exact (h.mono (Nat.le_succ n)).sent_of_sending hsound hlive (by simp [hsending])

theorem Nears.poll (h : v.Nears g n) (hsound : v.Sound g) (hlive : v.deadline.isExpired = false)
    (t : Transport τ) : (v.poll t).Nears g n := by
  cases n with
  | zero =>
    have hdone : v.barrier.result ≠ none := by simp [h.ok_of_zero]
    rw [poll_of_result (hsound.stands.sending_of_result hdone) hdone]
    exact h
  | succ n =>
    rcases h.poll_succ hsound hlive t with hnear | ⟨-, hnear⟩
    · exact hnear.mono (Nat.le_succ n)
    · exact hnear

theorem Covers.bridge {next : Nat} (h : v.Covers g next) {x : Logbook τ}
    (hsignals : v.book.bridge.signals <+: x.bridge.signals) :
    ({ v with book := x } : JoinRun τ).Covers g next := by
  intro m hm
  rcases h m hm with hread | ⟨signal, hsignal, hsender⟩
  · exact Or.inl hread
  · obtain ⟨later, hlater⟩ := hsignals
    refine Or.inr ⟨signal, ?_, hsender⟩
    rw [← hlater, List.take_append]
    exact List.mem_append_left _ hsignal

theorem Nears.step (h : v.Nears g n) (hsound : v.Sound g) (hlive : v.deadline.isExpired = false)
    (t : Transport τ) {move : Move τ} (hharmless : move.Harmless) : (v.step t move).Nears g n := by
  cases move with
  | bridge move =>
    rcases v.step_bridge move with he | ⟨hmove, he⟩
    · rw [he]
      exact h
    · rw [he]
      rcases h with hok | ⟨hresult, next, hcovers, hturns⟩
      · exact Or.inl hok
      · have hgrown := (Logbook.heeded_step (x := v.book) (t := t) move hmove).2
        exact Or.inr ⟨hresult, next, hcovers.bridge hgrown, hturns⟩
  | pass elapsed => exact h
  | poll => exact h.poll hsound hlive t
  | sent result =>
    cases result with
    | error e => exact absurd rfl (hharmless e)
    | ok _ => exact h.sent hsound hlive

/-- Time does not run back. -/
theorem live_of_step (t : Transport τ) (move : Move τ)
    (h : (v.step t move).deadline.isExpired = false) : v.deadline.isExpired = false := by
  cases move with
  | bridge move =>
    rcases v.step_bridge move with he | ⟨-, he⟩
    · rwa [he] at h
    · rwa [he] at h
  | pass elapsed =>
    simp only [JoinRun.step, Deadline.tick_eq, Deadline.isExpired, Bool.or_eq_false_iff] at h
    exact h.1
  | poll =>
    rw [JoinRun.step, (v.poll_keeps t).1] at h
    exact h
  | sent result =>
    rw [JoinRun.step, (v.sent_keeps result).1] at h
    exact h

theorem live_of_run (t : Transport τ) (moves : List (Move τ))
    (h : (v.run t moves).deadline.isExpired = false) : v.deadline.isExpired = false := by
  induction moves generalizing v with
  | nil => exact h
  | cons move moves ih => exact live_of_step t move (ih h)

theorem Nears.run (h : v.Nears g n) (hsound : v.Sound g) (t : Transport τ) {moves : List (Move τ)}
    (hharmless : ∀ move ∈ moves, move.Harmless)
    (hlive : (v.run t moves).deadline.isExpired = false) : (v.run t moves).Nears g n := by
  induction moves generalizing v with
  | nil => exact h
  | cons move moves ih =>
    have hnow := live_of_step t move (live_of_run t moves hlive)
    exact ih (h.step hsound hnow t (hharmless move List.mem_cons_self)) (hsound.step t move)
      (fun move hm => hharmless move (List.mem_cons_of_mem _ hm)) hlive

theorem Nears.goOn {rounds : List (List (Move τ))} (h : v.Nears g rounds.length)
    (hsound : v.Sound g) (t : Transport τ)
    (hharmless : ∀ moves ∈ rounds, ∀ move ∈ moves, move.Harmless)
    (hlive : (v.goOn t rounds).deadline.isExpired = false) :
    (v.goOn t rounds).barrier.result = some (.ok ()) := by
  induction rounds generalizing v with
  | nil => exact h.ok_of_zero
  | cons moves rounds ih =>
    have hsplit : v.goOn t (moves :: rounds) =
        (((v.run t moves).poll t).sent (.ok ())).goOn t rounds := by
      simp only [JoinRun.goOn, JoinRun.run, List.flatMap_cons, List.foldl_append]
      rfl
    rw [hsplit] at hlive ⊢
    have hsent := live_of_run t _ hlive
    have hpolled := live_of_step t (.sent (.ok ())) hsent
    have hran := live_of_step t .poll hpolled
    have hnear := h.run hsound t (hharmless moves List.mem_cons_self) hran
    have hsound := hsound.run t moves
    refine ih ?_ ((hsound.poll t).sent (.ok ()))
      (fun moves hm => hharmless moves (List.mem_cons_of_mem _ hm)) hlive
    rcases hnear.poll_succ hsound hran t with hnearer | ⟨hsending, hstill⟩
    · exact hnearer.sent (hsound.poll t) hpolled
    · exact hstill.sent_of_sending (hsound.poll t) hpolled hsending

/-- What found room was read, or it waits. -/
theorem Sound.attends_iff (h : v.Sound g) {m : MemberId} :
    v.Attends g m ↔ m ∈ v.senders ∨ ∃ signal ∈ v.book.bridge.signals, signal.sender = m := by
  have hqueue : v.heard.map Prod.snd ++ v.book.bridge.signals =
      v.book.notes.filterMap Note.kept? := by
    rw [h.heeded]
    exact h.book.queue
  have hkept : v.Attends g m ↔
      ∃ signal ∈ v.book.notes.filterMap Note.kept?, signal.sender = m := by
    constructor
    · rintro ⟨e, he, signal, hears, hsender, hroom⟩
      refine ⟨signal, List.mem_filterMap.mpr ⟨e, he, ?_⟩, hsender⟩
      rw [Note.kept?, if_pos hroom, Note.signal?, (h.book.notes e he).1]
      exact Group.signal?_eq_some_iff.mpr hears
    · rintro ⟨signal, hsignal, hsender⟩
      obtain ⟨e, he, hkept⟩ := List.mem_filterMap.mp hsignal
      unfold Note.kept? at hkept
      split at hkept
      next hroom =>
        rw [Note.signal?, (h.book.notes e he).1] at hkept
        exact ⟨e, he, signal, Group.signal?_eq_some_iff.mp hkept, hsender, hroom⟩
      next => cases hkept
  rw [hkept, ← hqueue]
  simp only [List.mem_append, or_and_right, exists_or, senders, List.mem_map]
  refine or_congr ?_ Iff.rfl
  constructor
  · rintro ⟨signal, ⟨x, hx, rfl⟩, hsender⟩
    exact ⟨x, hx, hsender⟩
  · rintro ⟨x, hx, hsender⟩
    exact ⟨x.2, ⟨x, hx, rfl⟩, hsender⟩

theorem Sound.attends_of_ok (h : v.Sound g) (hok : v.barrier.result = some (.ok ())) :
    ∀ m ∈ g.peers, v.Attends g m :=
  fun m hm => h.attends_iff.mpr (Or.inl (h.stands.all_of_ok hok m hm))

/-- A barrier whose first join fails is at its end. -/
theorem Sound.refused (h : v.Sound g) (hidle : v.barrier.state = .idle)
    (hlive : v.deadline.isExpired = false) (t : Transport τ) (e : TransportError)
    (moves : List (Move τ)) :
    ((v.run t [.poll, .poll, .sent (.error e)]).run t moves).barrier.result =
      some (.error (.transport e)) := by
  have hresult : (v.run t [.poll, .poll, .sent (.error e)]).barrier.result =
      some (.error (.transport e)) := by
    change (((v.poll t).poll t).sent (.error e)).barrier.result = _
    rw [h.begins hidle hlive]
    simp [JoinRun.sent, hlive, Barrier.fail]
  rw [((h.run t _).run_of_result (by simp [hresult]) t moves).1, hresult]

theorem Sound.late (h : v.Sound g) (hidle : v.barrier.state = .idle) (t : Transport τ)
    {elapsed : Nat} (hexpired : (v.run t [.pass elapsed]).deadline.isExpired = true)
    (moves : List (Move τ)) :
    ((v.run t [.pass elapsed]).run t moves).barrier.result ≠ some (.ok ()) := by
  have hstands := h.stands
  simp only [Stands, hidle] at hstands
  obtain ⟨hresult, hsending, hjoins, -⟩ := hstands
  have hlate : (v.run t [.pass elapsed]).Late g :=
    ⟨hexpired, hsending, hjoins, Or.inl ⟨hresult, Or.inl hidle⟩⟩
  intro hok
  rcases (hlate.run (h.run t _) t moves).course with ⟨hnone, -⟩ | hfailed
  · cases hok.symm.trans hnone
  · cases hok.symm.trans hfailed

/-- A barrier gets ready only if a signal of every peer found room. If one did, the barrier gets
ready by itself, whatever else comes in: with its joins sent, and in as many turns before the end
of its time as signals wait and three more. -/
theorem Kept.attended (h : v.Kept g t) :
    (v.barrier.result = some (.ok ()) → ∀ m ∈ g.peers, v.Attends g m) ∧
      (v.barrier.result = none → (∀ m ∈ g.peers, v.Attends g m) →
        ∀ rounds : List (List (Move τ)), v.book.bridge.signals.length + 3 ≤ rounds.length →
          (∀ moves ∈ rounds, ∀ move ∈ moves, move.Harmless) →
          (v.goOn t rounds).deadline.isExpired = false →
            (v.goOn t rounds).barrier.state = .ready ∧
              (v.goOn t rounds).barrier.result = some (.ok ())) := by
  have hsound := h.sound
  refine ⟨hsound.attends_of_ok, fun hresult hall rounds hlength hharmless hlive => ?_⟩
  · have hcovers : v.Covers g v.book.bridge.signals.length := by
      intro m hm
      rw [List.take_length]
      exact hsound.attends_iff.mp (hall m hm)
    have hphase := v.phase_le
    have hnear : v.Nears g rounds.length := Or.inr ⟨hresult, _, hcovers, by omega⟩
    have hok := hnear.goOn hsound t hharmless hlive
    exact ⟨(hsound.run t _).stands.ready_of_ok hok, hok⟩

end JoinRun

namespace SignalQueue

open Screening JoinRun

def announcement (m : MemberId) : Inbound := ⟨"g", m, (Envelope.announce m).framed⟩

/-- Announces of one peer, and then one of the other. -/
def link (n : Nat) : Link := { Link.create b none false with
  inbox := List.replicate n (announcement a) ++ [announcement c] }

def afterAnnounces (n : Nat) : JoinRun Link :=
  (start bridge (link n) 100 ⟨.ofSecs 5, Deadline.nanosOf 5000, false⟩ 0).run (Link.transport b)
    ((List.replicate n Logbook.Move.take ++ [Logbook.Move.take]).map .bridge)

theorem hears_a : group.Hears (announcement a) (.announce a) :=
  Group.hears_announce (by decide) (Envelope.encode_eq_ok_iff.mpr ⟨by decide +kernel, rfl⟩)

theorem hears_c : group.Hears (announcement c) (.announce c) :=
  Group.hears_announce (by decide) (Envelope.encode_eq_ok_iff.mpr ⟨by decide +kernel, rfl⟩)

theorem kept_afterAnnounces (n : Nat) : (afterAnnounces n).Kept group (Link.transport b) :=
  ⟨link n, link n, bridge, _, _, _, _, connect_of_link rfl, rfl⟩

theorem afterAnnounces_eq (n : Nat) : afterAnnounces n =
    { start bridge (link n) 100 ⟨.ofSecs 5, Deadline.nanosOf 5000, false⟩ 0 with
      book := ((Logbook.start bridge (link n)).run (Link.transport b)
        (List.replicate n .take)).take (Link.transport b) } := by
  rw [afterAnnounces, run_bridge _ (by simp), Logbook.run, List.foldl_append]
  rfl

/-- Whoever comes after many announces of another finds them waiting. -/
theorem notes_afterAnnounces {n : Nat} (hroom : n ≤ signalCapacity) :
    ∃ more last, (afterAnnounces n).book.notes = more ++ [last] ∧
      more.map Note.inbound = List.replicate n (announcement a) ∧ last.inbound = announcement c ∧
        last.before.signals.length = n := by
  obtain ⟨hgroup, hopen, howed, hinbox, hsignals, more, hnotes, hmore⟩ :=
    Logbook.flooded_run (x := Logbook.start bridge (link n)) hears_a rfl rfl rfl
      ((Nat.zero_add n).symm ▸ hroom) b
  have hlast := Logbook.take_announce (by rw [hgroup]; exact hears_c) howed hopen hinbox b
  rw [afterAnnounces_eq, hlast]
  refine ⟨more, _, congrArg (· ++ [_]) hnotes, hmore, rfl, hsignals.trans (Nat.zero_add n)⟩

/-- Every peer was accepted, and nothing has gone wrong. -/
theorem accepted_afterAnnounces {n : Nat} (hpos : 0 < n) (hroom : n ≤ signalCapacity) :
    (afterAnnounces n).barrier.result = none ∧ (afterAnnounces n).deadline.isExpired = false ∧
      ∀ m ∈ group.peers, ∃ e ∈ (afterAnnounces n).book.notes, ∃ signal,
        group.Hears e.inbound signal ∧ signal.sender = m := by
  obtain ⟨more, last, hnotes, hmore, hlast, -⟩ := notes_afterAnnounces hroom
  refine ⟨by rw [afterAnnounces_eq]; rfl, by rw [afterAnnounces_eq]; rfl, fun m hm => ?_⟩
  have hpeers : group.peers = [a, c] := by decide
  rw [hpeers] at hm
  rw [hnotes]
  rcases List.mem_cons.mp hm with rfl | hm
  · have hlength : 0 < more.length := by
      rw [← List.length_map Note.inbound, hmore, List.length_replicate]
      exact hpos
    obtain ⟨e, he⟩ := List.exists_mem_of_length_pos hlength
    have hsame := List.eq_of_mem_replicate (hmore ▸ List.mem_map_of_mem he)
    exact ⟨e, List.mem_append_left _ he, _, hsame ▸ hears_a, rfl⟩
  · rw [List.mem_singleton.mp hm]
    exact ⟨last, by simp, _, hlast ▸ hears_c, rfl⟩

def full : JoinRun Link := afterAnnounces signalCapacity

/-- Two announces, for which there is room. -/
def pair : JoinRun Link := afterAnnounces 1

theorem signals_pair : pair.book.bridge.signals = [.announce a, .announce c] := by
  decide +kernel

theorem kept_pair : pair.Kept group (Link.transport b) := kept_afterAnnounces 1

theorem waits_pair : pair.barrier.result = none ∧ pair.deadline.isExpired = false :=
  have haccepted := accepted_afterAnnounces (n := 1) (by decide) (by decide)
  ⟨haccepted.1, haccepted.2.1⟩

theorem attends_pair : ∀ m ∈ group.peers, pair.Attends group m := by
  intro m hm
  refine kept_pair.sound.attends_iff.mpr (Or.inr ?_)
  rw [signals_pair]
  revert m
  decide

theorem attended_pair :
    pair.Kept group (Link.transport b) ∧ (∀ m ∈ group.peers, pair.Attends group m) ∧
      (pair.goOn (Link.transport b) (List.replicate 5 [.pass 7])).barrier.state = .ready := by
  obtain ⟨-, hready⟩ := JoinRun.Kept.attended kept_pair
  refine ⟨kept_pair, attends_pair, (hready waits_pair.1 attends_pair _ ?_ ?_ ?_).1⟩
  · rw [signals_pair]
    decide
  · intro moves hmoves move hmove e he
    rw [List.eq_of_mem_replicate hmoves, List.mem_singleton] at hmove
    cases hmove.symm.trans he
  · decide +kernel

/-- It is not enough that every peer was accepted. With the signals of one peer in every place, the
other is never heard of unless it comes again; a barrier whose join cannot be sent ends with that;
and one that begins after the time comes too late. -/
theorem not_enough :
    full.Kept group (Link.transport b) ∧ full.barrier.result = none ∧
      full.deadline.isExpired = false ∧
      (∀ m ∈ group.peers, ∃ e ∈ full.book.notes, ∃ signal, group.Hears e.inbound signal ∧
        signal.sender = m) ∧
      (∀ moves, (∀ move ∈ moves, move ≠ .bridge .take) →
        (full.run (Link.transport b) moves).barrier.result ≠ some (.ok ())) ∧
      (∀ m ∈ group.peers, pair.Attends group m) ∧ pair.barrier.result = none ∧
      pair.deadline.isExpired = false ∧
      (∀ e moves, ((pair.run (Link.transport b) [.poll, .poll, .sent (.error e)]).run
        (Link.transport b) moves).barrier.result = some (.error (.transport e))) ∧
      ∀ moves, ((pair.run (Link.transport b) [.pass 5000]).run (Link.transport b)
        moves).barrier.result ≠ some (.ok ()) := by
  obtain ⟨hfull, hfullLive, hfullAll⟩ :=
    accepted_afterAnnounces (n := signalCapacity) (by decide) (Nat.le_refl _)
  obtain ⟨hpair, hpairLive⟩ := waits_pair
  have hidle : pair.barrier.state = .idle := by rw [pair, afterAnnounces_eq]; rfl
  refine ⟨kept_afterAnnounces _, hfull, hfullLive, hfullAll, ?_, attends_pair, hpair, hpairLive,
    ?_, ?_⟩
  · intro moves hmoves hok
    obtain ⟨more, last, hnotes, hmore, hlast, hwaiting⟩ := notes_afterAnnounces (Nat.le_refl _)
    obtain ⟨e, he, signal, hears, hsender, hroom⟩ :=
      ((kept_afterAnnounces signalCapacity).sound.run _ moves).attends_of_ok hok c (by decide)
    rw [notes_run hmoves, hnotes] at he
    rcases List.mem_append.mp he with hold | hnew
    · have hsame := List.eq_of_mem_replicate (hmore ▸ List.mem_map_of_mem hold)
      have hfrom := hears.sender
      rw [hsender, hsame] at hfrom
      exact absurd hfrom (by decide)
    · rw [List.mem_singleton.mp hnew, hwaiting] at hroom
      exact absurd hroom (Nat.lt_irrefl _)
  · exact kept_pair.sound.refused hidle hpairLive _
  · exact kept_pair.sound.late hidle _ (by rw [pair, afterAnnounces_eq]; rfl)

end SignalQueue

end ThresholdSigning
