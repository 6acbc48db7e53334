import ThresholdSigning.Proofs.Logbook
import ThresholdSigning.Proofs.Outcome
import ThresholdSigning.Proofs.Progress

namespace ThresholdSigning

namespace MemberId

theorem le_trans {a b c : MemberId} (hab : le a b = true) (hbc : le b c = true) :
    le a c = true := by
  simp only [le, decide_eq_true_eq] at hab hbc ⊢
  exact List.le_trans hab hbc

theorem le_total (a b : MemberId) : (le a b || le b a) = true := by
  simp only [le, Bool.or_eq_true, decide_eq_true_eq]
  exact List.le_total _ _

end MemberId

/-- The peers that are not among those seen: in order, each once. -/
structure Group.Lacks (g : Group) (seen missing : List MemberId) : Prop where
  mem_iff : ∀ m, m ∈ missing ↔ m ∈ g.peers ∧ m ∉ seen
  sorted : missing.Pairwise (MemberId.le · ·)
  nodup : missing.Nodup
  nonempty : missing ≠ []
  absent : g.localMember ∉ missing

/-- The peers among those heard of, each once. -/
structure Group.Tally (g : Group) (senders seen : List MemberId) : Prop where
  nodup : seen.Nodup
  mem_iff : ∀ m, m ∈ seen ↔ m ∈ g.peers ∧ m ∈ senders

/-- What can become of a barrier's state in one step. -/
inductive BarrierState.Follows (g : Group) : BarrierState → BarrierState → Prop
  | stay (state : BarrierState) : Follows g state state
  | begin : Follows g .idle .announcing
  | wait : Follows g .announcing (.waiting [])
  | see {seen : List MemberId} {m : MemberId} (hpeer : m ∈ g.peers) (hnew : m ∉ seen) :
      Follows g (.waiting seen) (.waiting (seen ++ [m]))
  | pass {seen : List MemberId} (hall : ∀ m ∈ g.peers, m ∈ seen) : Follows g (.waiting seen) .ready
  | giveUp : Follows g .announcing .timedOut
  | expire {seen : List MemberId} (hmissing : ∃ m ∈ g.peers, m ∉ seen) :
      Follows g (.waiting seen) .timedOut

namespace Group.Tally

variable {g : Group} {senders seen missing : List MemberId}

theorem lacks (h : g.Tally senders seen) (hmissing : g.Lacks seen missing) :
    g.Lacks senders missing := by
  refine { hmissing with mem_iff := fun m => ?_ }
  rw [hmissing.mem_iff, h.mem_iff, not_and]
  constructor
  · rintro ⟨hpeer, hnew⟩
    exact ⟨hpeer, hnew hpeer⟩
  · rintro ⟨hpeer, hnew⟩
    exact ⟨hpeer, fun _ => hnew⟩

/-- A signal adds its sender, if that is a peer of whom nothing was heard. -/
theorem hear (h : g.Tally senders seen) (signal : Signal) :
    g.Tally (senders ++ [signal.sender]) (Barrier.hear g seen signal) := by
  constructor
  · unfold Barrier.hear
    split
    next hnew =>
      have hnew : signal.sender ∉ seen := by simpa using (Bool.and_eq_true_iff.mp hnew).2
      refine List.nodup_append.mpr ⟨h.nodup, by simp, fun m hm m' hm' heq => hnew ?_⟩
      rwa [← List.mem_singleton.mp hm', ← heq]
    next => exact h.nodup
  · intro m
    rw [Barrier.mem_hear_iff, h.mem_iff, List.mem_append, List.mem_singleton,
      ← Group.mem_peers_iff]
    constructor
    · rintro (⟨hpeer, hm⟩ | ⟨hpeer, rfl⟩)
      · exact ⟨hpeer, Or.inl hm⟩
      · exact ⟨hpeer, Or.inr rfl⟩
    · rintro ⟨hpeer, hm | rfl⟩
      · exact Or.inl ⟨hpeer, hm⟩
      · exact Or.inr ⟨hpeer, rfl⟩

end Group.Tally

namespace Barrier

theorem lacks_missing {g : Group} {seen : List MemberId} (h : ∃ m ∈ g.peers, m ∉ seen) :
    g.Lacks seen (missing g seen) := by
  have hperm := List.mergeSort_perm (g.peers.filter (· ∉ seen)) MemberId.le
  have hmem (m : MemberId) : m ∈ missing g seen ↔ m ∈ g.peers ∧ m ∉ seen := by
    rw [missing, MemberId.sort, hperm.mem_iff, List.mem_filter, decide_eq_true_eq]
  refine ⟨hmem, ?_, ?_, ?_, ?_⟩
  · rw [missing, MemberId.sort]
    exact @List.pairwise_mergeSort _ MemberId.le (fun _ _ _ => MemberId.le_trans)
      MemberId.le_total _
  · exact hperm.nodup_iff.mpr ((g.valid.nodup.filter _).filter _)
  · obtain ⟨m, hpeer, hnew⟩ := h
    exact List.ne_nil_of_mem ((hmem m).mpr ⟨hpeer, hnew⟩)
  · intro hlocal
    have hpeer := Group.mem_peers_iff.mp ((hmem _).mp hlocal).1
    rw [g.isPeer_localMember] at hpeer
    cases hpeer

theorem seen_of_announcing {b : Barrier} (h : b.state = .announcing) : b.seen = [] := by
  simp only [Barrier.seen, h]

/-- The barrier once a join is sent that was begun at a moment. -/
def joined (b : Barrier) (since now : Nat) : Barrier :=
  match b.state with
  | .announcing => { b with state := .waiting [], nextTick := now + b.interval }
  | _ => { b with nextTick := b.tickAfter since }

end Barrier

/-- The one thing a barrier sends. -/
def Group.joinDraft (g : Group) : Draft := ⟨g.id, .everyone, (Envelope.join g.localMember).framed⟩

theorem Bridge.broadcastJoin_drafting {τ : Type} {b : Bridge} {bytes : ByteArray}
    (h : (Envelope.announce b.group.localMember).encode = .ok bytes) (t : Transport τ) (s : τ) :
    b.broadcastJoin t.drafting (s, []) = (.ok (), s, [b.group.joinDraft]) := by
  simp only [broadcastJoin, publish, Envelope.encode_join h, Transport.drafting, List.nil_append,
    Group.joinDraft]

/-- A run of the join barrier on the signals of a bridge, up to the state it ends in. It reads
nothing while a join is under way, which takes as long as the transport likes. -/
structure JoinRun (τ : Type) where
  book : Logbook τ
  barrier : Barrier
  deadline : Deadline
  now : Nat
  /-- Since when a join is under way. -/
  sending : Option Nat
  joins : List Draft
  /-- The signals that were read, with the moments at which they were. -/
  heard : List (Nat × Signal)

namespace JoinRun

variable {τ : Type}

inductive Move (τ : Type)
  /-- Anything at the bridge but the reading of signals. -/
  | bridge (move : Logbook.Move τ)
  | pass (elapsed : Nat)
  | poll
  /-- What comes of the join that is under way. -/
  | sent (result : Except TransportError Unit)

def start (b : Bridge) (s : τ) (interval : Nat) (deadline : Deadline) (now : Nat) : JoinRun τ where
  book := .start b s
  barrier := .create interval
  deadline := deadline.tick now
  now := now
  sending := none
  joins := []
  heard := []

def giveUp (v : JoinRun τ) : JoinRun τ :=
  { v with barrier := v.barrier.timeOut v.book.bridge.group v.barrier.seen, sending := none }

/-- The signals that a bridge had and that it has no more. -/
def popped (b b' : Bridge) : List Signal := b.signals.take (b.signals.length - b'.signals.length)

/-- The next step of the barrier, up to the join if it sends one. -/
def poll (v : JoinRun τ) (t : Transport τ) : JoinRun τ :=
  if v.sending.isSome then if v.deadline.isExpired then v.giveUp else v
  else
    match v.barrier.step v.book.bridge t.drafting v.deadline v.now (v.book.state, []) with
    | none => v
    | some (barrier, bridge, _, []) =>
      let signals := popped v.book.bridge bridge
      { v with
        book := { v.book with bridge := bridge, heeded := v.book.heeded ++ signals }
        barrier := barrier
        heard := v.heard ++ signals.map (v.now, ·) }
    | some (_, _, _, d :: _) => { v with sending := some v.now, joins := v.joins ++ [d] }

/-- The end of the time comes before the end of a join. -/
def sent (v : JoinRun τ) (result : Except TransportError Unit) : JoinRun τ :=
  match v.sending with
  | none => v
  | some since =>
    if v.deadline.isExpired then v.giveUp
    else
      match result with
      | .error e => { v with barrier := v.barrier.fail (.transport e), sending := none }
      | .ok _ => { v with barrier := v.barrier.joined since v.now, sending := none }

def step (t : Transport τ) (v : JoinRun τ) : Move τ → JoinRun τ
  | .bridge .heed => v
  | .bridge move => { v with book := v.book.step t move }
  | .pass elapsed =>
    { v with now := v.now + elapsed, deadline := v.deadline.tick (v.now + elapsed) }
  | .poll => v.poll t
  | .sent result => v.sent result

def run (t : Transport τ) (v : JoinRun τ) (moves : List (Move τ)) : JoinRun τ :=
  moves.foldl (step t) v

/-- A barrier over a bridge that was connected for a group, at any later time. -/
def Kept (g : Group) (t : Transport τ) (v : JoinRun τ) : Prop :=
  ∃ s left b interval deadline now moves, Bridge.connect g t s = (.ok b, left) ∧
    v = run t (start b left interval deadline now) moves

/-- Whom something was read of. -/
def senders (v : JoinRun τ) : List MemberId := v.heard.map (·.2.sender)

/-- What holds of a barrier in each of its states. -/
def Stands (g : Group) (v : JoinRun τ) : Prop :=
  match v.barrier.state with
  | .idle => v.barrier.result = none ∧ v.sending = none ∧ v.joins = [] ∧ v.heard = []
  | .announcing => v.heard = [] ∧
      (v.barrier.result = none ∧ v.joins.length = v.sending.toList.length ∨
        ∃ e, v.barrier.result = some (.error (.transport e)) ∧ v.sending = none ∧
          v.joins.length = 1)
  | .waiting seen => g.Tally v.senders seen ∧ v.joins ≠ [] ∧
      (v.barrier.result = none ∧ (v.sending.isSome = true → ∃ m ∈ g.peers, m ∉ seen) ∨
        ∃ e, v.barrier.result = some (.error (.transport e)) ∧ v.sending = none ∧
          ∃ m ∈ g.peers, m ∉ seen)
  | .ready =>
    v.barrier.result = some (.ok ()) ∧ v.sending = none ∧ ∀ m ∈ g.peers, m ∈ v.senders
  | .timedOut => v.sending = none ∧ v.deadline.isExpired = true ∧
      ∃ missing, v.barrier.result = some (.error (.joinTimeout missing)) ∧
        g.Lacks v.senders missing

/-- All that holds of a barrier at work. -/
structure Sound (g : Group) (v : JoinRun τ) : Prop where
  book : v.book.Sound g
  heeded : v.heard.map Prod.snd = v.book.heeded
  clock : v.deadline.isExpired = false → v.now < v.deadline.expiresAt
  timely : ∀ x ∈ v.heard, x.1 < v.deadline.expiresAt
  joins : ∀ d ∈ v.joins, d = g.joinDraft
  stands : v.Stands g

variable {g : Group} {t : Transport τ} {v : JoinRun τ} {b : Bridge} {s left : τ}

/-- All that a poll can do. -/
inductive Polls (g : Group) (v : JoinRun τ) : JoinRun τ → Prop
  | rest (hsending : v.sending.isSome = true → v.deadline.isExpired = false)
      (hrest : v.sending = none → v.barrier.result = none → v.deadline.isExpired = false ∧
        v.book.bridge.signals = [] ∧
          ∃ seen, v.barrier.state = .waiting seen ∧ ∃ m ∈ g.peers, m ∉ seen) : v.Polls g v
  | begin (hresult : v.barrier.result = none) (hsending : v.sending = none)
      (hstate : v.barrier.state = .idle) :
      v.Polls g { v with barrier := { v.barrier with state := .announcing } }
  | expire (hexpired : v.deadline.isExpired = true)
      (hat : v.sending.isSome = true ∨ v.barrier.result = none ∧ v.barrier.Misses g) :
      v.Polls g v.giveUp
  | call (hresult : v.barrier.result = none) (hsending : v.sending = none)
      (hlive : v.deadline.isExpired = false) (hmisses : v.barrier.Misses g)
      (hnext : v.barrier.state = .announcing ∨ v.book.bridge.signals = []) :
      v.Polls g { v with sending := some v.now, joins := v.joins ++ [g.joinDraft] }
  | pass {seen : List MemberId} (hresult : v.barrier.result = none) (hsending : v.sending = none)
      (hstate : v.barrier.state = .waiting seen) (hall : ∀ m ∈ g.peers, m ∈ seen) :
      v.Polls g { v with barrier := { v.barrier with state := .ready, result := some (.ok ()) } }
  | hear {seen : List MemberId} {signal : Signal} {signals : List Signal}
      (hresult : v.barrier.result = none) (hsending : v.sending = none)
      (hlive : v.deadline.isExpired = false) (hstate : v.barrier.state = .waiting seen)
      (hmissing : ∃ m ∈ g.peers, m ∉ seen) (hsignals : v.book.bridge.signals = signal :: signals) :
      v.Polls g { v with
        book := v.book.heed
        barrier := { v.barrier with state := .waiting (Barrier.hear g seen signal) }
        heard := v.heard ++ [(v.now, signal)] }
  | starve {seen : List MemberId} (hresult : v.barrier.result = none) (hsending : v.sending = none)
      (hlive : v.deadline.isExpired = false) (hstate : v.barrier.state = .waiting seen)
      (hmissing : ∃ m ∈ g.peers, m ∉ seen) (hsignals : v.book.bridge.signals = []) :
      v.Polls g { v with barrier := v.barrier.fail (.transport .channelClosed) }

theorem poll_of_quiet {barrier : Barrier} (hsending : v.sending = none)
    (hstep : v.barrier.step v.book.bridge t.drafting v.deadline v.now (v.book.state, []) =
      some (barrier, v.book.bridge, s, [])) : v.poll t = { v with barrier := barrier } := by
  have hnone : popped v.book.bridge v.book.bridge = [] := by simp [popped]
  simp only [poll, hsending, Option.isSome_none, Bool.false_eq_true, if_false, hstep, hnone,
    List.map_nil, List.append_nil]

theorem poll_of_hear {barrier : Barrier} {signal : Signal} {signals : List Signal}
    (hsending : v.sending = none) (hsignals : v.book.bridge.signals = signal :: signals)
    (hstep : v.barrier.step v.book.bridge t.drafting v.deadline v.now (v.book.state, []) =
      some (barrier, { v.book.bridge with signals := signals }, s, [])) :
    v.poll t = { v with
      book := v.book.heed
      barrier := barrier
      heard := v.heard ++ [(v.now, signal)] } := by
  have hone : popped v.book.bridge { v.book.bridge with signals := signals } = [signal] := by
    simp [popped, hsignals]
  simp only [poll, hsending, Option.isSome_none, Bool.false_eq_true, if_false, hstep, hone,
    List.map_cons, List.map_nil, Logbook.heed, hsignals]

theorem poll_of_call {barrier : Barrier} {bridge : Bridge} {d : Draft} {drafts : List Draft}
    (hsending : v.sending = none)
    (hstep : v.barrier.step v.book.bridge t.drafting v.deadline v.now (v.book.state, []) =
      some (barrier, bridge, s, d :: drafts)) :
    v.poll t = { v with sending := some v.now, joins := v.joins ++ [d] } := by
  simp only [poll, hsending, Option.isSome_none, Bool.false_eq_true, if_false, hstep]

/-- A poll takes no time, and takes nothing in. -/
theorem poll_keeps (v : JoinRun τ) (t : Transport τ) :
    (v.poll t).deadline = v.deadline ∧ (v.poll t).book.notes = v.book.notes := by
  unfold poll
  split
  next =>
    split
    next => exact ⟨rfl, rfl⟩
    next => exact ⟨rfl, rfl⟩
  next =>
    split
    next => exact ⟨rfl, rfl⟩
    next => exact ⟨rfl, rfl⟩
    next => exact ⟨rfl, rfl⟩

theorem sent_keeps (v : JoinRun τ) (result : Except TransportError Unit) :
    (v.sent result).deadline = v.deadline ∧ (v.sent result).book = v.book := by
  unfold sent
  split
  next => exact ⟨rfl, rfl⟩
  next =>
    split
    next => exact ⟨rfl, rfl⟩
    next =>
      split
      next => exact ⟨rfl, rfl⟩
      next => exact ⟨rfl, rfl⟩

/-- Only a barrier that waits for more than time can be without a next step. -/
theorem waits_of_step {σ : Type} {u : Transport σ} {left : σ} (h : v.Stands g)
    (hgroup : v.book.bridge.group = g) (hresult : v.barrier.result = none)
    (hstep : v.barrier.step v.book.bridge u v.deadline v.now left = none) :
    v.deadline.isExpired = false ∧ v.book.bridge.signals = [] ∧
      ∃ seen, v.barrier.state = .waiting seen ∧ ∃ m ∈ g.peers, m ∉ seen := by
  have hnever {b' : Barrier} {bridge' : Bridge} {left' : σ}
      (hsteps : v.barrier.Steps v.book.bridge u v.deadline v.now left b' bridge' left') :
      False := by
    cases hstep.symm.trans (Barrier.step_of_steps hresult hsteps)
  unfold Stands at h
  cases hstate : v.barrier.state with
  | idle => exact (hnever (.begin hstate)).elim
  | announcing =>
    cases hexpired : v.deadline.isExpired with
    | true => exact (hnever (.expireAtOnce hstate hexpired)).elim
    | false =>
      rcases hsend : v.book.bridge.broadcastJoin u left with ⟨_ | _, left'⟩
      · exact (hnever (.joinFails hstate hexpired hsend)).elim
      · exact (hnever (.join hstate hexpired hsend)).elim
  | waiting seen =>
    by_cases hmissing : ∃ m ∈ g.peers, m ∉ seen
    · cases hexpired : v.deadline.isExpired with
      | true => exact (hnever (.expire hstate (hgroup ▸ hmissing) hexpired)).elim
      | false =>
        cases hsignals : v.book.bridge.signals with
        | nil => exact ⟨rfl, rfl, seen, rfl, hmissing⟩
        | cons signal signals =>
          exact (hnever (.hear hstate (hgroup ▸ hmissing) hexpired hsignals)).elim
    · refine (hnever (.pass hstate fun m hm => ?_)).elim
      rw [hgroup] at hm
      by_contra hnew
      exact hmissing ⟨m, hm, hnew⟩
  | ready =>
    rw [hstate] at h
    cases hresult.symm.trans h.1
  | timedOut =>
    rw [hstate] at h
    obtain ⟨-, -, missing, hdone, -⟩ := h
    cases hresult.symm.trans hdone

theorem Sound.announce (h : v.Sound g) :
    (Envelope.announce v.book.bridge.group.localMember).encode = .ok v.book.bridge.announce := by
  rw [h.book.group]
  exact h.book.announce

theorem Sound.polls (h : v.Sound g) (t : Transport τ) : v.Polls g (v.poll t) := by
  have hgroup := h.book.group
  have hjoin := Bridge.broadcastJoin_drafting h.announce t v.book.state
  cases hsending : v.sending with
  | some since =>
    simp only [poll, hsending, Option.isSome_some, if_true]
    cases hexpired : v.deadline.isExpired with
    | true => exact .expire hexpired (Or.inl (by simp [hsending]))
    | false => exact .rest (fun _ => hexpired) (by simp [hsending])
  | none =>
    have hgiveUp (barrier : Barrier) :
        { v with barrier := barrier } = { v with barrier := barrier, sending := none } := by
      rw [← hsending]
    cases hstep : v.barrier.step v.book.bridge t.drafting v.deadline v.now (v.book.state, []) with
    | none =>
      have hpoll : v.poll t = v := by
        simp only [poll, hsending, Option.isSome_none, Bool.false_eq_true, if_false, hstep]
      rw [hpoll]
      exact .rest (by simp [hsending]) fun _ hresult => waits_of_step h.stands hgroup hresult hstep
    | some next =>
      obtain ⟨barrier, bridge, s, drafts⟩ := next
      obtain ⟨hresult, hsteps⟩ := Barrier.steps_of_step hstep
      cases hsteps with
      | begin hstate =>
        rw [poll_of_quiet hsending hstep]
        exact .begin hresult hsending hstate
      | expireAtOnce hstate hexpired =>
        rw [poll_of_quiet hsending hstep, hgiveUp, ← Barrier.seen_of_announcing hstate]
        exact .expire hexpired (Or.inr ⟨hresult, Or.inl hstate⟩)
      | join hstate hlive hsend =>
        cases hjoin.symm.trans hsend
        rw [poll_of_call hsending hstep, hgroup]
        exact .call hresult hsending hlive (Or.inl hstate) (Or.inl hstate)
      | joinFails hstate hlive hsend => cases hjoin.symm.trans hsend
      | pass hstate hall =>
        rw [poll_of_quiet hsending hstep]
        exact .pass hresult hsending hstate (hgroup ▸ hall)
      | expire hstate hmissing hexpired =>
        rw [poll_of_quiet hsending hstep, hgiveUp, ← Barrier.seen_of_waiting hstate]
        exact .expire hexpired (Or.inr ⟨hresult, Or.inr ⟨_, hstate, hgroup ▸ hmissing⟩⟩)
      | hear hstate hmissing hlive hsignals =>
        rw [poll_of_hear hsending hsignals hstep, hgroup]
        exact .hear hresult hsending hlive hstate (hgroup ▸ hmissing) hsignals
      | queueEnds hstate hmissing hlive hsignals hclosed =>
        rw [poll_of_quiet hsending hstep]
        exact .starve hresult hsending hlive hstate (hgroup ▸ hmissing) hsignals
      | joinAgain hstate hmissing hlive hsignals hopen hdue hsend =>
        cases hjoin.symm.trans hsend
        rw [poll_of_call hsending hstep, hgroup]
        exact .call hresult hsending hlive (Or.inr ⟨_, hstate, hgroup ▸ hmissing⟩)
          (Or.inr hsignals)
      | joinAgainFails hstate hmissing hlive hsignals hopen hdue hsend =>
        cases hjoin.symm.trans hsend

namespace Stands

variable {seen : List MemberId}

theorem of_announcing (h : v.Stands g) (hresult : v.barrier.result = none)
    (hstate : v.barrier.state = .announcing) :
    v.joins.length = v.sending.toList.length ∧ v.heard = [] := by
  simpa [Stands, hstate, hresult, and_comm] using h

theorem of_waiting (h : v.Stands g) (hstate : v.barrier.state = .waiting seen) :
    g.Tally v.senders seen ∧ v.joins ≠ [] := by
  simp only [Stands, hstate] at h
  exact ⟨h.1, h.2.1⟩

/-- What a barrier has seen before it is done is what was read of peers. -/
theorem tally (h : v.Stands g) (hresult : v.barrier.result = none) (hmisses : v.barrier.Misses g) :
    g.Tally v.senders v.barrier.seen := by
  rcases hmisses with hstate | ⟨seen, hstate, -⟩
  · rw [Barrier.seen_of_announcing hstate, senders, (h.of_announcing hresult hstate).2]
    exact ⟨List.nodup_nil, by simp⟩
  · rw [Barrier.seen_of_waiting hstate]
    exact (h.of_waiting hstate).1

/-- A join is under way only while a peer is missing. -/
theorem misses (h : v.Stands g) (hsending : v.sending.isSome = true) :
    v.barrier.result = none ∧ v.barrier.Misses g := by
  have hsome : v.sending ≠ none := by
    intro hnone
    simp [hnone] at hsending
  unfold Stands at h
  cases hstate : v.barrier.state with
  | idle => simp [hstate, hsome] at h
  | announcing =>
    simp only [hstate, hsome, false_and, and_false, exists_false, or_false] at h
    exact ⟨h.2.1, Or.inl hstate⟩
  | waiting seen =>
    simp only [hstate, hsome, false_and, and_false, exists_false, or_false] at h
    exact ⟨h.2.2.1, Or.inr ⟨seen, hstate, h.2.2.2 hsending⟩⟩
  | ready => simp [hstate, hsome] at h
  | timedOut => simp [hstate, hsome] at h

end Stands

theorem sound_start (h : Bridge.connect g t s = (.ok b, left)) (interval : Nat)
    (deadline : Deadline) (now : Nat) : (start b left interval deadline now).Sound g := by
  refine ⟨Logbook.sound_start h, rfl, ?_, by simp [start], by simp [start], ?_⟩
  · intro hlive
    simp only [start, Deadline.tick_eq, Deadline.isExpired, Bool.or_eq_false_iff,
      decide_eq_false_iff_not] at hlive
    exact Nat.not_le.mp hlive.2
  · exact ⟨rfl, rfl, rfl, rfl⟩

theorem Sound.giveUp (h : v.Sound g) (hexpired : v.deadline.isExpired = true)
    (hresult : v.barrier.result = none) (hmisses : v.barrier.Misses g) : v.giveUp.Sound g := by
  have hlacks := (h.stands.tally hresult hmisses).lacks
    (Barrier.lacks_missing hmisses.exists_missing)
  refine { h with stands := ⟨rfl, hexpired, Barrier.missing g v.barrier.seen, ?_, hlacks⟩ }
  rw [← h.book.group]
  rfl

theorem Sound.poll (h : v.Sound g) (t : Transport τ) : (v.poll t).Sound g := by
  have hstands := h.stands
  have hpolls := h.polls t
  generalize v.poll t = w at hpolls ⊢
  cases hpolls with
  | rest _ _ => exact h
  | begin hresult hsending hstate =>
    simp only [Stands, hstate] at hstands
    obtain ⟨-, -, hjoins, hheard⟩ := hstands
    refine { h with stands := ⟨hheard, Or.inl ⟨hresult, ?_⟩⟩ }
    simp only [hjoins, hsending]
    rfl
  | expire hexpired hat =>
    obtain ⟨hresult, hmisses⟩ : v.barrier.result = none ∧ v.barrier.Misses g :=
      hat.elim hstands.misses id
    exact h.giveUp hexpired hresult hmisses
  | call hresult hsending hlive hmisses _ =>
    refine { h with joins := ?_, stands := ?_ }
    · intro d hd
      rcases List.mem_append.mp hd with hold | hnew
      · exact h.joins d hold
      · exact List.mem_singleton.mp hnew
    · rcases hmisses with hstate | ⟨seen, hstate, hmissing⟩
      · obtain ⟨hjoins, hheard⟩ := hstands.of_announcing hresult hstate
        simp only [Stands, hstate]
        refine ⟨hheard, Or.inl ⟨hresult, ?_⟩⟩
        rw [hsending] at hjoins
        simp [List.length_eq_zero_iff.mp hjoins]
      · simp only [Stands, hstate]
        exact ⟨(hstands.of_waiting hstate).1, by simp, Or.inl ⟨hresult, fun _ => hmissing⟩⟩
  | @pass seen hresult hsending hstate hall =>
    refine { h with stands := ⟨rfl, hsending, fun m hm => ?_⟩ }
    exact (((hstands.of_waiting hstate).1.mem_iff m).mp (hall m hm)).2
  | @hear seen signal signals hresult hsending hlive hstate hmissing hsignals =>
    have hsenders : ({ v with heard := v.heard ++ [(v.now, signal)] } : JoinRun τ).senders =
        v.senders ++ [signal.sender] := by simp [senders]
    obtain ⟨htally, hjoins⟩ := hstands.of_waiting hstate
    refine ⟨h.book.heed, ?_, h.clock, ?_, h.joins, ?_⟩
    · simp only [Logbook.heed, hsignals, List.map_append, h.heeded, List.map_cons, List.map_nil]
    · intro x hx
      rcases List.mem_append.mp hx with hold | hnew
      · exact h.timely x hold
      · rw [List.mem_singleton.mp hnew]
        exact h.clock hlive
    · refine ⟨hsenders ▸ htally.hear signal, hjoins, Or.inl ⟨hresult, ?_⟩⟩
      simp [hsending]
  | starve hresult hsending hlive hstate hmissing _ =>
    obtain ⟨htally, hjoins⟩ := hstands.of_waiting hstate
    refine { h with stands := ?_ }
    simp only [Stands, Barrier.fail, hstate]
    exact ⟨htally, hjoins, Or.inr ⟨_, rfl, hsending, hmissing⟩⟩

theorem Sound.sent (h : v.Sound g) (result : Except TransportError Unit) :
    (v.sent result).Sound g := by
  have hstands := h.stands
  unfold JoinRun.sent
  split
  next => exact h
  next since hsending =>
    obtain ⟨hresult, hmisses⟩ := hstands.misses (by simp [hsending])
    split
    next hexpired => exact h.giveUp hexpired hresult hmisses
    next =>
      split
      next e =>
        refine { h with stands := ?_ }
        rcases hmisses with hstate | ⟨seen, hstate, hmissing⟩
        · obtain ⟨hjoins, hheard⟩ := hstands.of_announcing hresult hstate
          simp only [Stands, Barrier.fail, hstate]
          rw [hsending] at hjoins
          exact ⟨hheard, Or.inr ⟨e, rfl, trivial, hjoins⟩⟩
        · obtain ⟨htally, hjoins⟩ := hstands.of_waiting hstate
          simp only [Stands, Barrier.fail, hstate]
          exact ⟨htally, hjoins, Or.inr ⟨e, rfl, trivial, hmissing⟩⟩
      next =>
        refine { h with stands := ?_ }
        rcases hmisses with hstate | ⟨seen, hstate, hmissing⟩
        · obtain ⟨hjoins, hheard⟩ := hstands.of_announcing hresult hstate
          rw [hsending] at hjoins
          simp only [Stands, Barrier.joined, hstate]
          refine ⟨?_, List.ne_nil_of_length_eq_add_one hjoins, Or.inl ⟨hresult, by simp⟩⟩
          rw [senders, hheard]
          exact ⟨List.nodup_nil, by simp⟩
        · obtain ⟨htally, hjoins⟩ := hstands.of_waiting hstate
          simp only [Stands, Barrier.joined, hstate]
          exact ⟨htally, hjoins, Or.inl ⟨hresult, by simp⟩⟩

theorem Sound.pass (h : v.Sound g) (t : Transport τ) (elapsed : Nat) :
    (v.step t (.pass elapsed)).Sound g := by
  have hstands := h.stands
  refine ⟨h.book, h.heeded, ?_, h.timely, h.joins, ?_⟩
  · intro hlive
    simp only [step, Deadline.tick_eq, Deadline.isExpired, Bool.or_eq_false_iff,
      decide_eq_false_iff_not] at hlive
    exact Nat.not_le.mp hlive.2
  · unfold Stands at hstands ⊢
    cases hstate : v.barrier.state with
    | timedOut =>
      simp only [hstate] at hstands
      simp only [step, hstate]
      obtain ⟨hsending, hexpired, hmissing⟩ := hstands
      refine ⟨hsending, ?_, hmissing⟩
      simp only [Deadline.tick_eq, Deadline.isExpired, Bool.or_eq_true]
      exact Or.inl hexpired
    | idle =>
      simp only [hstate] at hstands
      simp only [step, hstate]
      exact hstands
    | announcing =>
      simp only [hstate] at hstands
      simp only [step, hstate]
      exact hstands
    | waiting seen =>
      simp only [hstate] at hstands
      simp only [step, hstate]
      exact hstands
    | ready =>
      simp only [hstate] at hstands
      simp only [step, hstate]
      exact hstands

theorem step_bridge_of_ne (move : Logbook.Move τ) (h : move ≠ .heed) :
    v.step t (.bridge move) = { v with book := v.book.step t move } := by
  cases move with
  | heed => exact absurd rfl h
  | take => rfl
  | answer => rfl
  | read => rfl
  | close => rfl
  | others s => rfl

theorem step_bridge (move : Logbook.Move τ) :
    v.step t (.bridge move) = v ∨
      move ≠ .heed ∧ v.step t (.bridge move) = { v with book := v.book.step t move } := by
  by_cases hmove : move = .heed
  · rw [hmove]
    exact Or.inl rfl
  · exact Or.inr ⟨hmove, step_bridge_of_ne move hmove⟩

theorem Sound.step (h : v.Sound g) (t : Transport τ) (move : Move τ) : (v.step t move).Sound g := by
  cases move with
  | bridge move =>
    rcases v.step_bridge move with he | ⟨hmove, he⟩
    · rw [he]
      exact h
    · rw [he]
      exact { h with
        book := h.book.step t move
        heeded := h.heeded.trans (Logbook.heeded_step move hmove).1.symm }
  | pass elapsed => exact h.pass t elapsed
  | poll => exact h.poll t
  | sent result => exact h.sent result

theorem Sound.run (h : v.Sound g) (t : Transport τ) (moves : List (Move τ)) :
    (v.run t moves).Sound g := by
  induction moves generalizing v with
  | nil => exact h
  | cons move moves ih => exact ih (h.step t move)

theorem Kept.sound (h : v.Kept g t) : v.Sound g := by
  obtain ⟨s, left, b, interval, deadline, now, moves, hconnect, rfl⟩ := h
  exact (sound_start hconnect interval deadline now).run t moves

theorem Stands.sending_of_result (h : v.Stands g) (hdone : v.barrier.result ≠ none) :
    v.sending = none := by
  cases hsending : v.sending with
  | none => rfl
  | some since => exact absurd (h.misses (by simp [hsending])).1 hdone

/-- Once everyone is heard of, nothing is left to do but to pass. -/
theorem Stands.of_all (h : v.Stands g) (hall : ∀ m ∈ g.peers, m ∈ v.senders) :
    v.sending = none ∧ (v.barrier.result = some (.ok ()) ∨ v.barrier.result = none ∧
      ∃ seen, v.barrier.state = .waiting seen ∧ ∀ m ∈ g.peers, m ∈ seen) := by
  obtain ⟨m, hm⟩ := g.exists_mem_peers
  have hheard : v.heard ≠ [] := by
    intro hnone
    have hsender := hall m hm
    simp [senders, hnone] at hsender
  unfold Stands at h
  cases hstate : v.barrier.state with
  | idle => simp [hstate, hheard] at h
  | announcing => simp [hstate, hheard] at h
  | waiting seen =>
    simp only [hstate] at h
    obtain ⟨htally, -, hrest⟩ := h
    have hseen : ∀ m ∈ g.peers, m ∈ seen := fun m hm => (htally.mem_iff m).mpr ⟨hm, hall m hm⟩
    have hnever : ¬ ∃ m ∈ g.peers, m ∉ seen := fun ⟨m, hm, hnew⟩ => hnew (hseen m hm)
    rcases hrest with ⟨hresult, hsending⟩ | ⟨e, -, -, hmissing⟩
    · refine ⟨?_, Or.inr ⟨hresult, seen, rfl, hseen⟩⟩
      cases hsome : v.sending with
      | none => rfl
      | some since => exact absurd (hsending (by simp [hsome])) hnever
    · exact absurd hmissing hnever
  | ready =>
    simp only [hstate] at h
    exact ⟨h.2.1, Or.inl h.1⟩
  | timedOut =>
    simp only [hstate] at h
    obtain ⟨-, -, missing, -, hlacks⟩ := h
    obtain ⟨m, hm⟩ := List.exists_mem_of_ne_nil _ hlacks.nonempty
    obtain ⟨hpeer, hnew⟩ := (hlacks.mem_iff m).mp hm
    exact absurd (hall m hpeer) hnew

theorem Kept.ok_of_ready (h : v.Kept g t) (hstate : v.barrier.state = .ready) :
    v.barrier.result = some (.ok ()) := by
  have hstands := h.sound.stands
  simp only [Stands, hstate] at hstands
  exact hstands.1

theorem Stands.ready_of_ok (h : v.Stands g) (hok : v.barrier.result = some (.ok ())) :
    v.barrier.state = .ready := by
  unfold Stands at h
  cases hstate : v.barrier.state with
  | ready => rfl
  | idle => simp [hstate, hok] at h
  | announcing => simp [hstate, hok] at h
  | waiting seen => simp [hstate, hok] at h
  | timedOut => simp [hstate, hok] at h

theorem Stands.all_of_ok (h : v.Stands g) (hok : v.barrier.result = some (.ok ())) :
    ∀ m ∈ g.peers, m ∈ v.senders := by
  have hstate := h.ready_of_ok hok
  simp only [Stands, hstate] at h
  exact h.2.2

theorem poll_of_result (hsending : v.sending = none) (hdone : v.barrier.result ≠ none) :
    v.poll t = v := by
  have hstep : v.barrier.step v.book.bridge t.drafting v.deadline v.now (v.book.state, []) = none :=
    Barrier.step_of_result _ _ _ (Option.isSome_iff_ne_none.mpr hdone)
  simp only [poll, hsending, Option.isSome_none, Bool.false_eq_true, if_false, hstep]

/-- The barrier passes exactly when every peer was heard of. -/
theorem Sound.ok_iff (h : v.Sound g) (t : Transport τ) :
    (v.poll t).barrier.result = some (.ok ()) ↔ ∀ m ∈ g.peers, m ∈ v.senders := by
  have hpolls := h.polls t
  constructor
  · intro hok
    generalize v.poll t = w at hpolls hok
    cases hpolls with
    | rest _ _ => exact h.stands.all_of_ok hok
    | @pass seen hresult hsending hstate hall =>
      exact fun m hm => (((h.stands.of_waiting hstate).1.mem_iff m).mp (hall m hm)).2
    | begin hresult _ _ => cases hresult.symm.trans hok
    | expire _ _ => cases hok
    | call hresult _ _ _ _ => cases hresult.symm.trans hok
    | hear hresult _ _ _ _ _ => cases hresult.symm.trans hok
    | starve _ _ _ _ _ _ => cases hok
  · intro hall
    obtain ⟨hsending, hok | ⟨hresult, seen, hstate, hseen⟩⟩ := h.stands.of_all hall
    · rw [poll_of_result hsending (by simp [hok])]
      exact hok
    · rw [← h.book.group] at hseen
      rw [poll_of_quiet hsending (Barrier.step_of_steps hresult (.pass hstate hseen))]

/-- A result is the end: the barrier changes no more, sends nothing and reads nothing. -/
theorem Sound.step_of_result (h : v.Sound g) (hdone : v.barrier.result ≠ none) (t : Transport τ)
    (move : Move τ) : (v.step t move).barrier = v.barrier ∧ (v.step t move).joins = v.joins ∧
      (v.step t move).heard = v.heard := by
  have hsending := h.stands.sending_of_result hdone
  cases move with
  | bridge move =>
    rcases v.step_bridge move with he | ⟨-, he⟩
    · rw [he]
      exact ⟨rfl, rfl, rfl⟩
    · rw [he]
      exact ⟨rfl, rfl, rfl⟩
  | pass elapsed => exact ⟨rfl, rfl, rfl⟩
  | poll =>
    rw [JoinRun.step, poll_of_result hsending hdone]
    exact ⟨rfl, rfl, rfl⟩
  | sent result =>
    simp only [JoinRun.step, JoinRun.sent, hsending]
    exact ⟨trivial, trivial, trivial⟩

theorem Sound.run_of_result (h : v.Sound g) (hdone : v.barrier.result ≠ none) (t : Transport τ)
    (moves : List (Move τ)) : (v.run t moves).barrier = v.barrier ∧
      (v.run t moves).joins = v.joins ∧ (v.run t moves).heard = v.heard := by
  induction moves generalizing v with
  | nil => exact ⟨rfl, rfl, rfl⟩
  | cons move moves ih =>
    obtain ⟨hbarrier, hjoins, hheard⟩ := h.step_of_result hdone t move
    rw [← hbarrier, ← hjoins, ← hheard]
    exact ih (h.step t move) (by rwa [hbarrier])

theorem Sound.follows (h : v.Sound g) (t : Transport τ) (move : Move τ) :
    v.barrier.state.Follows g (v.step t move).barrier.state := by
  have hgiveUp (hmisses : v.barrier.Misses g) :
      v.barrier.state.Follows g v.giveUp.barrier.state := by
    rcases hmisses with hstate | ⟨seen, hstate, hmissing⟩
    · rw [hstate]
      exact .giveUp
    · rw [hstate]
      exact .expire hmissing
  cases move with
  | bridge move =>
    rcases v.step_bridge move with he | ⟨-, he⟩
    · rw [he]
      exact .stay _
    · rw [he]
      exact .stay _
  | pass elapsed => exact .stay _
  | poll =>
    have hpolls := h.polls t
    rw [JoinRun.step]
    generalize v.poll t = w at hpolls ⊢
    cases hpolls with
    | rest _ _ => exact .stay _
    | begin _ _ hstate =>
      rw [hstate]
      exact .begin
    | expire _ hat => exact hgiveUp (hat.elim (fun hsome => (h.stands.misses hsome).2) And.right)
    | call _ _ _ _ _ => exact .stay _
    | pass _ _ hstate hall =>
      rw [hstate]
      exact .pass hall
    | hear _ _ _ hstate _ _ =>
      simp only [hstate, Barrier.hear]
      split
      next hnew =>
        obtain ⟨hpeer, hnew⟩ := Bool.and_eq_true_iff.mp hnew
        exact .see (Group.mem_peers_iff.mpr hpeer) (by simpa using hnew)
      next => exact .stay _
    | starve _ _ _ _ _ _ => exact .stay _
  | sent result =>
    simp only [JoinRun.step, JoinRun.sent]
    split
    next => exact .stay _
    next since hsending =>
      obtain ⟨-, hmisses⟩ := h.stands.misses (by simp [hsending])
      split
      next => exact hgiveUp hmisses
      next =>
        split
        next => exact .stay _
        next =>
          simp only [Barrier.joined]
          split
          next hstate =>
            rw [hstate]
            exact .wait
          next => exact .stay _

/-- When the time is over, a barrier that has begun ends at once. -/
theorem Sound.result_of_expired (h : v.Sound g) (hexpired : v.deadline.isExpired = true)
    (hbegun : v.barrier.state ≠ .idle) (t : Transport τ) : (v.poll t).barrier.result ≠ none := by
  have hlate : v.deadline.isExpired ≠ false := by simp [hexpired]
  have hpolls := h.polls t
  generalize v.poll t = w at hpolls ⊢
  cases hpolls with
  | rest hsending hrest =>
    intro hresult
    cases hsome : v.sending with
    | none => exact hlate (hrest hsome hresult).1
    | some since => exact hlate (hsending (by simp [hsome]))
  | begin _ _ hstate => exact absurd hstate hbegun
  | expire _ _ => simp [JoinRun.giveUp, Barrier.timeOut]
  | call _ _ hlive _ _ => exact absurd hlive hlate
  | pass _ _ _ _ => simp
  | hear _ _ hlive _ _ _ => exact absurd hlive hlate
  | starve _ _ _ _ _ _ => simp [Barrier.fail]

/-- A barrier begins with a join. -/
theorem Sound.begins (h : v.Sound g) (hidle : v.barrier.state = .idle)
    (hlive : v.deadline.isExpired = false) (t : Transport τ) :
    (v.poll t).poll t = { v with
      barrier := { v.barrier with state := .announcing }
      sending := some v.now
      joins := [g.joinDraft] } := by
  have hstands := h.stands
  simp only [Stands, hidle] at hstands
  obtain ⟨hresult, hsending, hjoins, -⟩ := hstands
  have hsend := Bridge.broadcastJoin_drafting h.announce t v.book.state
  have hbegun := poll_of_quiet (t := t) hsending (Barrier.step_of_steps hresult (.begin hidle))
  have hcalls := poll_of_call (v := { v with barrier := { v.barrier with state := .announcing } })
    hsending (Barrier.step_of_steps hresult (.join rfl hlive hsend))
  rw [hbegun, hcalls, hjoins, h.book.group]
  rfl

/-- The first poll of a barrier is its beginning. -/
theorem Sound.begun (h : v.Sound g) (t : Transport τ) : (v.poll t).barrier.state ≠ .idle := by
  intro hidle
  have hpolls := h.polls t
  generalize v.poll t = w at hpolls hidle
  cases hpolls with
  | rest _ hrest =>
    have hstands := h.stands
    simp only [Stands, hidle] at hstands
    obtain ⟨-, -, seen, hstate, -⟩ := hrest hstands.2.1 hstands.1
    cases hidle.symm.trans hstate
  | begin _ _ _ => cases hidle
  | expire _ _ => cases hidle
  | call _ _ _ hmisses _ =>
    rcases hmisses with hstate | ⟨seen, hstate, -⟩
    · cases hidle.symm.trans hstate
    · cases hidle.symm.trans hstate
  | pass _ _ _ _ => cases hidle
  | hear _ _ _ _ _ _ => cases hidle
  | starve _ _ _ hstate _ _ => cases hidle.symm.trans hstate

/-- A barrier that the end of the time finds before its first step. -/
structure Late (g : Group) (v : JoinRun τ) : Prop where
  expired : v.deadline.isExpired = true
  sending : v.sending = none
  joins : v.joins = []
  course : v.barrier.result = none ∧ (v.barrier.state = .idle ∨ v.barrier.state = .announcing) ∨
    v.barrier.result = some (.error (.joinTimeout (MemberId.sort g.peers)))

theorem Late.poll (h : v.Late g) (hsound : v.Sound g) (t : Transport τ) : (v.poll t).Late g := by
  have hlate : v.deadline.isExpired ≠ false := by simp [h.expired]
  rcases h.course with ⟨hresult, hstate⟩ | hdone
  · have hpolls := hsound.polls t
    generalize v.poll t = w at hpolls ⊢
    cases hpolls with
    | rest _ hrest => exact absurd (hrest h.sending hresult).1 hlate
    | begin _ _ _ => exact { h with course := Or.inl ⟨hresult, Or.inr rfl⟩ }
    | expire _ _ =>
      have hseen : v.barrier.seen = [] := by
        rcases hstate with hstate | hstate
        · simp only [Barrier.seen, hstate]
        · exact Barrier.seen_of_announcing hstate
      refine ⟨h.expired, rfl, h.joins, Or.inr ?_⟩
      simp [giveUp, Barrier.timeOut, Barrier.missing, hseen, hsound.book.group]
    | call _ _ hlive _ _ => exact absurd hlive hlate
    | pass _ _ hstate' _ =>
      rcases hstate with hstate | hstate
      · cases hstate.symm.trans hstate'
      · cases hstate.symm.trans hstate'
    | hear _ _ hlive _ _ _ => exact absurd hlive hlate
    | starve _ _ hlive _ _ _ => exact absurd hlive hlate
  · rw [poll_of_result h.sending (by simp [hdone])]
    exact h

theorem Late.step (h : v.Late g) (hsound : v.Sound g) (t : Transport τ) (move : Move τ) :
    (v.step t move).Late g := by
  cases move with
  | bridge move =>
    rcases v.step_bridge move with he | ⟨-, he⟩
    · rw [he]
      exact h
    · rw [he]
      exact ⟨h.expired, h.sending, h.joins, h.course⟩
  | pass elapsed =>
    refine ⟨?_, h.sending, h.joins, h.course⟩
    have hexpired := h.expired
    simp only [Deadline.isExpired] at hexpired
    simp [JoinRun.step, Deadline.tick_eq, Deadline.isExpired, hexpired]
  | poll => exact h.poll hsound t
  | sent result =>
    simp only [JoinRun.step, JoinRun.sent, h.sending]
    exact h

theorem Late.run (h : v.Late g) (hsound : v.Sound g) (t : Transport τ) (moves : List (Move τ)) :
    (v.run t moves).Late g := by
  induction moves generalizing v with
  | nil => exact h
  | cons move moves ih => exact ih (h.step hsound t move) (hsound.step t move)

/-- A turn of a barrier whose join takes no time. -/
def turn (v : JoinRun τ) (t : Transport τ) : JoinRun τ :=
  match (v.poll t).sending, (v.poll t).joins.getLast? with
  | some _, some d =>
    let (result, s) := t.send d.group d.target d.bytes v.book.state
    (v.poll t).run t [.bridge (.others s), .sent result]
  | _, _ => v.poll t

/-- What a barrier does whose joins take no time: nothing, or one step. -/
def Performs (t : Transport τ) (v w : JoinRun τ) : Prop :=
  match v.barrier.step v.book.bridge t v.deadline v.now v.book.state with
  | none => w = v
  | some (barrier, bridge, s) =>
    w.barrier = barrier ∧ w.book.bridge = bridge ∧ w.book.state = s ∧ w.sending = none

end JoinRun

theorem Bridge.broadcastJoin_eq {τ : Type} {b : Bridge} {bytes : ByteArray}
    (h : (Envelope.announce b.group.localMember).encode = .ok bytes) (t : Transport τ) (s : τ) :
    b.broadcastJoin t s =
      match t.send b.group.id .everyone b.group.joinDraft.bytes s with
      | (.error e, s) => (.error (.transport e), s)
      | (.ok _, s) => (.ok (), s) := by
  rcases hsend : t.send b.group.id .everyone b.group.joinDraft.bytes s with ⟨_ | _, left⟩
  · rw [Group.joinDraft] at hsend
    simp only [broadcastJoin, publish, Envelope.encode_join h, hsend]
  · rw [Group.joinDraft] at hsend
    simp only [broadcastJoin, publish, Envelope.encode_join h, hsend]

/-- The step of a barrier is that of one whose join is held back, and then the join. -/
theorem Barrier.step_drafting {τ : Type} {b : Barrier} {bridge : Bridge} {bytes : ByteArray}
    (h : (Envelope.announce bridge.group.localMember).encode = .ok bytes) (t : Transport τ)
    (deadline : Deadline) (now : Nat) (s : τ) :
    match b.step bridge t.drafting deadline now (s, []) with
    | none => b.step bridge t deadline now s = none
    | some (b', bridge', _, []) => b.step bridge t deadline now s = some (b', bridge', s)
    | some (_, _, _, d :: _) => deadline.isExpired = false ∧
      match t.send d.group d.target d.bytes s with
      | (.error e, s') => b.step bridge t deadline now s = some (b.fail (.transport e), bridge, s')
      | (.ok _, s') => b.step bridge t deadline now s = some (b.joined now now, bridge, s') := by
  have hdrafted := bridge.broadcastJoin_drafting h t s
  have hreal := bridge.broadcastJoin_eq h t s
  have hdraft : bridge.group.joinDraft.group = bridge.group.id ∧
      bridge.group.joinDraft.target = .everyone := ⟨rfl, rfl⟩
  unfold step
  by_cases hresult : b.result.isSome = true
  · simp only [hresult, if_true]
  · simp only [hresult, Bool.false_eq_true, if_false]
    cases hstate : b.state with
    | idle => rfl
    | announcing =>
      cases hexpired : deadline.isExpired with
      | true => rfl
      | false =>
        simp only [hdrafted, Bool.false_eq_true, if_false, true_and, hdraft, hreal, joined, hstate]
        rcases t.send bridge.group.id .everyone bridge.group.joinDraft.bytes s with ⟨_ | _, s'⟩
        · rfl
        · rfl
    | waiting seen =>
      dsimp only
      by_cases hall : bridge.group.peers.all (· ∈ seen) = true
      · simp only [hall, if_true]
      · simp only [hall, Bool.false_eq_true, if_false]
        cases hexpired : deadline.isExpired with
        | true => rfl
        | false =>
          cases hsignals : bridge.signals with
          | cons signal signals => rfl
          | nil =>
            dsimp only
            cases hopen : bridge.isOpen with
            | false => rfl
            | true =>
              by_cases hdue : now < b.nextTick
              · simp [hdue]
              · simp only [hdue, hdrafted, hreal, joined, hstate, hdraft, Bool.not_true,
                  Bool.false_eq_true, if_false, true_and]
                rcases t.send bridge.group.id .everyone bridge.group.joinDraft.bytes s with
                  ⟨_ | _, s'⟩
                · rfl
                · rfl
    | ready => rfl
    | timedOut => rfl

namespace JoinRun

variable {τ : Type} {g : Group} {t : Transport τ} {v : JoinRun τ}

theorem turn_of_sending (h : (v.poll t).sending = none) : v.turn t = v.poll t := by
  simp only [turn, h]

/-- A poll, and what comes of the join if there is one, is one step of the barrier. -/
theorem Sound.performs_turn (h : v.Sound g) (hsending : v.sending = none) (t : Transport τ) :
    v.Performs t (v.turn t) := by
  have hstep :=
    Barrier.step_drafting (b := v.barrier) h.announce t v.deadline v.now v.book.state
  unfold Performs
  split at hstep
  next hnone =>
    have hpoll : v.poll t = v := by
      simp only [JoinRun.poll, hsending, Option.isSome_none, Bool.false_eq_true, if_false, hnone]
    rw [hstep, turn_of_sending (by rw [hpoll, hsending]), hpoll]
  next barrier bridge s hsome =>
    have hpoll : (v.poll t).barrier = barrier ∧ (v.poll t).book.bridge = bridge ∧
        (v.poll t).book.state = v.book.state ∧ (v.poll t).sending = none := by
      simp only [JoinRun.poll, hsending, Option.isSome_none, Bool.false_eq_true, if_false, hsome,
        and_self]
    rw [hstep, turn_of_sending hpoll.2.2.2]
    exact hpoll
  next barrier bridge s d drafts hsome =>
    obtain ⟨hlive, hsend⟩ := hstep
    have hturn : v.turn t = { v with
        book := { v.book with state := (t.send d.group d.target d.bytes v.book.state).2 }
        joins := v.joins ++ [d]
        sending := some v.now }.sent (t.send d.group d.target d.bytes v.book.state).1 := by
      simp only [turn, poll_of_call hsending hsome, List.getLast?_concat]
      rfl
    rw [hturn]
    rcases hresult : t.send d.group d.target d.bytes v.book.state with ⟨_ | _, left⟩
    · rw [hresult] at hsend
      rw [hsend]
      simp [JoinRun.sent, hlive]
    · rw [hresult] at hsend
      rw [hsend]
      simp [JoinRun.sent, hlive]

/-- A barrier begins, sends its join, waits and hears of peers, one at a time, and it ends in one
of three ways: it passes, exactly when something was read of every peer in time; it runs out of
time and lists the others; or the transport fails. It ends at the latest when the time is over,
and what ends before it has begun sends nothing. -/
theorem Kept.course (h : v.Kept g t) :
    v.Stands g ∧
      (∀ move, v.barrier.state.Follows g (v.step t move).barrier.state) ∧
      ((v.poll t).barrier.result = some (.ok ()) ↔
        ∀ m ∈ g.peers, ∃ x ∈ v.heard, x.2.sender = m ∧ x.1 < v.deadline.expiresAt) ∧
      v.heard.map Prod.snd ++ v.book.bridge.signals = v.book.notes.filterMap Note.kept? ∧
      (∀ d ∈ v.joins, d = g.joinDraft) ∧
      (v.barrier.result ≠ none → ∀ moves, (v.run t moves).barrier = v.barrier ∧
        (v.run t moves).joins = v.joins ∧ (v.run t moves).heard = v.heard) ∧
      (∀ elapsed, (v.deadline.tick (v.now + elapsed)).isExpired = true →
        (v.run t [.pass elapsed, .poll, .poll]).barrier.result ≠ none) ∧
      (v.barrier.state = .idle → v.deadline.isExpired = true → ∀ moves,
        (v.run t moves).joins = [] ∧ ((v.run t moves).barrier.result = none ∨
          (v.run t moves).barrier.result =
            some (.error (.joinTimeout (MemberId.sort g.peers))))) ∧
      (v.sending = none → v.Performs t (v.turn t)) := by
  have hsound := h.sound
  refine ⟨hsound.stands, hsound.follows t, ?_, ?_, hsound.joins,
    fun hdone => hsound.run_of_result hdone t, ?_, ?_,
    fun hsending => hsound.performs_turn hsending t⟩
  · rw [hsound.ok_iff t]
    constructor
    · intro hall m hm
      obtain ⟨x, hx, hsender⟩ := List.mem_map.mp (hall m hm)
      exact ⟨x, hx, hsender, hsound.timely x hx⟩
    · intro hall m hm
      obtain ⟨x, hx, hsender, -⟩ := hall m hm
      exact List.mem_map.mpr ⟨x, hx, hsender⟩
  · rw [hsound.heeded]
    exact hsound.book.queue
  · intro elapsed hexpired
    have hlate := hsound.pass t elapsed
    refine (hlate.poll t).result_of_expired ?_ (hlate.begun t) t
    rw [(poll_keeps _ t).1]
    exact hexpired
  · intro hidle hexpired moves
    have hstands := hsound.stands
    simp only [Stands, hidle] at hstands
    obtain ⟨hresult, hsending, hjoins, -⟩ := hstands
    have hlate : v.Late g := ⟨hexpired, hsending, hjoins, Or.inl ⟨hresult, Or.inl hidle⟩⟩
    have hrun := hlate.run hsound t moves
    exact ⟨hrun.joins, hrun.course.imp And.left id⟩

end JoinRun

namespace JoinSample

open Screening JoinRun

/-- A peer's announce that waits from the start, and one that comes later. -/
def link : Link := { Link.create b none false with
  inbox := [⟨"g", a, (Envelope.announce a).framed⟩, ⟨"g", c, (Envelope.announce c).framed⟩] }

def readyRun : JoinRun Link :=
  (start bridge link 100 ⟨.ofSecs 5, Deadline.nanosOf 5000, false⟩ 0).run (Link.transport b)
    [.bridge .take, .poll, .poll, .pass 5, .sent (.ok ()), .poll, .pass 20, .bridge .take, .poll,
      .poll]

theorem kept_readyRun : readyRun.Kept group (Link.transport b) :=
  ⟨link, link, bridge, _, _, _, _, connect_of_link rfl, rfl⟩

theorem course_readyRun :
    readyRun.Kept group (Link.transport b) ∧ readyRun.barrier.state = .ready ∧
      readyRun.barrier.result = some (.ok ()) ∧ readyRun.joins = [group.joinDraft] ∧
      readyRun.heard = [(5, .announce a), (25, .announce c)] ∧
      ∀ m ∈ group.peers, ∃ x ∈ readyRun.heard,
        x.2.sender = m ∧ x.1 < readyRun.deadline.expiresAt := by
  obtain ⟨-, -, hok, -, -, hdone, -⟩ := JoinRun.Kept.course kept_readyRun
  obtain ⟨hstate, hjoins, hheard⟩ : readyRun.barrier.state = .ready ∧
      readyRun.joins = [group.joinDraft] ∧
        readyRun.heard = [(5, .announce a), (25, .announce c)] := by
    decide +kernel
  have hresult := kept_readyRun.ok_of_ready hstate
  have hpassed := (congrArg Barrier.result (hdone (by simp [hresult]) [.poll]).1).trans hresult
  rw [JoinRun.run, List.foldl_cons, List.foldl_nil, JoinRun.step] at hpassed
  exact ⟨kept_readyRun, hstate, hresult, hjoins, hheard, hok.mp hpassed⟩

end JoinSample

end ThresholdSigning
