import ThresholdSigning.Proofs.Conversation
import ThresholdSigning.Proofs.Screening

namespace ThresholdSigning

variable {σ α τ : Type}

namespace Rounds

/-- The message that a move hands to the bridge to be sent, with the answer of the bridge. -/
def handed (t : Transport τ) (deadline : Deadline) (move : Move) (r : Rounds σ α) (b : Bridge)
    (s : τ) : List (Outbound × Except Error Unit) :=
  if move = .send ∧ r.isOver = false ∧ deadline.isExpired = false then
    r.outbox.head?.toList.map fun m => (m, (b.send t m.payload m.target s).1)
  else []

variable {p : Party σ α} {t : Transport τ} {deadline : Deadline} {move : Move} {r r' : Rounds σ α}
  {b b' : Bridge} {s s' : τ} {calls more : List (Call α)}
  {handed now : List (Outbound × Except Error Unit)}

/-- All that one move can be, with the calls that it makes and what it hands to the bridge. -/
inductive Does (p : Party σ α) (t : Transport τ) (deadline : Deadline) (r : Rounds σ α)
    (b : Bridge) (s : τ) :
    List (Call α) → List (Outbound × Except Error Unit) → Rounds σ α → Bridge → τ → Prop
  | work {r' : Rounds σ α} (hworks : r.Works p r') :
      r.Does p t deadline b s (r.workCalls p) [] r' b s
  | expire (hover : r.isOver = false) (hexpired : deadline.isExpired = true) :
      r.Does p t deadline b s [] [] (r.stop .expired) b s
  | send {m : Outbound} {outbox : List Outbound} {left : τ} (hover : r.isOver = false)
      (hlive : deadline.isExpired = false) (houtbox : r.outbox = m :: outbox)
      (hsend : b.send t m.payload m.target s = (.ok (), left)) :
      r.Does p t deadline b s [] [(m, .ok ())] { r with outbox := outbox } b left
  | sendFails {m : Outbound} {outbox : List Outbound} {e : Error} {left : τ}
      (hover : r.isOver = false) (hlive : deadline.isExpired = false)
      (houtbox : r.outbox = m :: outbox)
      (hsend : b.send t m.payload m.target s = (.error e, left)) :
      r.Does p t deadline b s [] [(m, .error e)] ({ r with outbox := outbox }.stop (.network e)) b
        left
  | watch {r' : Rounds σ α} {b' : Bridge} {s' : τ} (hover : r.isOver = false)
      (hlive : deadline.isExpired = false) (hwatches : r.Watches t b s r' b' s')
      (hkept : r'.outbox = r.outbox) : r.Does p t deadline b s [] [] r' b' s'

theorem outbox_of_take (h : r.take b = some (r', b')) : r'.outbox = r.outbox := by
  unfold take at h
  split at h
  next =>
    split at h
    next => cases h
    next =>
      split at h
      next =>
        split at h
        next => cases h; rfl
        next => cases h; rfl
      next =>
        split at h
        next => cases h
        next => cases h; rfl
  next => cases h

theorem outbox_of_finish (h : r.finish = some r') : r'.outbox = r.outbox := by
  unfold finish at h
  split at h
  next => cases h; rfl
  next => cases h; rfl
  next => cases h

theorem outbox_of_send (houtbox : r.outbox = []) (h : r.send b t s = some (r', s')) :
    r'.outbox = r.outbox := by
  unfold send at h
  split at h
  next => cases h
  next =>
    split at h
    next => cases h; rfl
    next => cases h
  next => cases h; rfl
  next hcons _ => cases houtbox.symm.trans hcons

theorem send_of_cons {m : Outbound} {outbox : List Outbound} (hover : r.isOver = false)
    (houtbox : r.outbox = m :: outbox) :
    r.send b t s =
      match b.send t m.payload m.target s with
      | (.error e, s) => some ({ r with outbox := outbox }.stop (.network e), s)
      | (.ok _, s) => some ({ r with outbox := outbox }, s) := by
  unfold send
  split
  next _ hwatch => simp [isOver, hwatch] at hover
  next hnil => cases hnil.symm.trans houtbox
  next hnil => cases hnil.symm.trans houtbox
  next hcons _ =>
    cases hcons.symm.trans houtbox
    rfl

theorem does_of_send (hover : r.isOver = false) (hlive : deadline.isExpired = false)
    (h : r.send b t s = some (r', s')) :
    r.Does p t deadline b s [] (r.handed t deadline .send b s) r' b s' := by
  have hhanded : r.handed t deadline .send b s =
      r.outbox.head?.toList.map fun m => (m, (b.send t m.payload m.target s).1) :=
    if_pos ⟨rfl, hover, hlive⟩
  rw [hhanded]
  cases houtbox : r.outbox with
  | nil => exact .watch hover hlive (watches_of_send h) (outbox_of_send houtbox h)
  | cons m outbox =>
    rw [send_of_cons hover houtbox] at h
    rcases hsend : b.send t m.payload m.target s with ⟨answer, left⟩
    rw [hsend] at h
    simp only [List.head?_cons, Option.toList_some, List.map_cons, List.map_nil, hsend]
    cases answer with
    | error e =>
      cases h
      exact .sendFails hover hlive houtbox hsend
    | ok _ =>
      cases h
      exact .send hover hlive houtbox hsend

theorem does_of_step (h : r.step p t deadline move b s = some (r', b', s')) :
    r.Does p t deadline b s (r.calls p move) (r.handed t deadline move b s) r' b' s' := by
  by_cases hwork : move = .work
  · subst hwork
    have hcalls : r.calls p .work = r.workCalls p := if_pos rfl
    have hhanded : r.handed t deadline .work b s = [] := if_neg (by simp)
    simp only [step, if_true] at h
    obtain ⟨r'', hr, he⟩ := Option.map_eq_some_iff.mp h
    cases he
    rw [hcalls, hhanded]
    exact .work (works_of_work hr)
  · have hcalls : r.calls p move = [] := if_neg hwork
    simp only [step, hwork, if_false] at h
    rw [hcalls]
    by_cases hover : r.isOver = true
    · simp [hover] at h
    have hover : r.isOver = false := by simpa using hover
    simp only [hover, Bool.false_eq_true, if_false] at h
    by_cases hexpired : deadline.isExpired = true
    · have hhanded : r.handed t deadline move b s = [] := if_neg (by simp [hexpired])
      simp only [hexpired, if_true] at h
      cases h
      rw [hhanded]
      exact .expire hover hexpired
    have hlive : deadline.isExpired = false := by simpa using hexpired
    simp only [hlive, Bool.false_eq_true, if_false] at h
    cases move with
    | work => exact absurd rfl hwork
    | take =>
      obtain ⟨⟨r'', b''⟩, htake, he⟩ := Option.map_eq_some_iff.mp h
      cases he
      exact .watch hover hlive (watches_of_take htake) (outbox_of_take htake)
    | send =>
      obtain ⟨⟨r'', s''⟩, hsend, he⟩ := Option.map_eq_some_iff.mp h
      cases he
      exact does_of_send hover hlive hsend
    | finish =>
      obtain ⟨r'', hfinish, he⟩ := Option.map_eq_some_iff.mp h
      cases he
      exact .watch hover hlive (watches_of_finish hfinish) (outbox_of_finish hfinish)
    | expire => cases h

/-- The books of the rounds. What the party produced is handed over, queued or about to be queued,
in this order, up to where the worker was held up by the end; a failed send ends the rounds; and
rounds that succeed have handed over everything. -/
structure Accounted (r : Rounds σ α) (calls : List (Call α))
    (handed : List (Outbound × Except Error Unit)) : Prop where
  abides : r.Abides calls
  produced : handed.map Prod.fst ++ r.outbox ++ r.unqueued = calls.flatMap Call.produced ∨
    r.WasCut ∧ handed.map Prod.fst ++ r.outbox ++ r.unqueued <+: calls.flatMap Call.produced
  failed : ∀ m e, (m, .error e) ∈ handed → r.watch = .over (.error (.network e))
  sentAll : r.sentAll = true → r.isFinished = true ∧ r.outbox = []
  sending : ∀ output, r.watch = .sending output → r.worker = .finished (.ok output)
  succeeded : ∀ output, r.watch = .over (.ok output) →
    r.worker = .finished (.ok output) ∧ r.outbox = []

theorem accounted_create (party : σ) : (create party : Rounds σ α).Accounted [] [] where
  abides := .unstarted rfl
  produced := Or.inl rfl
  failed := nofun
  sentAll := nofun
  sending := nofun
  succeeded := nofun

theorem isOver_of_watch {result : Except RoundsFault α} (h : r.watch = .over result) :
    r.isOver = true := by
  simp only [isOver, h]

theorem isFinished_iff : r.isFinished = true ↔ ∃ result, r.worker = .finished result := by
  unfold isFinished
  split
  next result h => simp [h]
  next h =>
    constructor
    · intro hfalse
      cases hfalse
    · rintro ⟨result, hresult⟩
      exact absurd hresult (h result)

/-- A worker that has gone does nothing more. -/
theorem Works.not_finished (h : r.Works p r') : r.isFinished = false := by
  cases hfinished : r.isFinished with
  | false => rfl
  | true =>
    obtain ⟨result, hresult⟩ := isFinished_iff.mp hfinished
    cases h <;> simp_all

theorem Works.kept (h : r.Works p r') : r'.watch = r.watch ∧ r'.sentAll = r.sentAll := by
  cases h <;> exact ⟨rfl, rfl⟩

theorem unqueued_of_worker (h : r'.worker = r.worker) : r'.unqueued = r.unqueued := by
  simp only [unqueued, h]

theorem Accounted.work (h : r.Accounted calls handed) (hworks : r.Works p r') :
    r'.Accounted (calls ++ r.workCalls p) handed := by
  have hgoing := hworks.not_finished
  have hbusy {result : Except RoundsFault α} : r.worker ≠ .finished result := by
    intro hworker
    rw [isFinished_iff.mpr ⟨_, hworker⟩] at hgoing
    cases hgoing
  obtain ⟨hwatch, hsentAll⟩ := hworks.kept
  refine ⟨h.abides.work hworks, ?_, ?_, ?_, ?_, ?_⟩
  · have hproduced := h.produced.resolve_right fun hcut => hbusy hcut.1.1
    rw [List.flatMap_append, ← hproduced]
    rcases hworks.produced with hmore | ⟨hcut, houtbox, hunqueued, hnothing⟩
    · refine Or.inl ?_
      rw [List.append_assoc, hmore]
      simp only [List.append_assoc]
    · refine Or.inr ⟨hcut, ?_⟩
      rw [houtbox, hunqueued, hnothing, List.append_nil, List.append_nil]
      exact List.prefix_append _ _
  · rw [hwatch]
    exact h.failed
  · intro hall
    rw [hsentAll] at hall
    rw [(h.sentAll hall).1] at hgoing
    cases hgoing
  · intro output hsending
    rw [hwatch] at hsending
    exact absurd (h.sending output hsending) hbusy
  · intro output hsucceeded
    rw [hwatch] at hsucceeded
    exact absurd (h.succeeded output hsucceeded).1 hbusy

/-- As long as the rounds are not over nothing has gone wrong with what was produced. -/
theorem Accounted.of_not_over (h : r.Accounted calls handed) (hover : r.isOver = false) :
    handed.map Prod.fst ++ r.outbox ++ r.unqueued = calls.flatMap Call.produced ∧
      ∀ m e, (m, .error e) ∉ handed := by
  refine ⟨?_, ?_⟩
  · refine h.produced.resolve_right fun hcut => ?_
    rw [hcut.1.2] at hover
    cases hover
  · intro m e hmem
    rw [isOver_of_watch (h.failed m e hmem)] at hover
    cases hover

/-- What the watching side does to the rounds without sending. -/
theorem Accounted.of_same_queue (h : r.Accounted calls handed) (hover : r.isOver = false)
    (hworker : r'.worker = r.worker) (houtbox : r'.outbox = r.outbox)
    (hsentAll : r'.sentAll = true → r'.isFinished = true ∧ r'.outbox = [])
    (hsending : ∀ output, r'.watch = .sending output → r'.worker = .finished (.ok output))
    (hsucceeded : ∀ output, r'.watch = .over (.ok output) →
      r'.worker = .finished (.ok output) ∧ r'.outbox = []) : r'.Accounted calls handed := by
  obtain ⟨hproduced, hclean⟩ := h.of_not_over hover
  refine ⟨h.abides.of_kept hworker ?_, Or.inl ?_, ?_, hsentAll, hsending, hsucceeded⟩
  · intro hr
    rw [hr] at hover
    cases hover
  · rw [houtbox, unqueued_of_worker hworker, hproduced]
  · intro m e hmem
    exact absurd hmem (hclean m e)

theorem Accounted.stop (h : r.Accounted calls handed) (hover : r.isOver = false)
    (fault : RoundsFault) : (r.stop fault).Accounted calls handed :=
  h.of_same_queue hover rfl rfl h.sentAll nofun nofun

theorem Accounted.watch (h : r.Accounted calls handed) (hover : r.isOver = false)
    (hwatches : r.Watches t b s r' b' s') (hkept : r'.outbox = r.outbox) :
    r'.Accounted calls handed := by
  cases hwatches with
  | take _ _ _ _ => exact h.of_same_queue hover rfl rfl h.sentAll h.sending h.succeeded
  | takeUnread _ _ _ _ => exact h.of_same_queue hover rfl rfl h.sentAll h.sending h.succeeded
  | streamEnds _ _ _ _ => exact h.stop hover _
  | sentAll _ houtbox hfinished _ =>
    exact h.of_same_queue hover rfl rfl (fun _ => ⟨hfinished, houtbox⟩) h.sending h.succeeded
  | @sentRest output hwatch houtbox =>
    refine h.of_same_queue hover rfl rfl h.sentAll nofun ?_
    rintro _ ⟨⟩
    exact ⟨h.sending output hwatch, houtbox⟩
  | send houtbox _ => simp [houtbox] at hkept
  | sendFails houtbox _ => simp [houtbox, Rounds.stop] at hkept
  | @finish output hwatch hworker =>
    refine h.of_same_queue hover rfl rfl h.sentAll ?_ ?_
    · intro other hother
      dsimp only at hother
      split at hother <;> cases hother
      exact hworker
    · intro other hother
      dsimp only at hother
      split at hother
      next hall =>
        cases hother
        exact ⟨hworker, (h.sentAll hall).2⟩
      next => cases hother
  | finishFails _ _ => exact h.stop hover _

theorem Accounted.does (h : r.Accounted calls handed)
    (hdoes : r.Does p t deadline b s more now r' b' s') :
    r'.Accounted (calls ++ more) (handed ++ now) := by
  cases hdoes with
  | work hworks =>
    rw [List.append_nil]
    exact h.work hworks
  | expire hover _ =>
    rw [List.append_nil, List.append_nil]
    exact h.stop hover _
  | watch hover _ hwatches hkept =>
    rw [List.append_nil, List.append_nil]
    exact h.watch hover hwatches hkept
  | @send m outbox _ hover _ houtbox _ =>
    obtain ⟨hproduced, hclean⟩ := h.of_not_over hover
    rw [List.append_nil]
    refine ⟨h.abides.of_kept rfl id, Or.inl ?_, ?_, ?_, h.sending, ?_⟩
    · rw [← hproduced, houtbox, List.map_append, List.append_assoc (handed.map Prod.fst)]
      rfl
    · intro m' e hmem
      rcases List.mem_append.mp hmem with hold | hnew
      · exact absurd hold (hclean m' e)
      · cases List.mem_singleton.mp hnew
    · intro hall
      cases houtbox.symm.trans (h.sentAll hall).2
    · intro output hsucceeded
      have hwatch : r.watch = .over (.ok output) := hsucceeded
      rw [isOver_of_watch hwatch] at hover
      cases hover
  | @sendFails m outbox e _ hover _ houtbox _ =>
    obtain ⟨hproduced, hclean⟩ := h.of_not_over hover
    rw [List.append_nil]
    refine ⟨h.abides.of_kept rfl ?_, Or.inl ?_, ?_, ?_, nofun, nofun⟩
    · intro _
      rfl
    · rw [← hproduced, houtbox, List.map_append, List.append_assoc (handed.map Prod.fst)]
      rfl
    · intro m' e' hmem
      rcases List.mem_append.mp hmem with hold | hnew
      · exact absurd hold (hclean m' e')
      · cases List.mem_singleton.mp hnew
        rfl
    · intro hall
      cases houtbox.symm.trans (h.sentAll hall).2

/-- The rounds send nothing but what is handed to the bridge. -/
theorem Does.foldl_handed (h : r.Does p t deadline b s more now r' b' s') :
    s' = now.foldl (fun s x => (b.send t x.1.payload x.1.target s).2) s := by
  cases h with
  | work _ => rfl
  | expire _ _ => rfl
  | send _ _ _ hsend =>
    simp only [List.foldl_cons, List.foldl_nil, hsend]
  | sendFails _ _ _ hsend =>
    simp only [List.foldl_cons, List.foldl_nil, hsend]
  | watch _ _ hwatches hkept =>
    cases hwatches with
    | send houtbox _ => simp [houtbox] at hkept
    | sendFails houtbox _ => simp [houtbox, Rounds.stop] at hkept
    | _ => rfl

/-- Only the calls of a move are made on the party. -/
theorem Does.converses (h : r.Does p t deadline b s more now r' b' s') :
    p.Converses r.party more r'.party := by
  cases h with
  | work hworks => exact hworks.converses
  | expire _ _ => exact .nil _
  | send _ _ _ _ => exact .nil _
  | sendFails _ _ _ _ => exact .nil _
  | watch _ _ hwatches _ => cases hwatches <;> exact .nil _

end Rounds

/-- Rounds with all the calls that they made and all that they handed to the bridge. -/
structure Drive (σ α : Type) where
  rounds : Rounds σ α
  calls : List (Call α)
  handed : List (Outbound × Except Error Unit)

namespace Drive

def create (party : σ) : Drive σ α := ⟨.create party, [], []⟩

/-- Enters a move in the books. -/
def add (p : Party σ α) (t : Transport τ) (deadline : Deadline) (move : Rounds.Move)
    (d : Drive σ α) (b : Bridge) (s : τ) (after : Rounds σ α) : Drive σ α where
  rounds := after
  calls := d.calls ++ d.rounds.calls p move
  handed := d.handed ++ d.rounds.handed t deadline move b s

/-- What rounds can come to that begin with a party. Between two moves anything may happen to the
bridge, the transport and the deadline. -/
inductive Reached (p : Party σ α) (t : Transport τ) (party : σ) : Drive σ α → Prop
  | create : Reached p t party (create party)
  | step {d : Drive σ α} {deadline : Deadline} {move : Rounds.Move} {b b' : Bridge} {s s' : τ}
      {after : Rounds σ α} (h : Reached p t party d)
      (hstep : d.rounds.step p t deadline move b s = some (after, b', s')) :
      Reached p t party (d.add p t deadline move b s after)

variable {p : Party σ α} {t : Transport τ} {party : σ} {d : Drive σ α}

theorem Reached.accounted (h : Reached p t party d) :
    d.rounds.Accounted d.calls d.handed := by
  induction h with
  | create => exact Rounds.accounted_create party
  | step _ hstep ih => exact ih.does (Rounds.does_of_step hstep)

theorem Reached.converses (h : Reached p t party d) :
    p.Converses party d.calls d.rounds.party := by
  induction h with
  | create => exact .nil party
  | step _ hstep ih => exact ih.append (Rounds.does_of_step hstep).converses

/-- Whatever the party is and whatever happens around it: what is handed to the bridge is, in order
and once each, a first part of what the party gave when it was drained; with an output, which is
then the party's result, it is all of it, and every send has succeeded; a failed send is the end.
Nothing else is sent. -/
theorem outbound_complete (h : Reached p t party d) :
    p.Converses party d.calls d.rounds.party ∧
      d.handed.map Prod.fst <+: d.calls.flatMap Call.produced ∧
      (∀ output, d.rounds.watch = .over (.ok output) →
        d.calls.getLast? = some (.result (.ok output)) ∧
          d.handed.map Prod.fst = d.calls.flatMap Call.produced ∧
          ∀ x ∈ d.handed, x.2 = .ok ()) ∧
      (∀ m e, (m, .error e) ∈ d.handed → d.rounds.watch = .over (.error (.network e))) ∧
      ∀ deadline move b s after b' s', d.rounds.step p t deadline move b s = some (after, b', s') →
        s' = (d.rounds.handed t deadline move b s).foldl
          (fun s x => (b.send t x.1.payload x.1.target s).2) s := by
  have haccounted := h.accounted
  refine ⟨h.converses, ?_, ?_, haccounted.failed, ?_⟩
  · rcases haccounted.produced with heq | ⟨-, hprefix⟩
    · rw [← heq, List.append_assoc]
      exact List.prefix_append _ _
    · rw [List.append_assoc] at hprefix
      exact (List.prefix_append _ _).trans hprefix
  · intro output hwatch
    obtain ⟨hworker, houtbox⟩ := haccounted.succeeded output hwatch
    refine ⟨haccounted.abides.of_finished_ok hworker, ?_, ?_⟩
    · have hproduced := haccounted.produced.resolve_right fun hcut => by
        cases hworker.symm.trans hcut.1.1
      rw [← hproduced, houtbox, List.append_nil]
      simp only [Rounds.unqueued, hworker, List.append_nil]
    · rintro ⟨m, answer⟩ hmem
      cases answer with
      | ok _ => rfl
      | error e => cases hwatch.symm.trans (haccounted.failed m e hmem)
  · intro deadline move b s after b' s' hstep
    exact (Rounds.does_of_step hstep).foldl_handed

/-- Performs moves one after the other, unless one is impossible. -/
def run? (p : Party σ α) (t : Transport τ) (deadline : Deadline) :
    List Rounds.Move → Drive σ α → Bridge → τ → Option (Drive σ α)
  | [], d, _, _ => some d
  | move :: moves, d, b, s =>
    match d.rounds.step p t deadline move b s with
    | none => none
    | some (after, b', s') =>
      run? p t deadline moves (d.add p t deadline move b s after) b' s'

theorem Reached.run? {deadline : Deadline} {moves : List Rounds.Move} {b : Bridge} {s : τ}
    {d' : Drive σ α} (h : Reached p t party d) (hrun : run? p t deadline moves d b s = some d') :
    Reached p t party d' := by
  induction moves generalizing d b s with
  | nil =>
    cases hrun
    exact h
  | cons move moves ih =>
    unfold Drive.run? at hrun
    split at hrun
    next => cases hrun
    next after b' s' hstep => exact ih (h.step hstep) hrun

def isOk (d : Drive σ α) : Bool :=
  match d.rounds.watch with
  | .over (.ok _) => true
  | _ => false

def greeting : Outbound := ⟨⟨#[1]⟩, .everyone⟩

def question : Outbound := ⟨⟨#[2]⟩, .only Screening.a⟩

/-- Has two things to say, and is complete at once. -/
def talker : Party Bool Unit where
  start s := (.ok (), s)
  feed _ s := (.ok (), s)
  drain s := (if s then [greeting, question] else [], false)
  isComplete _ := true
  result s := (.ok (), s)

def sampleDrive : Option (Drive Bool Unit) :=
  run? talker (Link.transport Screening.b) ⟨.ofMillis 1000, Deadline.nanosOf 1000, false⟩
    [.work, .work, .send, .work, .work, .work, .finish, .send, .send] (create true)
    Screening.bridge Screening.link

theorem view_sampleDrive :
    (sampleDrive.map fun d => (d.isOk, d.handed.map Prod.fst)) =
      some (true, [greeting, question]) := by
  decide +kernel

theorem outbound_sampleDrive :
    ∃ d, Reached talker (Link.transport Screening.b) true d ∧ d.rounds.watch = .over (.ok ()) ∧
      d.handed.map Prod.fst = [greeting, question] ∧
      d.calls.flatMap Call.produced = [greeting, question] ∧
      d.calls.getLast? = some (.result (.ok ())) ∧ ∀ x ∈ d.handed, x.2 = .ok () := by
  obtain ⟨d, hrun, hview⟩ := Option.map_eq_some_iff.mp view_sampleDrive
  obtain ⟨hok, hhanded⟩ := Prod.mk.inj hview
  have hreached := Reached.create.run? hrun
  have hwatch : d.rounds.watch = .over (.ok ()) := by
    unfold isOk at hok
    split at hok
    next hover => exact hover
    next => cases hok
  obtain ⟨hlast, hall, hanswers⟩ := (outbound_complete hreached).2.2.1 () hwatch
  exact ⟨d, hreached, hwatch, hhanded, hall.symm.trans hhanded, hlast, hanswers⟩

end Drive

end ThresholdSigning
