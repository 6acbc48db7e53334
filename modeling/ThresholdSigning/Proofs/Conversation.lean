import ThresholdSigning.Proofs.Rounds
import Mathlib.Data.List.Chain

namespace ThresholdSigning

variable {σ α τ : Type}

/-- A call on a party, with its answer. -/
inductive Call (α : Type)
  | start (answer : Except PartyError Unit)
  | drain (produced : List Outbound)
  | isComplete (answer : Bool)
  | feed (m : ProtocolMessage) (answer : Except PartyError Unit)
  | result (answer : Except PartyError α)

namespace Call

def produced : Call α → List Outbound
  | drain produced => produced
  | _ => []

def fed? : Call α → Option ProtocolMessage
  | feed m _ => some m
  | _ => none

def output? : Call α → Option α
  | result (.ok output) => some output
  | _ => none

/-- The error by which a call ends the computation. A message that is only refused does not end
it. -/
def failure? : Call α → Option PartyError
  | start (.error e) => some e
  | feed _ (.error (.failure reason)) => some (.failure reason)
  | result (.error e) => some e
  | _ => none

/-- One message in the hands of a party, and what came of it. -/
structure Turn where
  message : ProtocolMessage
  answer : Except PartyError Unit
  produced : List Outbound

namespace Turn

def calls (turn : Turn) : List (Call α) :=
  [.isComplete false, .feed turn.message turn.answer, .drain turn.produced]

def Accepted (turn : Turn) : Prop := ∀ reason, turn.answer ≠ .error (.failure reason)

end Turn

/-- All that a party is asked that has begun, up to the end of some turn. -/
def opened (opening : Except PartyError Unit) (produced : List Outbound) (turns : List Turn) :
    List (Call α) :=
  .start opening :: .drain produced :: turns.flatMap Turn.calls

def course (opening : Except PartyError Unit) (produced : List Outbound) (turns : List Turn)
    (ending : Except PartyError α) : List (Call α) :=
  opened opening produced turns ++ [.isComplete true, .result ending]

/-- A party is started and drained, then fed and drained as long as it is not complete, then asked
for its result; this may break off anywhere, and breaks off where a call fails. -/
def Orderly (calls : List (Call α)) : Prop :=
  (∃ opening produced turns ending, calls <+: course opening produced turns ending) ∧
    ∀ call ∈ calls.dropLast, call.failure? = none

variable {produced : List Outbound} {turns : List Turn}

theorem orderly_nil : Orderly ([] : List (Call α)) :=
  ⟨⟨.ok (), [], [], .error (.failure ""), List.nil_prefix⟩, nofun⟩

theorem opened_append (opening : Except PartyError Unit) (produced : List Outbound)
    (turns : List Turn) (turn : Turn) :
    (opened opening produced (turns ++ [turn]) : List (Call α)) =
      opened opening produced turns ++ turn.calls := by
  simp [opened]

theorem getLast?_course (opening : Except PartyError Unit) (produced : List Outbound)
    (turns : List Turn) (ending : Except PartyError α) :
    (course opening produced turns ending).getLast? = some (.result ending) := by
  simp [course]

theorem failure?_of_mem_opened (haccepted : ∀ turn ∈ turns, turn.Accepted) {call : Call α}
    (h : call ∈ opened (.ok ()) produced turns) : call.failure? = none := by
  rcases List.mem_cons.mp h with rfl | h
  · rfl
  rcases List.mem_cons.mp h with rfl | h
  · rfl
  obtain ⟨turn, hturn, hcall⟩ := List.mem_flatMap.mp h
  simp only [Turn.calls, List.mem_cons, List.not_mem_nil, or_false] at hcall
  rcases hcall with rfl | rfl | rfl
  · rfl
  · have hfails := haccepted turn hturn
    unfold failure?
    split <;> simp_all [Turn.Accepted]
  · rfl

theorem failure?_of_mem_opened_concat (haccepted : ∀ turn ∈ turns, turn.Accepted) {more : Call α}
    (hmore : more.failure? = none) :
    ∀ call ∈ opened (.ok ()) produced turns ++ [more], call.failure? = none := by
  intro call hcall
  rcases List.mem_append.mp hcall with hold | hnew
  · exact failure?_of_mem_opened haccepted hold
  · rw [List.mem_singleton.mp hnew, hmore]

/-- A message that a party has taken in is followed by a call for what it produced. -/
def Followed (call next : Call α) : Prop :=
  ∀ m answer, call = .feed m answer → ∃ produced, next = .drain produced

theorem isChain_course (opening : Except PartyError Unit) (produced : List Outbound)
    (turns : List Turn) (ending : Except PartyError α) :
    (course opening produced turns ending).IsChain Followed := by
  have hturns (first : Call α) (hfirst : ∀ m answer, first ≠ .feed m answer) :
      (first :: (turns.flatMap Turn.calls ++ [.isComplete true, .result ending])).IsChain
        Followed := by
    induction turns generalizing first with
    | nil =>
      refine List.isChain_cons_cons.mpr ⟨fun m answer h => absurd h (hfirst m answer), ?_⟩
      exact List.isChain_cons_cons.mpr ⟨nofun, List.isChain_singleton _⟩
    | cons turn turns ih =>
      refine List.isChain_cons_cons.mpr ⟨fun m answer h => absurd h (hfirst m answer), ?_⟩
      refine List.isChain_cons_cons.mpr ⟨nofun, ?_⟩
      exact List.isChain_cons_cons.mpr ⟨fun _ _ _ => ⟨_, rfl⟩, ih _ nofun⟩
  exact List.isChain_cons_cons.mpr ⟨nofun, hturns _ nofun⟩

theorem Orderly.drain_of_feed {calls before after : List (Call α)} {m : ProtocolMessage}
    {answer : Except PartyError Unit} (h : Orderly calls)
    (hcalls : calls = before ++ .feed m answer :: after) (hafter : after ≠ []) :
    ∃ produced rest, after = .drain produced :: rest := by
  obtain ⟨⟨opening, produced, turns, ending, hprefix⟩, -⟩ := h
  obtain ⟨others, hcourse⟩ := hprefix
  have hchain := isChain_course opening produced turns ending
  rw [← hcourse, hcalls] at hchain
  cases after with
  | nil => exact absurd rfl hafter
  | cons next rest =>
    obtain ⟨produced, rfl⟩ :=
      (List.isChain_append_cons_cons.mp hchain.left_of_append).2.1 m answer rfl
    exact ⟨produced, rest, rfl⟩

end Call

/-- The party gives an answer to a call, which leaves it in another state. -/
inductive Party.Answers (p : Party σ α) (party : σ) : Call α → σ → Prop
  | start : p.Answers party (.start (p.start party).1) (p.start party).2
  | drain : p.Answers party (.drain (p.drain party).1) (p.drain party).2
  | isComplete : p.Answers party (.isComplete (p.isComplete party)) party
  | feed (m : ProtocolMessage) : p.Answers party (.feed m (p.feed m party).1) (p.feed m party).2
  | result : p.Answers party (.result (p.result party).1) (p.result party).2

namespace Party.Answers

variable {p : Party σ α} {party next : σ} {answer : Except PartyError Unit}

theorem of_start (h : p.start party = (answer, next)) : p.Answers party (.start answer) next := by
  have hanswers : p.Answers party (.start (p.start party).1) (p.start party).2 := .start
  rwa [h] at hanswers

theorem of_feed {m : ProtocolMessage} (h : p.feed m party = (answer, next)) :
    p.Answers party (.feed m answer) next := by
  have hanswers : p.Answers party (.feed m (p.feed m party).1) (p.feed m party).2 := .feed m
  rwa [h] at hanswers

theorem of_isComplete {complete : Bool} (h : p.isComplete party = complete) :
    p.Answers party (.isComplete complete) party := by
  rw [← h]
  exact .isComplete

theorem of_result {result : Except PartyError α} (h : p.result party = (result, next)) :
    p.Answers party (.result result) next := by
  have hanswers : p.Answers party (.result (p.result party).1) (p.result party).2 := .result
  rwa [h] at hanswers

end Party.Answers

/-- Asked one call after the other, and nothing else, a party gets from one state to another. -/
inductive Party.Converses (p : Party σ α) : σ → List (Call α) → σ → Prop
  | nil (party : σ) : p.Converses party [] party
  | cons {party next last : σ} {call : Call α} {calls : List (Call α)}
      (hanswers : p.Answers party call next) (hrest : p.Converses next calls last) :
      p.Converses party (call :: calls) last

theorem Party.Converses.append {p : Party σ α} {party mid last : σ} {calls calls' : List (Call α)}
    (h : p.Converses party calls mid) (h' : p.Converses mid calls' last) :
    p.Converses party (calls ++ calls') last := by
  induction h with
  | nil _ => exact h'
  | cons hanswers _ ih => exact .cons hanswers (ih h')

namespace Rounds

/-- The calls that the next step of the worker makes. -/
def workCalls (p : Party σ α) (r : Rounds σ α) : List (Call α) :=
  match r.worker with
  | .starting =>
    match p.start r.party with
    | (.error e, _) => [.start (.error e)]
    | (.ok _, party) => [.start (.ok ()), .drain (p.drain party).1]
  | .checking =>
    if p.isComplete r.party then [.isComplete true, .result (p.result r.party).1]
    else [.isComplete false]
  | .feeding m =>
    match p.feed m r.party with
    | (.error (.failure reason), _) => [.feed m (.error (.failure reason))]
    | (answer, party) => [.feed m answer, .drain (p.drain party).1]
  | _ => []

/-- Only the worker calls the party. -/
def calls (p : Party σ α) (move : Move) (r : Rounds σ α) : List (Call α) :=
  if move = .work then r.workCalls p else []

variable {p : Party σ α} {t : Transport τ} {r r' : Rounds σ α} {b b' : Bridge} {s s' : τ}

theorem workCalls_start {party : σ} (hworker : r.worker = .starting)
    (hstart : p.start r.party = (.ok (), party)) :
    r.workCalls p = [.start (.ok ()), .drain (p.drain party).1] := by
  simp only [workCalls, hworker, hstart]

theorem workCalls_feed {m : ProtocolMessage} {answer : Except PartyError Unit} {party : σ}
    (hworker : r.worker = .feeding m) (hfeed : p.feed m r.party = (answer, party))
    (hanswer : ∀ reason, answer ≠ .error (.failure reason)) :
    r.workCalls p = [.feed m answer, .drain (p.drain party).1] := by
  unfold workCalls
  rw [hworker]
  dsimp only
  rw [hfeed]
  split
  next reason _ he =>
    cases he
    exact absurd rfl (hanswer reason)
  next _ _ _ he =>
    cases he
    rfl

/-- A step of the worker is to the party what its calls are. -/
theorem Works.converses (h : r.Works p r') : p.Converses r.party (r.workCalls p) r'.party := by
  cases h with
  | @start party hworker hstart =>
    rw [workCalls_start hworker hstart]
    exact .cons (.of_start hstart) (.cons .drain (.nil _))
  | @startFails e party hworker hstart =>
    simp only [workCalls, hworker, hstart]
    exact .cons (.of_start hstart) (.nil _)
  | flushed hworker =>
    simp only [workCalls, hworker]
    exact .nil _
  | queue hworker _ =>
    simp only [workCalls, hworker]
    exact .nil _
  | queueClosed hworker _ =>
    simp only [workCalls, hworker]
    exact .nil _
  | incomplete hworker hcomplete =>
    simp only [workCalls, hworker, hcomplete, Bool.false_eq_true, if_false]
    exact .cons (.of_isComplete hcomplete) (.nil _)
  | @result output party hworker hcomplete hresult =>
    simp only [workCalls, hworker, hcomplete, hresult, if_true]
    exact .cons (.of_isComplete hcomplete) (.cons (.of_result hresult) (.nil _))
  | @resultFails e party hworker hcomplete hresult =>
    simp only [workCalls, hworker, hcomplete, hresult, if_true]
    exact .cons (.of_isComplete hcomplete) (.cons (.of_result hresult) (.nil _))
  | read hworker _ =>
    simp only [workCalls, hworker]
    exact .nil _
  | inboxClosed hworker _ _ =>
    simp only [workCalls, hworker]
    exact .nil _
  | @feed m answer party hworker hfeed hanswer =>
    rw [workCalls_feed hworker hfeed hanswer]
    exact .cons (.of_feed hfeed) (.cons .drain (.nil _))
  | @feedFails m reason party hworker hfeed =>
    simp only [workCalls, hworker, hfeed]
    exact .cons (.of_feed hfeed) (.nil _)

/-- The worker was held up by the end of the rounds, and has gone. -/
def WasCut (r : Rounds σ α) : Prop := r.worker = .finished (.error .expired) ∧ r.isOver = true

open Call in
/-- Where the worker is, seen from the calls that were made. After a failed call it has gone with
the failure; before that it goes only when the rounds are over. -/
inductive Abides (r : Rounds σ α) : List (Call α) → Prop
  | unstarted (hworker : r.worker = .starting) : r.Abides []
  | between {produced : List Outbound} {turns : List Turn}
      (hworker : r.worker = .checking ∨ (∃ rest, r.worker = .flushing rest) ∨ r.WasCut)
      (haccepted : ∀ turn ∈ turns, turn.Accepted) : r.Abides (opened (.ok ()) produced turns)
  | amid {produced : List Outbound} {turns : List Turn}
      (hworker : r.worker = .reading ∨ (∃ m, r.worker = .feeding m) ∨ r.WasCut)
      (haccepted : ∀ turn ∈ turns, turn.Accepted) :
      r.Abides (opened (.ok ()) produced turns ++ [.isComplete false])
  | done {produced : List Outbound} {turns : List Turn} {output : α}
      (hworker : r.worker = .finished (.ok output)) (haccepted : ∀ turn ∈ turns, turn.Accepted) :
      r.Abides (course (.ok ()) produced turns (.ok output))
  | failed {before : List (Call α)} {call : Call α} {e : PartyError}
      (hworker : r.worker = .finished (.error (.computation e.cause)))
      (hfails : call.failure? = some e) (horderly : Orderly (before ++ [call])) :
      r.Abides (before ++ [call])

variable {calls : List (Call α)}

theorem Abides.orderly (h : r.Abides calls) : Call.Orderly calls := by
  have hquiet {produced : List Outbound} {turns : List Call.Turn}
      (haccepted : ∀ turn ∈ turns, turn.Accepted) (more : Call α) :
      ∀ call ∈ (Call.opened (.ok ()) produced turns ++ [more]).dropLast, call.failure? = none := by
    rw [List.dropLast_concat]
    exact fun call hcall => Call.failure?_of_mem_opened haccepted hcall
  cases h with
  | unstarted _ => exact Call.orderly_nil
  | @between produced turns _ haccepted =>
    refine ⟨⟨.ok (), produced, turns, .error (.failure ""), List.prefix_append _ _⟩, ?_⟩
    intro call hcall
    exact Call.failure?_of_mem_opened haccepted (List.dropLast_subset _ hcall)
  | @amid produced turns _ haccepted =>
    refine ⟨⟨.ok (), produced, turns ++ [⟨⟨⟨.empty⟩, .empty, false⟩, .ok (), []⟩],
      .error (.failure ""), ?_⟩, hquiet haccepted _⟩
    rw [Call.course, Call.opened_append, List.append_assoc]
    exact (List.prefix_append_right_inj _).mpr (List.prefix_append _ _)
  | @done produced turns output _ haccepted =>
    refine ⟨⟨.ok (), produced, turns, .ok output, List.prefix_rfl⟩, ?_⟩
    intro call hcall
    rw [Call.course, List.dropLast_append_of_ne_nil (by simp)] at hcall
    exact Call.failure?_of_mem_opened_concat haccepted rfl call hcall
  | failed _ _ horderly => exact horderly

theorem Abides.of_starting (h : r.Abides calls) (hworker : r.worker = .starting) : calls = [] := by
  cases h with
  | unstarted _ => rfl
  | between hother _ => simp [hworker, WasCut] at hother
  | amid hother _ => simp [hworker, WasCut] at hother
  | done hother _ => cases hworker.symm.trans hother
  | failed hother _ _ => cases hworker.symm.trans hother

theorem Abides.of_between (h : r.Abides calls)
    (hworker : r.worker = .checking ∨ ∃ rest, r.worker = .flushing rest) :
    ∃ produced turns, (∀ turn ∈ turns, turn.Accepted) ∧
      calls = Call.opened (.ok ()) produced turns := by
  cases h with
  | between _ haccepted => exact ⟨_, _, haccepted, rfl⟩
  | unstarted hother => simp [hother] at hworker
  | amid hother _ =>
    rcases hother with hother | ⟨_, hother⟩ | ⟨hother, -⟩ <;> simp [hother] at hworker
  | done hother _ => simp [hother] at hworker
  | failed hother _ _ => simp [hother] at hworker

theorem Abides.of_amid (h : r.Abides calls)
    (hworker : r.worker = .reading ∨ ∃ m, r.worker = .feeding m) :
    ∃ produced turns, (∀ turn ∈ turns, turn.Accepted) ∧
      calls = Call.opened (.ok ()) produced turns ++ [.isComplete false] := by
  cases h with
  | amid _ haccepted => exact ⟨_, _, haccepted, rfl⟩
  | unstarted hother => simp [hother] at hworker
  | between hother _ =>
    rcases hother with hother | ⟨_, hother⟩ | ⟨hother, -⟩ <;> simp [hother] at hworker
  | done hother _ => simp [hother] at hworker
  | failed hother _ _ => simp [hother] at hworker

theorem Abides.stay_between (h : r.Abides calls)
    (hworker : r.worker = .checking ∨ ∃ rest, r.worker = .flushing rest)
    (hnext : r'.worker = .checking ∨ (∃ rest, r'.worker = .flushing rest) ∨ r'.WasCut) :
    r'.Abides calls := by
  obtain ⟨produced, turns, haccepted, rfl⟩ := h.of_between hworker
  exact .between hnext haccepted

theorem Abides.stay_amid (h : r.Abides calls)
    (hworker : r.worker = .reading ∨ ∃ m, r.worker = .feeding m)
    (hnext : r'.worker = .reading ∨ (∃ m, r'.worker = .feeding m) ∨ r'.WasCut) :
    r'.Abides calls := by
  obtain ⟨produced, turns, haccepted, rfl⟩ := h.of_amid hworker
  exact .amid hnext haccepted

theorem abides_of_start_eq_error {e : PartyError}
    (hnext : r'.worker = .finished (.error (.computation e.cause))) :
    r'.Abides [.start (.error e)] := by
  have horderly : Call.Orderly ([] ++ [(.start (.error e) : Call α)]) :=
    ⟨⟨.error e, [], [], .error e, List.prefix_append [_] _⟩, nofun⟩
  exact .failed hnext rfl horderly

theorem Abides.result_error {e : PartyError} (h : r.Abides calls) (hworker : r.worker = .checking)
    (hnext : r'.worker = .finished (.error (.computation e.cause))) :
    r'.Abides (calls ++ [.isComplete true, .result (.error e)]) := by
  obtain ⟨produced, turns, haccepted, rfl⟩ := h.of_between (Or.inl hworker)
  have hcalls : Call.opened (.ok ()) produced turns ++ [.isComplete true, .result (.error e)] =
      Call.opened (.ok ()) produced turns ++ [.isComplete true] ++
        [(.result (.error e) : Call α)] := by simp
  rw [hcalls]
  refine .failed hnext rfl ⟨⟨.ok (), produced, turns, .error e, ?_⟩, ?_⟩
  · rw [← hcalls]
    exact List.prefix_rfl
  · rw [List.dropLast_concat]
    exact Call.failure?_of_mem_opened_concat haccepted rfl

theorem Abides.feed {m : ProtocolMessage} {answer : Except PartyError Unit}
    {produced : List Outbound} (h : r.Abides calls) (hworker : r.worker = .feeding m)
    (hanswer : ∀ reason, answer ≠ .error (.failure reason))
    (hnext : r'.worker = .flushing produced) :
    r'.Abides (calls ++ [.feed m answer, .drain produced]) := by
  obtain ⟨first, turns, haccepted, rfl⟩ := h.of_amid (Or.inr ⟨_, hworker⟩)
  have hturn : ([.isComplete false] ++ [.feed m answer, .drain produced] : List (Call α)) =
      (⟨m, answer, produced⟩ : Call.Turn).calls := rfl
  rw [List.append_assoc, hturn, ← Call.opened_append]
  refine .between (Or.inr (Or.inl ⟨_, hnext⟩)) ?_
  intro turn hmem
  rcases List.mem_append.mp hmem with hold | hnew
  · exact haccepted turn hold
  · rw [List.mem_singleton.mp hnew]
    exact hanswer

theorem Abides.feed_failure {m : ProtocolMessage} {reason : String} (h : r.Abides calls)
    (hworker : r.worker = .feeding m)
    (hnext : r'.worker = .finished (.error (.computation (PartyError.failure reason).cause))) :
    r'.Abides (calls ++ [.feed m (.error (.failure reason))]) := by
  obtain ⟨produced, turns, haccepted, rfl⟩ := h.of_amid (Or.inr ⟨_, hworker⟩)
  refine .failed hnext rfl ⟨⟨.ok (), produced,
    turns ++ [⟨m, .error (.failure reason), []⟩], .error (.failure ""), ?_⟩, ?_⟩
  · rw [Call.course, Call.opened_append, List.append_assoc, List.append_assoc]
    exact (List.prefix_append_right_inj _).mpr ⟨_, rfl⟩
  · rw [List.dropLast_concat]
    exact Call.failure?_of_mem_opened_concat haccepted rfl

theorem Abides.work (h : r.Abides calls) (hworks : r.Works p r') :
    r'.Abides (calls ++ r.workCalls p) := by
  cases hworks with
  | @start party hworker hstart =>
    rw [h.of_starting hworker, workCalls_start hworker hstart]
    have hcollects : (collect p r party).Abides (Call.opened (.ok ()) (p.drain party).1 []) :=
      .between (Or.inr (Or.inl ⟨_, rfl⟩)) nofun
    exact hcollects
  | startFails hworker hstart =>
    rw [h.of_starting hworker]
    simp only [workCalls, hworker, hstart]
    exact abides_of_start_eq_error rfl
  | flushed hworker =>
    simp only [workCalls, hworker, List.append_nil]
    exact h.stay_between (Or.inr ⟨_, hworker⟩) (Or.inl rfl)
  | queue hworker _ =>
    simp only [workCalls, hworker, List.append_nil]
    exact h.stay_between (Or.inr ⟨_, hworker⟩) (Or.inr (Or.inl ⟨_, rfl⟩))
  | queueClosed hworker hover =>
    simp only [workCalls, hworker, List.append_nil]
    exact h.stay_between (Or.inr ⟨_, hworker⟩) (Or.inr (Or.inr ⟨rfl, hover⟩))
  | incomplete hworker hcomplete =>
    obtain ⟨produced, turns, haccepted, rfl⟩ := h.of_between (Or.inl hworker)
    simp only [workCalls, hworker, hcomplete, Bool.false_eq_true, if_false]
    exact .amid (Or.inl rfl) haccepted
  | result hworker hcomplete hresult =>
    obtain ⟨produced, turns, haccepted, rfl⟩ := h.of_between (Or.inl hworker)
    simp only [workCalls, hworker, hcomplete, hresult, if_true]
    exact .done rfl haccepted
  | resultFails hworker hcomplete hresult =>
    simp only [workCalls, hworker, hcomplete, hresult, if_true]
    exact h.result_error hworker rfl
  | read hworker _ =>
    simp only [workCalls, hworker, List.append_nil]
    exact h.stay_amid (Or.inl hworker) (Or.inr (Or.inl ⟨_, rfl⟩))
  | inboxClosed hworker _ hover =>
    simp only [workCalls, hworker, List.append_nil]
    exact h.stay_amid (Or.inl hworker) (Or.inr (Or.inr ⟨rfl, hover⟩))
  | feed hworker hfeed hanswer =>
    rw [workCalls_feed hworker hfeed hanswer]
    exact h.feed hworker hanswer rfl
  | feedFails hworker hfeed =>
    simp only [workCalls, hworker, hfeed]
    exact h.feed_failure hworker rfl

theorem Abides.of_kept (h : r.Abides calls) (hworker : r'.worker = r.worker)
    (hover : r.isOver = true → r'.isOver = true) : r'.Abides calls := by
  have hcut (hc : r.WasCut) : r'.WasCut := ⟨hworker.trans hc.1, hover hc.2⟩
  cases h with
  | unstarted hw => exact .unstarted (hworker.trans hw)
  | between hw haccepted =>
    rw [← hworker] at hw
    exact .between (hw.imp_right fun h => h.imp_right hcut) haccepted
  | amid hw haccepted =>
    rw [← hworker] at hw
    exact .amid (hw.imp_right fun h => h.imp_right hcut) haccepted
  | done hw haccepted => exact .done (hworker.trans hw) haccepted
  | failed hw hfails horderly => exact .failed (hworker.trans hw) hfails horderly

theorem Abides.of_failure {call : Call α} {e : PartyError} (h : r.Abides calls)
    (hlast : calls.getLast? = some call) (hfails : call.failure? = some e) :
    r.worker = .finished (.error (.computation e.cause)) := by
  cases h with
  | unstarted _ => cases hlast
  | between _ haccepted =>
    rw [Call.failure?_of_mem_opened haccepted (List.mem_of_getLast? hlast)] at hfails
    cases hfails
  | amid _ haccepted =>
    have hmem := List.mem_of_getLast? hlast
    rw [Call.failure?_of_mem_opened_concat haccepted rfl call hmem] at hfails
    cases hfails
  | done _ _ =>
    rw [Call.getLast?_course] at hlast
    cases hlast
    cases hfails
  | failed hworker hfails' _ =>
    rw [List.getLast?_concat, Option.some.injEq] at hlast
    subst hlast
    rw [hfails, Option.some.injEq] at hfails'
    rw [hworker, hfails']

theorem Abides.of_finished_ok {output : α} (h : r.Abides calls)
    (hworker : r.worker = .finished (.ok output)) :
    calls.getLast? = some (.result (.ok output)) := by
  cases h with
  | done hw _ =>
    cases hworker.symm.trans hw
    exact Call.getLast?_course _ _ _ _
  | unstarted hw => cases hworker.symm.trans hw
  | between hw _ => simp [hworker, WasCut] at hw
  | amid hw _ => simp [hworker, WasCut] at hw
  | failed hw _ _ => cases hworker.symm.trans hw

theorem Abides.of_finished_error {fault : RoundsFault} (h : r.Abides calls)
    (hworker : r.worker = .finished (.error fault)) :
    r.WasCut ∨ ∃ call e, calls.getLast? = some call ∧ call.failure? = some e ∧
      fault = .computation e.cause := by
  cases h with
  | unstarted hw => cases hworker.symm.trans hw
  | between hw _ =>
    rcases hw with hw | ⟨_, hw⟩ | hcut
    · cases hworker.symm.trans hw
    · cases hworker.symm.trans hw
    · exact Or.inl hcut
  | amid hw _ =>
    rcases hw with hw | ⟨_, hw⟩ | hcut
    · cases hworker.symm.trans hw
    · cases hworker.symm.trans hw
    · exact Or.inl hcut
  | done hw _ => cases hworker.symm.trans hw
  | @failed before call e hw hfails _ =>
    cases hworker.symm.trans hw
    exact Or.inr ⟨call, e, List.getLast?_concat, hfails, rfl⟩

/-- A call that hands over a message is the last one only if it fails. -/
theorem Abides.of_feed {m : ProtocolMessage} {answer : Except PartyError Unit}
    (h : r.Abides calls) (hlast : calls.getLast? = some (.feed m answer)) :
    ∃ reason, answer = .error (.failure reason) := by
  cases h with
  | unstarted _ => cases hlast
  | @between produced turns _ _ =>
    rcases List.eq_nil_or_concat turns with rfl | ⟨before, turn, rfl⟩
    · cases hlast
    · simp [Call.opened_append, Call.Turn.calls] at hlast
  | amid _ _ =>
    rw [List.getLast?_concat] at hlast
    cases hlast
  | done _ _ =>
    rw [Call.getLast?_course] at hlast
    cases hlast
  | failed _ hfails _ =>
    rw [List.getLast?_concat, Option.some.injEq] at hlast
    subst hlast
    unfold Call.failure? at hfails
    split at hfails
    next => contradiction
    next he =>
      cases he
      exact ⟨_, rfl⟩
    next => contradiction
    next => cases hfails

/-- What a party is given is refused for good, or followed by a call for what it produced. -/
theorem Abides.drain_of_feed {before after : List (Call α)} {m : ProtocolMessage}
    {answer : Except PartyError Unit} (h : r.Abides calls)
    (hcalls : calls = before ++ .feed m answer :: after) :
    (∃ reason, answer = .error (.failure reason)) ∨
      ∃ produced rest, after = .drain produced :: rest := by
  rcases eq_or_ne after [] with rfl | hafter
  · refine Or.inl (h.of_feed (m := m) ?_)
    rw [hcalls, List.getLast?_concat]
  · exact Or.inr (h.orderly.drain_of_feed hcalls hafter)

/-- How many steps the worker has left at most once nothing more comes in. -/
def remaining (r : Rounds σ α) : Nat :=
  4 * r.inbox.length +
    match r.worker with
    | .starting => 4
    | .flushing _ => 3
    | .checking => 2
    | .reading => 1
    | .feeding _ => 4
    | .finished _ => 0

/-- A step of the worker leaves it fewer, unless it queues something. -/
theorem Works.remaining_lt_or_queues (h : r.Works p r') :
    r'.remaining < r.remaining ∨ r.isOver = false ∧ ∃ m produced,
      r.worker = .flushing (m :: produced) ∧
        r' = { r with worker := .flushing produced, outbox := r.outbox ++ [m] } := by
  cases h with
  | start hworker _ => simp [remaining, hworker, collect]
  | startFails hworker _ => simp [remaining, hworker, quit]
  | flushed hworker => simp [remaining, hworker]
  | queue hworker hopen => exact Or.inr ⟨hopen, _, _, hworker, rfl⟩
  | queueClosed hworker _ => simp [remaining, hworker, quit]
  | incomplete hworker _ => simp [remaining, hworker]
  | result hworker _ _ => simp [remaining, hworker]
  | resultFails hworker _ _ => simp [remaining, hworker, quit]
  | read hworker hinbox =>
    refine Or.inl ?_
    simp only [remaining, hworker, hinbox, List.length_cons]
    omega
  | inboxClosed hworker _ _ => simp [remaining, hworker, quit]
  | feed hworker _ _ => simp [remaining, hworker, collect]
  | feedFails hworker _ => simp [remaining, hworker, quit]

/-- After the end of the rounds the worker comes to its own end. -/
theorem Works.remaining_lt (h : r.Works p r') (hover : r.isOver = true) :
    r'.remaining < r.remaining := by
  rcases h.remaining_lt_or_queues with hless | ⟨hopen, -⟩
  · exact hless
  · cases hopen.symm.trans hover

theorem length_workCalls_le (p : Party σ α) (r : Rounds σ α) : (r.workCalls p).length ≤ 2 := by
  unfold workCalls
  repeat' split
  all_goals simp

/-- The worker goes on unless it waits for a message. -/
theorem work_isSome (p : Party σ α) (hgoing : r.isFinished = false)
    (hready : r.worker = .reading → r.inbox = [] → r.isOver = true) : (r.work p).isSome := by
  unfold work
  split
  next => split <;> rfl
  next => rfl
  next => split <;> rfl
  next =>
    split
    next => split <;> rfl
    next => rfl
  next hworker =>
    split
    next => rfl
    next hinbox => simp [hready hworker hinbox]
  next => split <;> rfl
  next hworker => simp [isFinished, hworker] at hgoing

theorem workCalls_of_feeding {m : ProtocolMessage} (hworker : r.worker = .feeding m)
    (p : Party σ α) : ∃ answer rest, r.workCalls p = .feed m answer :: rest := by
  unfold workCalls
  rw [hworker]
  dsimp only
  split
  next => exact ⟨_, _, rfl⟩
  next => exact ⟨_, _, rfl⟩

/-- Once the rounds are over, the worker asks nothing more of the party: it has gone, it has
something to queue, or nothing is left for it to read. -/
def IsStopped (r : Rounds σ α) : Prop :=
  match r.worker with
  | .finished _ => True
  | .flushing (_ :: _) => True
  | .reading => r.inbox = []
  | _ => False

theorem IsStopped.workCalls_eq_nil (h : r.IsStopped) (p : Party σ α) : r.workCalls p = [] := by
  unfold IsStopped at h
  split at h
  next hworker => simp only [workCalls, hworker]
  next hworker => simp only [workCalls, hworker]
  next hworker => simp only [workCalls, hworker]
  next => cases h

/-- A worker that is stopped goes away with its next step. -/
theorem IsStopped.isFinished (h : r.IsStopped) (hover : r.isOver = true) (hworks : r.Works p r') :
    r'.isFinished = true := by
  unfold IsStopped at h
  cases hworks with
  | start hworker _ => simp [hworker] at h
  | startFails _ _ => rfl
  | flushed hworker => simp [hworker] at h
  | queue _ hopen => cases hopen.symm.trans hover
  | queueClosed _ _ => rfl
  | incomplete hworker _ => simp [hworker] at h
  | result _ _ _ => rfl
  | resultFails _ _ _ => rfl
  | read hworker hinbox => simp [hworker, hinbox] at h
  | inboxClosed _ _ _ => rfl
  | feed hworker _ _ => simp [hworker] at h
  | feedFails _ _ => rfl

theorem isStopped_of_isFinished (h : r.isFinished = true) : r.IsStopped := by
  unfold isFinished at h
  split at h
  next hworker => simp only [IsStopped, hworker]
  next => cases h

/-- A worker that is not stopped asks the party something in its next step or in the one after. -/
theorem exists_calls_of_not_isStopped (h : ¬ r.IsStopped) (p : Party σ α) :
    ∃ r', r.work p = some r' ∧
      (r.workCalls p ≠ [] ∨ ∃ r'', r'.work p = some r'' ∧ r'.workCalls p ≠ []) := by
  have hgoing : r.isFinished = false := by
    by_contra hgone
    exact h (isStopped_of_isFinished (by simpa using hgone))
  have hworks (r : Rounds σ α) (hgoing : r.isFinished = false) (hworker : r.worker ≠ .reading) :
      ∃ r', r.work p = some r' :=
    Option.isSome_iff_exists.mp (work_isSome p hgoing fun hreading => absurd hreading hworker)
  have hnow (hworker : r.worker ≠ .reading) (hcalls : r.workCalls p ≠ []) :
      ∃ r', r.work p = some r' ∧
        (r.workCalls p ≠ [] ∨ ∃ r'', r'.work p = some r'' ∧ r'.workCalls p ≠ []) := by
    obtain ⟨r', hr'⟩ := hworks r hgoing hworker
    exact ⟨r', hr', Or.inl hcalls⟩
  have hchecks (r : Rounds σ α) (hworker : r.worker = .checking) : r.workCalls p ≠ [] := by
    simp only [workCalls, hworker]
    split <;> simp
  have hfeeds (r : Rounds σ α) (m : ProtocolMessage) (hworker : r.worker = .feeding m) :
      r.workCalls p ≠ [] := by
    obtain ⟨answer, rest, hcalls⟩ := workCalls_of_feeding hworker p
    simp [hcalls]
  rcases hworker : r.worker with _ | produced | _ | _ | m | result
  · refine hnow (by simp [hworker]) ?_
    simp only [workCalls, hworker]
    split <;> simp
  · cases produced with
    | nil =>
      have hr' : r.work p = some { r with worker := .checking } := by simp only [work, hworker]
      obtain ⟨r'', hr''⟩ := hworks { r with worker := .checking } rfl (by simp)
      exact ⟨_, hr', Or.inr ⟨r'', hr'', hchecks _ rfl⟩⟩
    | cons m produced => exact absurd (by simp only [IsStopped, hworker]) h
  · exact hnow (by simp [hworker]) (hchecks r hworker)
  · cases hinbox : r.inbox with
    | nil => exact absurd (by simp only [IsStopped, hworker, hinbox]) h
    | cons m inbox =>
      have hr' : r.work p = some { r with inbox := inbox, worker := .feeding m } := by
        simp only [work, hworker, hinbox]
      obtain ⟨r'', hr''⟩ :=
        hworks { r with inbox := inbox, worker := .feeding m } rfl (by simp)
      exact ⟨_, hr', Or.inr ⟨r'', hr'', hfeeds _ m rfl⟩⟩
  · exact hnow (by simp [hworker]) (hfeeds r m hworker)
  · simp [isFinished, hworker] at hgoing

/-- The messages that the worker has in its hands, the next to be fed first. -/
def pending (r : Rounds σ α) : List ProtocolMessage :=
  match r.worker with
  | .feeding m => m :: r.inbox
  | _ => r.inbox

/-- What the party produced and the worker has still to queue. -/
def unqueued (r : Rounds σ α) : List Outbound :=
  match r.worker with
  | .flushing produced => produced
  | _ => []

theorem Works.fed (h : r.Works p r') :
    (r.workCalls p).filterMap Call.fed? ++ r'.pending = r.pending := by
  cases h with
  | start hworker hstart =>
    rw [workCalls_start hworker hstart]
    simp only [pending, hworker]
    rfl
  | startFails hworker hstart =>
    simp only [workCalls, pending, hworker, hstart]
    rfl
  | flushed hworker =>
    simp only [workCalls, pending, hworker]
    rfl
  | queue hworker _ =>
    simp only [workCalls, pending, hworker]
    rfl
  | queueClosed hworker _ =>
    simp only [workCalls, pending, hworker]
    rfl
  | incomplete hworker hcomplete =>
    simp only [workCalls, pending, hworker, hcomplete, Bool.false_eq_true, if_false]
    rfl
  | result hworker hcomplete hresult =>
    simp only [workCalls, pending, hworker, hcomplete, if_true]
    rfl
  | resultFails hworker hcomplete hresult =>
    simp only [workCalls, pending, hworker, hcomplete, if_true]
    rfl
  | read hworker hinbox =>
    simp only [workCalls, pending, hworker, hinbox]
    rfl
  | inboxClosed hworker _ _ =>
    simp only [workCalls, pending, hworker]
    rfl
  | feed hworker hfeed hanswer =>
    rw [workCalls_feed hworker hfeed hanswer]
    simp only [pending, hworker]
    rfl
  | feedFails hworker hfeed =>
    simp only [workCalls, pending, hworker, hfeed]
    rfl

/-- What is produced gets queued in order, up to where the worker is held up by the end. -/
theorem Works.produced (h : r.Works p r') :
    r'.outbox ++ r'.unqueued =
        r.outbox ++ r.unqueued ++ (r.workCalls p).flatMap Call.produced ∨
      r'.WasCut ∧ r'.outbox = r.outbox ∧ r'.unqueued = [] ∧
        (r.workCalls p).flatMap Call.produced = [] := by
  cases h with
  | start hworker hstart =>
    rw [workCalls_start hworker hstart]
    refine Or.inl ?_
    simp only [unqueued, hworker, collect, List.flatMap_cons, List.flatMap_nil, Call.produced,
      List.append_nil, List.nil_append]
  | startFails hworker hstart =>
    simp [workCalls, unqueued, hworker, hstart, quit, Call.produced]
  | flushed hworker => simp [workCalls, unqueued, hworker]
  | queue hworker _ => simp [workCalls, unqueued, hworker]
  | queueClosed hworker hover =>
    refine Or.inr ⟨⟨rfl, hover⟩, rfl, rfl, ?_⟩
    simp only [workCalls, hworker, List.flatMap_nil]
  | incomplete hworker hcomplete =>
    simp [workCalls, unqueued, hworker, hcomplete, Call.produced]
  | result hworker hcomplete hresult =>
    simp [workCalls, unqueued, hworker, hcomplete, Call.produced]
  | resultFails hworker hcomplete hresult =>
    simp [workCalls, unqueued, hworker, hcomplete, quit, Call.produced]
  | read hworker hinbox => simp [workCalls, unqueued, hworker]
  | inboxClosed hworker _ _ => simp [workCalls, unqueued, hworker, quit]
  | feed hworker hfeed hanswer =>
    rw [workCalls_feed hworker hfeed hanswer]
    refine Or.inl ?_
    simp only [unqueued, hworker, collect, List.flatMap_cons, List.flatMap_nil, Call.produced,
      List.append_nil, List.nil_append]
  | feedFails hworker hfeed =>
    simp [workCalls, unqueued, hworker, hfeed, quit, Call.produced]

end Rounds

end ThresholdSigning
