import ThresholdSigning.Proofs.Sending
import ThresholdSigning.Proofs.Ticks
import ThresholdSigning.Proofs.JoinRun

namespace ThresholdSigning

namespace JoinRun

/-- The barrier has nothing to do before time passes or a signal comes. -/
def Rests {τ : Type} (t : Transport τ) (v : JoinRun τ) : Prop :=
  v.barrier.step v.book.bridge t v.deadline v.now v.book.state = none

instance {τ : Type} (t : Transport τ) (v : JoinRun τ) : Decidable (v.Rests t) :=
  decidable_of_iff _ Option.isNone_iff_eq_none

/-- A barrier that began at a moment and is not done, after joins that began and ended at given
moments. -/
inductive Paced {τ : Type} (since interval : Nat) (begun ended : List Nat) (v : JoinRun τ) : Prop
  | early (hinterval : v.barrier.interval = interval) (hresult : v.barrier.result = none)
      (hstate : v.barrier.state = .idle ∨ v.barrier.state = .announcing)
      (hsending : v.sending = none) (hnow : v.now = since) (hlive : v.deadline.isExpired = false)
      (hbegun : begun = []) (hended : ended = [])
  | first (hinterval : v.barrier.interval = interval) (hresult : v.barrier.result = none)
      (hstate : v.barrier.state = .announcing) (hsending : v.sending = some since)
      (hbegun : begun = [since]) (hended : ended = []) (hpast : ∀ moment ∈ begun, moment ≤ v.now)
  | rest {seen : List MemberId} {first : Nat} {later : List Nat}
      (hinterval : v.barrier.interval = interval) (hresult : v.barrier.result = none)
      (hstate : v.barrier.state = .waiting seen) (hsending : v.sending = none)
      (hspaced : Spaced since interval begun ended) (hlength : begun.length = ended.length)
      (hended : ended = first :: later)
      (htick : v.barrier.nextTick = (Due.after interval first later).tick)
      (hpast : ∀ moment ∈ begun, moment ≤ v.now)
      (hfree : (Due.after interval first later).free ≤ v.now)
      (hnow : v.now ≤ (Due.after interval first later).moment)
  | again {seen : List MemberId} {first : Nat} {later : List Nat}
      (hinterval : v.barrier.interval = interval) (hresult : v.barrier.result = none)
      (hstate : v.barrier.state = .waiting seen)
      (hsending : v.sending = some (Due.after interval first later).moment)
      (hspaced : Spaced since interval begun ended) (hlength : begun.length = ended.length + 1)
      (hended : ended = first :: later)
      (htick : v.barrier.nextTick = (Due.after interval first later).tick)
      (hpast : ∀ moment ∈ begun, moment ≤ v.now)

theorem Paced.result_eq_none {τ : Type} {since interval : Nat} {begun ended : List Nat}
    {v : JoinRun τ} (h : v.Paced since interval begun ended) : v.barrier.result = none := by
  cases h with
  | early _ hresult _ _ _ _ _ _ => exact hresult
  | first _ hresult _ _ _ _ _ => exact hresult
  | rest _ hresult _ _ _ _ _ _ _ _ _ => exact hresult
  | again _ hresult _ _ _ _ _ _ _ => exact hresult

/-- A barrier over logical time, with what the transport has answered to the join that is under way.
The answer takes as long as the transport likes. -/
structure Timed (τ : Type) where
  joinRun : JoinRun τ
  answer : Except TransportError Unit

namespace Timed

variable {τ : Type} {g : Group} {t : Transport τ} {v : JoinRun τ} {x : Timed τ}
  {since interval : Nat} {begun ended : List Nat}

/-- What happens to a barrier and around it. -/
inductive Beat (τ : Type)
  /-- Anything at the bridge but the reading of signals. -/
  | bridge (move : Logbook.Move τ)
  /-- The barrier goes on, up to a join that it hands to the transport. -/
  | turn
  /-- The transport is done with the join that is under way. -/
  | finish
  | pass (elapsed : Nat)

def start (v : JoinRun τ) : Timed τ := ⟨v, .ok ()⟩

def turn (x : Timed τ) (t : Transport τ) : Timed τ :=
  match x.joinRun.sending, (x.joinRun.poll t).sending, (x.joinRun.poll t).joins.getLast? with
  | none, some _, some d =>
    let (answer, s) := t.send d.group d.target d.bytes x.joinRun.book.state
    ⟨(x.joinRun.poll t).step t (.bridge (.others s)), answer⟩
  | _, _, _ => { x with joinRun := x.joinRun.poll t }

def finish (x : Timed τ) : Timed τ := { x with joinRun := x.joinRun.sent x.answer }

def beat (t : Transport τ) (x : Timed τ) : Beat τ → Timed τ
  | .bridge move => { x with joinRun := x.joinRun.step t (.bridge move) }
  | .turn => x.turn t
  | .finish => x.finish
  | .pass elapsed => { x with joinRun := x.joinRun.step t (.pass elapsed) }

def beats (t : Transport τ) (x : Timed τ) (bs : List (Beat τ)) : Timed τ := bs.foldl (beat t) x

/-- Nothing happens to the barrier before time passes or something comes in. -/
def Rests (t : Transport τ) (x : Timed τ) : Prop :=
  (x.joinRun.sending = none → x.joinRun.Rests t) ∧
    (x.joinRun.sending.isSome = true → x.joinRun.deadline.isExpired = false)

/-- The moments at which time itself makes a difference to the barrier. -/
def timers (x : Timed τ) : List Nat :=
  if x.joinRun.sending.isSome then x.joinRun.deadline.timer
  else x.joinRun.barrier.nextTick :: x.joinRun.deadline.timer

/-- Time passes only while the barrier rests, and no further than to the next timer. -/
def Beat.Timely (t : Transport τ) (x : Timed τ) : Beat τ → Prop
  | .bridge _ => True
  | .turn => True
  | .finish => True
  | .pass elapsed => x.Rests t ∧ ∀ moment ∈ x.timers, x.joinRun.now + elapsed ≤ moment

def Timely (t : Transport τ) (x : Timed τ) : List (Beat τ) → Prop
  | [] => True
  | b :: bs => b.Timely t x ∧ Timely t (x.beat t b) bs

instance (t : Transport τ) (x : Timed τ) : (b : Beat τ) → Decidable (b.Timely t x)
  | .bridge _ => .isTrue trivial
  | .turn => .isTrue trivial
  | .finish => .isTrue trivial
  | .pass elapsed =>
    inferInstanceAs (Decidable (((x.joinRun.sending = none → x.joinRun.Rests t) ∧
      (x.joinRun.sending.isSome = true → x.joinRun.deadline.isExpired = false)) ∧
        ∀ moment ∈ x.timers, x.joinRun.now + elapsed ≤ moment))

instance decidableTimely (t : Transport τ) (x : Timed τ) :
    (bs : List (Beat τ)) → Decidable (Timely t x bs)
  | [] => .isTrue trivial
  | b :: bs =>
    have := decidableTimely t (x.beat t b) bs
    inferInstanceAs (Decidable (b.Timely t x ∧ Timely t (x.beat t b) bs))

/-- The moments at which the transport is asked for something in a barrier's turn, each as often as
it is. -/
def askedAt (t : Transport τ) (x : Timed (τ × List Transport.Demand)) :
    Beat (τ × List Transport.Demand) → List Nat
  | .turn => List.replicate
      ((x.turn t.watched).joinRun.book.state.2.length - x.joinRun.book.state.2.length) x.joinRun.now
  | _ => []

/-- The moment at which a join ends. -/
def endsAt (x : Timed τ) : Beat τ → List Nat
  | .finish => if x.joinRun.sending.isSome then [x.joinRun.now] else []
  | _ => []

/-- All that can come of a beat, as far as it concerns the joins. -/
inductive Goes (t : Transport τ) (since interval : Nat) (begun ended : List Nat)
    (x : Timed (τ × List Transport.Demand)) (b : Beat (τ × List Transport.Demand)) : Prop
  | on (hpaced : (x.beat t.watched b).joinRun.Paced since interval (begun ++ x.askedAt t b)
      (ended ++ x.endsAt b))
  | fail {e : TransportError}
      (hresult : (x.beat t.watched b).joinRun.barrier.result = some (.error (.transport e)))
  | ends (hresult : (x.beat t.watched b).joinRun.barrier.result ≠ none) (hbegun : begun ≠ [])
      (hasked : x.askedAt t b = []) (hnow : (x.beat t.watched b).joinRun.now = x.joinRun.now)

theorem turn_of_sending {moment : Nat} (h : x.joinRun.sending = some moment) :
    x.turn t = { x with joinRun := x.joinRun.poll t } := by
  simp only [turn, h]

variable {x : Timed (τ × List Transport.Demand)} {t : Transport τ}

/-- A barrier that passes or runs out of time does so without a join, and not before its first. -/
theorem Goes.of_ended {b : Beat (τ × List Transport.Demand)}
    (h : x.Goes t since interval begun ended b)
    (hdone : (x.beat t.watched b).joinRun.barrier.result = some (.ok ()) ∨
      ∃ missing,
        (x.beat t.watched b).joinRun.barrier.result = some (.error (.joinTimeout missing))) :
    begun ≠ [] ∧ x.askedAt t b = [] ∧ (x.beat t.watched b).joinRun.now = x.joinRun.now := by
  cases h with
  | on hstill =>
    rcases hdone with hok | ⟨missing, hlate⟩
    · cases hstill.result_eq_none.symm.trans hok
    · cases hstill.result_eq_none.symm.trans hlate
  | fail hfailed =>
    rcases hdone with hok | ⟨missing, hlate⟩
    · cases hfailed.symm.trans hok
    · cases hfailed.symm.trans hlate
  | ends _ hbegun hasked hmoment => exact ⟨hbegun, hasked, hmoment⟩

end Timed

namespace Paced

variable {τ : Type} {v : JoinRun τ} {since interval first : Nat} {begun ended later : List Nat}

theorem spaced (h : v.Paced since interval begun ended) : Spaced since interval begun ended := by
  cases h with
  | early _ _ _ _ _ _ hbegun hended =>
    rw [hbegun, hended]
    exact .nil since interval
  | first _ _ _ _ hbegun hended _ =>
    rw [hbegun, hended]
    exact (Spaced.nil since interval).begin rfl
  | rest _ _ _ _ hspaced _ _ _ _ _ _ => exact hspaced
  | again _ _ _ _ hspaced _ _ _ _ => exact hspaced

theorem past (h : v.Paced since interval begun ended) : ∀ moment ∈ begun, moment ≤ v.now := by
  cases h with
  | early _ _ _ _ _ _ hbegun _ => simp [hbegun]
  | first _ _ _ _ _ _ hpast => exact hpast
  | rest _ _ _ _ _ _ _ _ hpast _ _ => exact hpast
  | again _ _ _ _ _ _ _ _ hpast => exact hpast

/-- Between two ticks, the joins are the first and the ticks so far. -/
theorem begun_eq (h : v.Paced since interval begun (first :: later))
    (hprompt : Prompt since interval (first :: later ++ [v.now]))
    (hoff : ∀ k, v.now ≠ first + (k + 1) * interval) :
    begun = since :: (ticks first interval v.now).tail := by
  have hpast := h.past
  have hkept := hprompt.of_append
  have hbegun := h.spaced.begun_of_prompt hkept
  have hlast : v.now ≤ first + (later.length + 1) * interval + interval := by
    rw [← hkept.due_eq]
    exact hprompt (first :: later) v.now [] rfl (List.cons_ne_nil _ _)
  have hgrid {n : Nat} (hn : begun.length - 1 = n) (hlow : first + n * interval ≤ v.now)
      (hhigh : v.now ≤ first + (n + 1) * interval) :
      begun = since :: (ticks first interval v.now).tail := by
    rw [ticks_eq hlow (Nat.lt_of_le_of_ne hhigh (hoff n)), List.tail_cons, ← hn]
    exact hbegun
  have hmem {n : Nat} (hn : n + 1 = begun.length - 1) : first + (n + 1) * interval ≤ v.now := by
    refine hpast _ ?_
    rw [hbegun]
    exact List.mem_cons_of_mem _ (List.mem_map.mpr ⟨n, List.mem_range.mpr (by omega), rfl⟩)
  cases h with
  | early _ _ _ _ _ _ _ hended => cases hended
  | first _ _ _ _ _ hended _ => cases hended
  | rest _ _ _ _ _ hlength hended _ _ hfree hnow =>
    cases hended
    rw [List.length_cons] at hlength
    refine hgrid (n := later.length) (by omega) ?_ (hkept.due_eq ▸ hnow)
    cases hlater : later.length with
    | zero =>
      rw [List.length_eq_zero_iff.mp hlater] at hfree
      rw [Nat.zero_mul, Nat.add_zero]
      exact hfree
    | succ n => exact hmem (by omega)
  | again _ _ _ _ _ hlength hended _ _ =>
    cases hended
    rw [List.length_cons] at hlength
    refine hgrid (n := later.length + 1) (by omega) (hmem (by omega)) ?_
    rw [Nat.add_mul (later.length + 1), Nat.one_mul, ← Nat.add_assoc]
    exact hlast

end Paced

end JoinRun

namespace JoinSchedule

open Screening JoinRun JoinRun.Timed Transport

theorem connect_watched {l : Link} (h : l.refusesSubscription = false) (asked : List Demand) :
    Bridge.connect group (Link.transport b).watched (l, asked) =
      (.ok bridge, l, asked ++ [.subscribe "g"]) := by
  have hannounce := (Bridge.connect_eq_ok connect_link).2.2.2
  have hlocal : b = group.localMember := rfl
  simp only [Bridge.connect, watched, Link.transport, h, Bool.false_eq_true, if_false, hannounce,
    hlocal, ne_eq, not_true_eq_false]
  rfl

/-- A barrier that begins a little after its bridge. -/
def late : JoinRun (Link × List Demand) :=
  (JoinRun.start bridge (JoinSample.link, [.subscribe "g"]) 100
    ⟨.ofSecs 5, Deadline.nanosOf 5000, false⟩ 0).run (Link.transport b).watched [.pass 7]

/-- What the last turn makes of the barrier. -/
def ended (bs : List (Beat (Link × List Demand))) : JoinRun (Link × List Demand) :=
  ((beats (Link.transport b).watched (start late) bs).beat (Link.transport b).watched .turn).joinRun

end JoinSchedule

end ThresholdSigning
