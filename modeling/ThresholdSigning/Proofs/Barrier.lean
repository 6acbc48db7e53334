import ThresholdSigning.Barrier

namespace ThresholdSigning.Barrier

variable {τ : Type} {b b' : Barrier} {bridge bridge' : Bridge} {t : Transport τ}
  {deadline : Deadline} {now : Nat} {s s' : τ}

/-- All that one step of a barrier can be. -/
inductive Steps (b : Barrier) (bridge : Bridge) (t : Transport τ) (deadline : Deadline) (now : Nat)
    (s : τ) : Barrier → Bridge → τ → Prop
  | begin (hstate : b.state = .idle) :
      b.Steps bridge t deadline now s { b with state := .announcing } bridge s
  | expireAtOnce (hstate : b.state = .announcing) (hexpired : deadline.isExpired = true) :
      b.Steps bridge t deadline now s (b.timeOut bridge.group []) bridge s
  | join {left : τ} (hstate : b.state = .announcing) (hlive : deadline.isExpired = false)
      (hsend : bridge.broadcastJoin t s = (.ok (), left)) :
      b.Steps bridge t deadline now s
        { b with state := .waiting [], nextTick := now + b.interval } bridge left
  | joinFails {e : Error} {left : τ} (hstate : b.state = .announcing)
      (hlive : deadline.isExpired = false) (hsend : bridge.broadcastJoin t s = (.error e, left)) :
      b.Steps bridge t deadline now s (b.fail e) bridge left
  | pass {seen : List MemberId} (hstate : b.state = .waiting seen)
      (hall : ∀ m ∈ bridge.group.peers, m ∈ seen) :
      b.Steps bridge t deadline now s { b with state := .ready, result := some (.ok ()) } bridge s
  | expire {seen : List MemberId} (hstate : b.state = .waiting seen)
      (hmissing : ∃ m ∈ bridge.group.peers, m ∉ seen) (hexpired : deadline.isExpired = true) :
      b.Steps bridge t deadline now s (b.timeOut bridge.group seen) bridge s
  | hear {seen : List MemberId} {signal : Signal} {signals : List Signal}
      (hstate : b.state = .waiting seen) (hmissing : ∃ m ∈ bridge.group.peers, m ∉ seen)
      (hlive : deadline.isExpired = false) (hsignals : bridge.signals = signal :: signals) :
      b.Steps bridge t deadline now s
        { b with state := .waiting (Barrier.hear bridge.group seen signal) }
        { bridge with signals := signals } s
  | queueEnds {seen : List MemberId} (hstate : b.state = .waiting seen)
      (hmissing : ∃ m ∈ bridge.group.peers, m ∉ seen) (hlive : deadline.isExpired = false)
      (hsignals : bridge.signals = []) (hclosed : bridge.isOpen = false) :
      b.Steps bridge t deadline now s (b.fail (.transport .channelClosed)) bridge s
  | joinAgain {seen : List MemberId} {left : τ} (hstate : b.state = .waiting seen)
      (hmissing : ∃ m ∈ bridge.group.peers, m ∉ seen) (hlive : deadline.isExpired = false)
      (hsignals : bridge.signals = []) (hopen : bridge.isOpen = true) (hdue : b.nextTick ≤ now)
      (hsend : bridge.broadcastJoin t s = (.ok (), left)) :
      b.Steps bridge t deadline now s { b with nextTick := b.tickAfter now } bridge left
  | joinAgainFails {seen : List MemberId} {e : Error} {left : τ} (hstate : b.state = .waiting seen)
      (hmissing : ∃ m ∈ bridge.group.peers, m ∉ seen) (hlive : deadline.isExpired = false)
      (hsignals : bridge.signals = []) (hopen : bridge.isOpen = true) (hdue : b.nextTick ≤ now)
      (hsend : bridge.broadcastJoin t s = (.error e, left)) :
      b.Steps bridge t deadline now s (b.fail e) bridge left

theorem steps_of_step (h : b.step bridge t deadline now s = some (b', bridge', s')) :
    b.result = none ∧ b.Steps bridge t deadline now s b' bridge' s' := by
  unfold step at h
  split at h
  next => cases h
  next hwaits =>
    refine ⟨by simpa using hwaits, ?_⟩
    split at h
    next hstate =>
      cases h
      exact .begin hstate
    next hstate =>
      split at h
      next hexpired =>
        cases h
        exact .expireAtOnce hstate hexpired
      next hlive =>
        have hlive : deadline.isExpired = false := by simpa using hlive
        split at h
        next e left hsend =>
          cases h
          exact .joinFails hstate hlive hsend
        next left hsend =>
          cases h
          exact .join hstate hlive hsend
    next seen hstate =>
      split at h
      next hall =>
        cases h
        exact .pass hstate (by simpa using hall)
      next hmissing =>
        have hmissing : ∃ m ∈ bridge.group.peers, m ∉ seen := by simpa using hmissing
        split at h
        next hexpired =>
          cases h
          exact .expire hstate hmissing hexpired
        next hlive =>
          have hlive : deadline.isExpired = false := by simpa using hlive
          split at h
          next signal signals hsignals =>
            cases h
            exact .hear hstate hmissing hlive hsignals
          next hsignals =>
            split at h
            next hclosed =>
              cases h
              exact .queueEnds hstate hmissing hlive hsignals (by simpa using hclosed)
            next hopen =>
              have hopen : bridge.isOpen = true := by simpa using hopen
              split at h
              next => cases h
              next hdue =>
                have hdue : b.nextTick ≤ now := Nat.not_lt.mp hdue
                split at h
                next e left hsend =>
                  cases h
                  exact .joinAgainFails hstate hmissing hlive hsignals hopen hdue hsend
                next left hsend =>
                  cases h
                  exact .joinAgain hstate hmissing hlive hsignals hopen hdue hsend
    next => cases h
    next => cases h

theorem mem_hear_iff {group : Group} {seen : List MemberId} {signal : Signal} {m : MemberId} :
    m ∈ hear group seen signal ↔
      m ∈ seen ∨ group.isPeer signal.sender = true ∧ m = signal.sender := by
  unfold hear
  split
  next h =>
    have hpeer : group.isPeer signal.sender = true := by
      rw [Bool.and_eq_true] at h
      exact h.1
    simp [hpeer]
  next h =>
    constructor
    · exact Or.inl
    · rintro (hold | ⟨hpeer, rfl⟩)
      · exact hold
      · simpa [hpeer] using h

end ThresholdSigning.Barrier
