import AthenaAI.Resilience.CircuitBreaker.Outage

/-!
# Recovery

What becomes of a breaker once its dependency is up again and no function raises any more.

* `Alive` is a run in which no function ends with an exception, and `successes` counts the functions
  that have succeeded in it.
* `OpenBy` and `Recovering` are the two invariants: the circuit did not open after the last failure,
  and, from the first invocation that is let through, it is not open and counts what succeeds. Each
  has a lemma for a step and one for a run (`openBy_after`, `recovering_after`).
* `recovered`: an invocation that begins when the cooldown of the last failure is over is admitted,
  and so are all later ones. The circuit is closed when enough of them have succeeded, whatever the
  breaker has been through before.
-/

namespace CircuitBreaker.CallSystem

variable {s : CallSystem} {failed : ℚ} {k : ℕ}

/-- The number of functions that succeed in a run. -/
def successes (s : CallSystem) (es : List (CallEvent × ℚ)) : ℕ :=
  (Run.steps stepCall s es).countP fun t => t.before.succeeds t.event

/-- No function that ends in a run ends with an exception. -/
def Alive (es : List (CallEvent × ℚ)) : Prop :=
  ∀ e ∈ es, ∀ id, e.1 ≠ .finish id .exception

/-- If the circuit is open, it was opened by `failed`. -/
def OpenBy (failed : ℚ) (cb : CircuitBreaker) : Prop :=
  cb.state = .OPEN → ∃ openedAt, cb.openedAt = some openedAt ∧ openedAt ≤ failed

/-- `k` functions have succeeded since the circuit let an invocation through. -/
def Recovering (k : ℕ) (cb : CircuitBreaker) : Prop :=
  (cb.state = .HALF_OPEN ∧ k ≤ cb.probeSuccesses) ∨
    (cb.state = .CLOSED ∧ (0 < k → cb.failureCount = 0))

/-- No event up to `failed` opens the circuit later than that, so `OpenBy` holds when the last
failure is over. -/
theorem openBy_step (s : CallSystem) {e : Event × ℚ} (he : e.2 ≤ failed)
    (h : OpenBy failed s.breaker) : OpenBy failed (s.step e).breaker := by
  rcases s.breaker_step_case e with hsame | ⟨op, hcase⟩
  · rw [hsame]
    exact h
  · generalize (s.step e).breaker = cb at hcase ⊢
    cases hcase with
    | trip now hstate hreached => exact fun _ => ⟨e.2, rfl, he⟩
    | reopen now hstate => exact fun _ => ⟨e.2, rfl, he⟩
    | count now hstate hlt => exact fun hopen => absurd hopen (by simp [hstate])
    | clear now hstate => exact fun hopen => absurd hopen (by simp [hstate])
    | halfOpen now openedAt hstate hat helapsed => exact nofun
    | probe now hstate hlt => exact fun hopen => absurd hopen (by simp [hstate])
    | close now hstate hreached => exact nofun
    | ignore op now hstate hop => exact h
    | wait now hstate hcooling => exact h
    | stay now hstate => exact h

/-- An end without an exception keeps a circuit `Recovering`, with one more success if it is one. -/
theorem recovering_finishCall {cb : CircuitBreaker} (h : Recovering k cb) {outcome : Outcome}
    (houtcome : outcome ≠ .exception) (now : ℚ) :
    Recovering (k + if outcome = .success then 1 else 0) (cb.finishCall outcome now) := by
  cases outcome with
  | exception => exact absurd rfl houtcome
  | cancelled => exact h
  | success =>
    change Recovering (k + 1) cb.recordSuccess
    rcases h with ⟨hhalf, hk⟩ | ⟨hclosed, -⟩
    · rw [recordSuccess_of_halfOpen hhalf]
      split_ifs
      · exact .inr ⟨rfl, fun _ => rfl⟩
      · exact .inl ⟨hhalf, Nat.succ_le_succ hk⟩
    · rw [recordSuccess_of_closed hclosed]
      exact .inr ⟨hclosed, fun _ => rfl⟩

/-- A circuit that is `Recovering` is closed or half-open, so it rejects nothing. -/
theorem Recovering.ne_open {cb : CircuitBreaker} (h : Recovering k cb) : cb.state ≠ .OPEN := by
  rcases h with ⟨hhalf, -⟩ | ⟨hclosed, -⟩
  · simp [hhalf]
  · simp [hclosed]

theorem openBy_finishCall {cb : CircuitBreaker} (h : OpenBy failed cb) {outcome : Outcome}
    (houtcome : outcome ≠ .exception) (now : ℚ) : OpenBy failed (cb.finishCall outcome now) := by
  cases outcome with
  | exception => exact absurd rfl houtcome
  | cancelled => exact h
  | success =>
    change OpenBy failed cb.recordSuccess
    cases hstate : cb.state with
    | CLOSED =>
      rw [recordSuccess_of_closed hstate]
      exact fun hopen => absurd hopen (by simp [hstate])
    | OPEN => rwa [recordSuccess_of_open hstate]
    | HALF_OPEN =>
      rw [recordSuccess_of_halfOpen hstate]
      split_ifs
      · exact nofun
      · exact fun hopen => absurd hopen (by simp [hstate])

/-- Without an exception the circuit does not open anew, so `OpenBy` is kept by every event of a
healthy run. -/
theorem openBy_stepCall (hs : s.WellFormed) {e : CallEvent × ℚ}
    (halive : ∀ id, e.1 ≠ .finish id .exception) (h : OpenBy failed s.breaker) :
    OpenBy failed (s.stepCall e).breaker := by
  have hcase := stepCall_case hs e
  generalize s.stepCall e = s' at hcase ⊢
  cases hcase with
  | reject now hadmits hstate hcooling hbreaker hrunning => exact hbreaker ▸ h
  | admitted now hadmits hstate hbreaker hrunning => exact hbreaker ▸ h
  | probe now openedAt hadmits hstate hat helapsed hbreaker hrunning =>
    rw [hbreaker]
    exact nofun
  | record id outcome now hsucceeds hbreaker hrunning =>
    rw [hbreaker]
    exact openBy_finishCall h (fun houtcome => halive id (houtcome ▸ rfl)) now
  | absent id outcome now hsucceeds hsame => exact hsame ▸ h

/-- In a run that is `Alive` a circuit that is open was opened by `failed`: no later exception can
have opened it. -/
theorem openBy_after (hs : s.WellFormed) (h : OpenBy failed s.breaker)
    {es : List (CallEvent × ℚ)} (halive : Alive es) :
    OpenBy failed (Run.after stepCall s es).breaker := by
  induction es generalizing s with
  | nil => exact h
  | cons e es ih =>
    refine ih (wellFormed_stepCall s e hs) ?_ fun e' he' => halive e' (List.mem_cons_of_mem e he')
    exact openBy_stepCall hs (halive e List.mem_cons_self) h

/-- A circuit that is `Recovering` admits every invocation, and counts every success of the
event. -/
theorem recovering_stepCall (hs : s.WellFormed) {e : CallEvent × ℚ}
    (halive : ∀ id, e.1 ≠ .finish id .exception) (h : Recovering k s.breaker) :
    Recovering (k + if s.succeeds e then 1 else 0) (s.stepCall e).breaker ∧
      (e.1 = .begin → s.admits e = true) := by
  have hcase := stepCall_case hs e
  generalize s.stepCall e = s' at hcase ⊢
  cases hcase with
  | reject now hadmits hstate hcooling hbreaker hrunning => exact absurd hstate h.ne_open
  | admitted now hadmits hstate hbreaker hrunning => exact ⟨hbreaker ▸ h, fun _ => hadmits⟩
  | probe now openedAt hadmits hstate hat helapsed hbreaker hrunning =>
    exact absurd hstate h.ne_open
  | record id outcome now hsucceeds hbreaker hrunning =>
    refine ⟨?_, nofun⟩
    rw [hbreaker, if_congr hsucceeds rfl rfl]
    exact recovering_finishCall h (fun houtcome => halive id (houtcome ▸ rfl)) now
  | absent id outcome now hsucceeds hsame =>
    refine ⟨?_, nofun⟩
    rw [hsucceeds, hsame]
    exact h

/-- The first invocation after the cooldown of the last failure is admitted, and the circuit is
`Recovering` from then on. -/
theorem recovering_begin (hs : s.WellFormed) (h : OpenBy failed s.breaker) {now : ℚ}
    (hnow : failed + s.breaker.cooldownS ≤ now) :
    s.admits (.begin, now) = true ∧ Recovering 0 (s.stepCall (.begin, now)).breaker := by
  have hcase := stepCall_case hs (.begin, now)
  generalize s.stepCall (.begin, now) = s' at hcase ⊢
  cases hcase with
  | reject _ hadmits hstate hcooling hbreaker hrunning =>
    obtain ⟨openedAt, hat, hle⟩ := h hstate
    have hlt := hcooling openedAt hat
    linarith
  | admitted _ hadmits hstate hbreaker hrunning =>
    refine ⟨hadmits, ?_⟩
    rw [hbreaker]
    cases hs' : s.breaker.state with
    | CLOSED => exact .inr ⟨hs', fun hpos => absurd hpos (lt_irrefl 0)⟩
    | OPEN => exact absurd hs' hstate
    | HALF_OPEN => exact .inl ⟨hs', Nat.zero_le _⟩
  | probe _ openedAt hadmits hstate hat helapsed hbreaker hrunning =>
    rw [hbreaker]
    exact ⟨hadmits, .inl ⟨rfl, Nat.zero_le _⟩⟩

/-- `successes` of a run counts its first event exactly if it is the end of a function that
succeeds. -/
theorem successes_cons (s : CallSystem) (e : CallEvent × ℚ) (es : List (CallEvent × ℚ)) :
    successes s (e :: es) = (if s.succeeds e then 1 else 0) + successes (s.stepCall e) es := by
  rw [successes, Run.steps_cons, List.countP_cons, add_comm]
  rfl

/-- Along a run that is `Alive` a circuit stays `Recovering`, has counted all its successes, and has
admitted every invocation. -/
theorem recovering_after (hs : s.WellFormed) (h : Recovering k s.breaker)
    {es : List (CallEvent × ℚ)} (halive : Alive es) :
    Recovering (k + successes s es) (Run.after stepCall s es).breaker ∧
      ∀ t ∈ Run.steps stepCall s es, t.event.1 = .begin → t.before.admits t.event = true := by
  induction es generalizing s k with
  | nil => exact ⟨h, List.forall_mem_nil _⟩
  | cons e es ih =>
    obtain ⟨hrecovering, hadmits⟩ := recovering_stepCall hs (halive e List.mem_cons_self) h
    obtain ⟨hafter, hall⟩ := ih (wellFormed_stepCall s e hs) hrecovering
      fun e' he' => halive e' (List.mem_cons_of_mem e he')
    rw [successes_cons, ← Nat.add_assoc, Run.after_cons, Run.steps_cons]
    refine ⟨hafter, List.forall_mem_cons.mpr ⟨hadmits, hall⟩⟩

/-- No function raises after the events `before` (`Alive`). An invocation that begins when the
cooldown is over since then is admitted, and so is every later one; and when as many of them as the
circuit asks for have succeeded (`successes`), it is closed and has counted no failure. -/
theorem recovered {failureThreshold halfOpenProbeCount : ℕ} {cooldownS now : ℚ}
    {before : List (Event × ℚ)} (hbefore : ∀ e ∈ before, e.2 ≤ failed)
    {early late : List (CallEvent × ℚ)} (hearly : Alive early) (hlate : Alive late)
    (hnow : failed + cooldownS ≤ now) :
    let s := Run.after stepCall
      (Run.after step (start (init failureThreshold cooldownS halfOpenProbeCount)) before) early
    let s' := s.stepCall (.begin, now)
    s.admits (.begin, now) = true ∧
      (∀ t ∈ Run.steps stepCall s' late, t.event.1 = .begin → t.before.admits t.event = true) ∧
      (max halfOpenProbeCount 1 ≤ successes s' late →
        (Run.after stepCall s' late).breaker.state = .CLOSED ∧
          (Run.after stepCall s' late).breaker.failureCount = 0) := by
  intro s s'
  have hreached := reached_after (sound_init failureThreshold cooldownS halfOpenProbeCount) before
  have hs := reached_stepCall hreached early
  have hopenBy : OpenBy failed s.breaker := by
    refine openBy_after hreached.wellFormed ?_ hearly
    refine (Run.invariant_of_guard (G := fun _ e => e.2 ≤ failed) (fun s e h he => ?_)
      (P := fun s : CallSystem => OpenBy failed s.breaker) (fun h => by cases h)
      fun t ht => ?_).2
    · exact openBy_step s he h
    · exact hbefore _ (Run.steps_map_event step _ before ▸ List.mem_map_of_mem ht)
  have hover : failed + s.breaker.cooldownS ≤ now := hs.cooldownS.symm ▸ hnow
  obtain ⟨hadmits, hrecovering⟩ := recovering_begin hs.wellFormed hopenBy hover
  have hs' := reached_stepCall hs [(.begin, now)]
  obtain ⟨hafter, hall⟩ := recovering_after hs'.wellFormed hrecovering hlate
  refine ⟨hadmits, hall, fun hmany => ?_⟩
  have hend := reached_stepCall hs' late
  rw [Nat.zero_add] at hafter
  rcases hafter with ⟨hhalf, hle⟩ | ⟨hclosed, hcount⟩
  · have hbelow := hend.sound.below_probeCount hhalf
    rw [hend.halfOpenProbeCount] at hbelow
    exact absurd (hmany.trans hle) (not_le.mpr hbelow)
  · exact ⟨hclosed, hcount (lt_of_lt_of_le (lt_max_of_lt_right one_pos) hmany)⟩

/-- A breaker that asks for one success trips at the reading `0`, and has a cooldown of one second:
it is closed when the first invocation after it has succeeded. -/
theorem recovered_afterTrip :
    let s := Run.after stepCall
      (Run.after step (start (init 1 1 1)) [(.direct .recordFailure, 0)]) []
    s.admits (.begin, 1) = true ∧
      (Run.after stepCall (s.stepCall (.begin, 1)) [(.finish 0 .success, 2)]).breaker.state =
        .CLOSED := by
  intro s
  obtain ⟨hadmits, -, hclosed⟩ := @recovered 0 1 1 1 1 [(.direct .recordFailure, 0)] (by simp) []
    [(.finish 0 .success, 2)] (by simp [Alive]) (by simp [Alive]) (by norm_num)
  exact ⟨hadmits, (hclosed (by decide +kernel)).1⟩

end CircuitBreaker.CallSystem
