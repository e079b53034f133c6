import AthenaAI.Resilience.Backoff
import AthenaAI.Resilience.CircuitBreaker.Defs
import Mathlib.Data.Rat.Floor

/-!
# Retries through a circuit breaker

`with_retry` around `breaker.call(fn)`, for an `fn` that always raises. The loop knows nothing of
the breaker, and retries its `CircuitOpenError` like any other exception.

* `Stands`: where the breaker has got to after a number of attempts. Either it still counts failures
  towards its threshold, or it has opened, and then every later probe came a cooldown after the
  probe before it.
* `withRetry_throughBreaker`: how the loop ends, and where the breaker stands then.
* `withRetry_shielded`: the function runs once for each failure that is missing to the threshold,
  and beyond that at most once a cooldown.
-/

namespace CircuitBreaker

variable {cb : CircuitBreaker} {now openedAt : ℚ}

/-- The exception of a call that an open circuit rejects. -/
def circuitOpen : PyExc := .of .CircuitOpenError "Circuit breaker is OPEN".toList

/-- `call(fn)` that begins at `began`, where `fn` ends as `outcome` says and `call` at `ended`. -/
def call {α : Type} (cb : CircuitBreaker) (began ended : ℚ) (outcome : Except PyExc α) :
    Except PyExc α × CircuitBreaker :=
  match cb.beginCall began with
  | (cb, .error exc) => (.error exc, cb)
  | (cb, .ok ()) =>
    match outcome with
    | .ok a => (.ok a, cb.finishCall .success ended)
    | .error exc => (.error exc, cb.finishCall .exception ended)

/-- A closed circuit runs the function and does not look at the clock. -/
theorem beginCall_of_closed (h : cb.state = .CLOSED) : cb.beginCall now = (cb, .ok ()) := by
  have hne : cb.state ≠ .OPEN := by
    rw [h]
    exact nofun
  rw [beginCall, maybeTransitionToHalfOpen_of_ne_open hne]
  exact if_neg hne

/-- During the cooldown `beginCall` of an open circuit raises `CircuitOpenError` and changes
nothing. -/
theorem beginCall_of_cooling (h : cb.state = .OPEN) (hat : cb.openedAt = some openedAt)
    (hcooling : now - openedAt < cb.cooldownS) :
    cb.beginCall now = (cb, .error circuitOpen) := by
  rw [beginCall, maybeTransitionToHalfOpen_of_open h hat, if_neg (not_le.mpr hcooling)]
  exact if_pos h

/-- When the cooldown has elapsed `beginCall` makes the circuit half-open, with no success counted,
and lets the call through as a probe. -/
theorem beginCall_of_elapsed (h : cb.state = .OPEN) (hat : cb.openedAt = some openedAt)
    (helapsed : cb.cooldownS ≤ now - openedAt) :
    cb.beginCall now = ({ cb with state := .HALF_OPEN, probeSuccesses := 0 }, .ok ()) := by
  rw [beginCall, maybeTransitionToHalfOpen_of_open h hat, if_pos helapsed]
  exact if_neg nofun

end CircuitBreaker

namespace Retry

open CircuitBreaker (circuitOpen)

/-- One attempt: when it began, and whether the breaker ran the function. -/
structure BreakerAttempt where
  /-- The clock reading when the attempt began. -/
  began : ℚ
  /-- Whether the function ran. -/
  ran : Bool

/-- A breaker that nobody else uses, and the attempts made so far. -/
structure BreakerWorld where
  /-- The breaker. -/
  breaker : CircuitBreaker
  /-- The attempts, in their order. -/
  attempts : List BreakerAttempt

namespace BreakerWorld

/-- How often the function ran. -/
def invocations (w : BreakerWorld) : ℕ := w.attempts.countP (·.ran)

/-- Whether the last attempt ran the function. -/
def lastRan (w : BreakerWorld) : Bool := w.attempts.getLast?.any (·.ran)

/-- The time from the first to the last attempt. -/
def elapsed (w : BreakerWorld) : ℚ :=
  match w.attempts.head?, w.attempts.getLast? with
  | some first, some last => last.began - first.began
  | _, _ => 0

end BreakerWorld

variable {D α : Type}

/-- `breaker.call(fn)` as the function to retry, where `fn` raises `failures n` when it runs for the
`n`-th time. The clock is read when an attempt begins and when it ends. -/
def throughBreaker (clock : ℕ → ℚ) (failures : ℕ → PyExc) (draws : ℕ → D → D) :
    RetryEnv BreakerWorld D α where
  fn w :=
    let began := clock (2 * w.attempts.length)
    let ended := clock (2 * w.attempts.length + 1)
    let (outcome, breaker) := w.breaker.call began ended (.error (failures w.invocations))
    let ran := (w.breaker.beginCall began).2.isOk
    (outcome, ⟨breaker, w.attempts ++ [⟨began, ran⟩]⟩)
  uniform delay w := (draws w.attempts.length delay, w)
  -- the clock goes on as it likes
  sleep _ w := w

/-- What a retry loop gets of a breaker around a function that always raises. -/
structure Shields (cb : CircuitBreaker) (policy : RetryPolicy D) (failures : ℕ → PyExc)
    (final : Except PyExc α × BreakerWorld) : Prop where
  /-- Beyond the failures missing to the threshold, the function runs once a cooldown. -/
  bounded : (final.2.invocations : ℤ) ≤
    (cb.failureThreshold - cb.failureCount : ℕ) + ⌊final.2.elapsed / cb.cooldownS⌋
  /-- It does not run beyond these failures within the first cooldown. -/
  exact : final.2.elapsed < cb.cooldownS →
    (final.2.invocations : ℤ) =
      min policy.maxAttempts (cb.failureThreshold - cb.failureCount : ℕ)
  /-- The loop raises what the function raised last, if the last attempt ran it. -/
  raised : final.1 = .error
    (if final.2.lastRan then failures (final.2.invocations - 1) else circuitOpen)

/-! ## Attempts -/

variable {cb : CircuitBreaker} {clock : ℕ → ℚ} {failures : ℕ → PyExc} {draws : ℕ → D → D}
  {w : BreakerWorld} {k : ℕ}

/-- The phase of the breaker after `k` attempts. -/
inductive Phase (cb : CircuitBreaker) (clock : ℕ → ℚ) (k : ℕ) (w : BreakerWorld) : Prop
  /-- It counts the failures towards its threshold. -/
  | counting (hbreaker : w.breaker = { cb with failureCount := cb.failureCount + k })
      (hran : w.invocations = k) (hbelow : cb.failureCount + k < cb.failureThreshold)
  /-- It has opened, and probed the function `probes` times since. -/
  | tripped (openedAt : ℚ) (probes : ℕ) (hstate : w.breaker.state = .OPEN)
      (hat : w.breaker.openedAt = some openedAt) (hcooldown : w.breaker.cooldownS = cb.cooldownS)
      (hran : w.invocations = cb.failureThreshold - cb.failureCount + probes)
      (hopened : clock 0 + probes * cb.cooldownS ≤ openedAt) (hpast : openedAt ≤ clock (2 * k))
      (hlast : clock 0 + probes * cb.cooldownS ≤ clock (2 * (k - 1)))

/-- Where the breaker and the attempts stand after `k` attempts. -/
structure Stands (cb : CircuitBreaker) (clock : ℕ → ℚ) (k : ℕ) (w : BreakerWorld) : Prop where
  began : w.attempts.map BreakerAttempt.began = (List.range k).map fun i => clock (2 * i)
  phase : Phase cb clock k w

/-- Where the breaker `Stands` after `k` attempts, the record has `k` of them. -/
theorem Stands.length_attempts (h : Stands cb clock k w) : w.attempts.length = k := by
  simpa using congrArg List.length h.began

/-- The time between the first reading and that of the last attempt: the clock is read twice for
each attempt. -/
theorem Stands.elapsed (h : Stands cb clock (k + 1) w) :
    w.elapsed = clock (2 * k) - clock 0 := by
  have hfirst := congrArg List.head? h.began
  have hlast := congrArg List.getLast? h.began
  rw [List.range_succ, List.map_append, List.map_singleton, List.getLast?_concat,
    List.getLast?_map, Option.map_eq_some_iff] at hlast
  rw [List.range_succ_eq_map, List.map_cons, List.head?_cons, List.head?_map,
    Option.map_eq_some_iff] at hfirst
  obtain ⟨first, hfirst, hfirstBegan⟩ := hfirst
  obtain ⟨last, hlast, hlastBegan⟩ := hlast
  simp only [BreakerWorld.elapsed, hfirst, hlast, hfirstBegan, hlastBegan, mul_zero]

/-- A further attempt begins at the next even reading of the clock; the odd ones are those at which
outcomes are recorded. -/
theorem began_concat (h : Stands cb clock k w) (ran : Bool) :
    (w.attempts ++ [BreakerAttempt.mk (clock (2 * k)) ran]).map BreakerAttempt.began =
      (List.range (k + 1)).map fun i => clock (2 * i) := by
  rw [List.map_append, h.began, List.range_succ, List.map_append]
  rfl

/-- An attempt adds one to `invocations` exactly if the breaker let it through to the function. -/
theorem invocations_attempt (breaker : CircuitBreaker) (began : ℚ) (ran : Bool) :
    BreakerWorld.invocations ⟨breaker, w.attempts ++ [⟨began, ran⟩]⟩ =
      w.invocations + ran.toNat := by
  cases ran <;> simp [BreakerWorld.invocations]

/-- An attempt that the breaker lets through runs the function, which fails, and records the failure
at the next reading of the clock. -/
theorem fn_of_ok {breaker : CircuitBreaker} (hlength : w.attempts.length = k)
    (hbegin : w.breaker.beginCall (clock (2 * k)) = (breaker, .ok ())) :
    (throughBreaker clock failures draws : RetryEnv BreakerWorld D α).fn w =
      (.error (failures w.invocations),
        ⟨breaker.recordFailure (clock (2 * k + 1)), w.attempts ++ [⟨clock (2 * k), true⟩]⟩) := by
  simp only [throughBreaker, CircuitBreaker.call, hlength, hbegin]
  rfl

/-- An attempt that the breaker rejects ends in its exception, and the function is not invoked. -/
theorem fn_of_error {breaker : CircuitBreaker} {exc : PyExc} (hlength : w.attempts.length = k)
    (hbegin : w.breaker.beginCall (clock (2 * k)) = (breaker, .error exc)) :
    (throughBreaker clock failures draws : RetryEnv BreakerWorld D α).fn w =
      (.error exc, ⟨breaker, w.attempts ++ [⟨clock (2 * k), false⟩]⟩) := by
  simp only [throughBreaker, CircuitBreaker.call, hlength, hbegin]
  rfl

/-- An attempt raises the exception of the function if it runs it, and that of the breaker
otherwise. -/
theorem fn_fst (w : BreakerWorld) :
    let ended := (throughBreaker clock failures draws : RetryEnv BreakerWorld D α).fn w
    ended.1 = .error
      (if ended.2.lastRan then failures (ended.2.invocations - 1) else circuitOpen) := by
  intro ended
  rcases hbegin : w.breaker.beginCall (clock (2 * w.attempts.length)) with ⟨breaker, exc | _⟩
  · have hexc : exc = circuitOpen := by
      have hsnd := w.breaker.beginCall_snd (clock (2 * w.attempts.length))
      rw [hbegin] at hsnd
      split_ifs at hsnd
      exact Except.error.inj hsnd
    simp only [ended, fn_of_error rfl hbegin, BreakerWorld.lastRan, List.getLast?_concat,
      Option.any_some, hexc]
    rfl
  · simp only [ended, fn_of_ok rfl hbegin, BreakerWorld.lastRan, List.getLast?_concat,
      Option.any_some, invocations_attempt]
    rfl

/-- A further attempt keeps `Stands`: the breaker is still counting failures, or has tripped and
lets one attempt through for each cooldown. -/
theorem stands_fn (α : Type) (failures : ℕ → PyExc) (draws : ℕ → D → D)
    (hclock : Monotone clock) (hclosed : cb.state = .CLOSED) (h : Stands cb clock k w) :
    Stands cb clock (k + 1)
      ((throughBreaker clock failures draws : RetryEnv BreakerWorld D α).fn w).2 := by
  have hnext : clock (2 * k + 1) ≤ clock (2 * (k + 1)) := hclock (by omega)
  cases h.phase with
  | counting hbreaker hran hbelow =>
    have hstate : w.breaker.state = .CLOSED := by
      rw [hbreaker]
      exact hclosed
    rw [fn_of_ok h.length_attempts (CircuitBreaker.beginCall_of_closed hstate)]
    refine ⟨began_concat h true, ?_⟩
    rw [CircuitBreaker.recordFailure_of_closed hstate, hbreaker]
    split_ifs with hreached
    -- this failure reaches the threshold
    · refine .tripped (clock (2 * k + 1)) 0 rfl rfl rfl ?_ ?_ hnext ?_
      · rw [invocations_attempt, hran]
        simp only [Bool.toNat_true, add_zero]
        dsimp only at hreached
        omega
      · rw [Nat.cast_zero, zero_mul, add_zero]
        exact hclock (Nat.zero_le _)
      · rw [Nat.cast_zero, zero_mul, add_zero]
        exact hclock (Nat.zero_le _)
    · dsimp only at hreached
      exact .counting rfl (by rw [invocations_attempt, hran]; rfl) (by omega)
  | tripped openedAt probes hstate hat hcooldown hran hopened hpast hlast =>
    rcases lt_or_ge (clock (2 * k) - openedAt) w.breaker.cooldownS with hcooling | helapsed
    · rw [fn_of_error h.length_attempts
        (CircuitBreaker.beginCall_of_cooling hstate hat hcooling)]
      refine ⟨began_concat h false, .tripped openedAt probes hstate hat hcooldown ?_ hopened ?_ ?_⟩
      · rw [invocations_attempt, hran]
        rfl
      · exact hpast.trans (hclock (by omega))
      · exact hlast.trans (hclock (by omega))
    -- a probe, which fails
    · rw [fn_of_ok h.length_attempts
        (CircuitBreaker.beginCall_of_elapsed hstate hat helapsed)]
      refine ⟨began_concat h true, ?_⟩
      rw [CircuitBreaker.recordFailure_of_halfOpen rfl]
      have hprobe : clock 0 + (probes + 1 : ℕ) * cb.cooldownS ≤ clock (2 * k) := by
        rw [hcooldown] at helapsed
        push_cast
        linarith
      refine .tripped (clock (2 * k + 1)) (probes + 1) rfl rfl hcooldown ?_ ?_ hnext hprobe
      · rw [invocations_attempt, hran]
        rfl
      · exact hprobe.trans (hclock (by omega))

/-- Before the first attempt a closed breaker below its threshold `Stands` at zero. -/
theorem stands_zero (hbelow : cb.failureCount < cb.failureThreshold) :
    Stands cb clock 0 ⟨cb, []⟩ :=
  ⟨rfl, .counting rfl rfl hbelow⟩

/-! ## Runs -/

variable {arith : DelayArithmetic D} {policy : RetryPolicy D}

/-- The loop makes `m + 1` attempts, and the delays between them can be computed. It raises what the
last attempt did if there are no more, and otherwise since the next delay cannot be computed. -/
structure EndsAfter (cb : CircuitBreaker) (clock : ℕ → ℚ) (failures : ℕ → PyExc)
    (arith : DelayArithmetic D) (policy : RetryPolicy D) (m : ℕ)
    (final : Except PyExc α × BreakerWorld) : Prop where
  stands : Stands cb clock (m + 1) final.2
  delays : ∀ j < m, ∃ d, delay arith policy j = .ok d
  raises : ((m : ℤ) + 1 = policy.maxAttempts ∧ final.1 = .error
      (if final.2.lastRan then failures (final.2.invocations - 1) else circuitOpen)) ∨
    ((m : ℤ) + 1 < policy.maxAttempts ∧
      ∃ e, delay arith policy m = .error e ∧ final.1 = .error e)

/-- `withRetry` around `throughBreaker` ends after some attempt as `EndsAfter` says, with the
breaker where `Stands` says it is then. -/
theorem withRetry_throughBreaker (α : Type) (arith : DelayArithmetic D) (policy : RetryPolicy D)
    (failures : ℕ → PyExc) (draws : ℕ → D → D) (hclock : Monotone clock)
    (hclosed : cb.state = .CLOSED) (hbelow : cb.failureCount < cb.failureThreshold)
    (hattempts : 1 ≤ policy.maxAttempts) :
    ∃ m, EndsAfter cb clock failures arith policy m
      (withRetry (throughBreaker clock failures draws : RetryEnv BreakerWorld D α) arith policy
        (fun _ => true) ⟨cb, []⟩) := by
  -- when attempt `k` begins, the breaker stands where `k` attempts have brought it
  obtain ⟨m, w, ⟨hstands, hdelays⟩, hend | hend⟩ := withRetry_spec
    (throughBreaker clock failures draws : RetryEnv BreakerWorld D α) arith (fun _ => true)
    (fun k w => Stands cb clock k w ∧ ∀ j < k, ∃ d, delay arith policy j = .ok d) ⟨cb, []⟩
    (fun k w exc d => by
      rintro ⟨hstands, hdelays⟩ - - hdelay
      refine ⟨?_, Nat.forall_lt_succ_right.mpr ⟨hdelays, d, hdelay⟩⟩
      have hpause (w : BreakerWorld) :
          pause (throughBreaker clock failures draws : RetryEnv BreakerWorld D α) policy d w = w :=
        ite_self _
      rw [hpause]
      exact stands_fn α failures draws hclock hclosed hstands)
    hattempts ⟨stands_zero hbelow, fun j hj => absurd hj (Nat.not_lt_zero j)⟩
  · refine ⟨m, ?_, hdelays, Or.inl ⟨hend.last ⟨_, fn_fst w, rfl⟩, ?_⟩⟩
    · rw [hend.eq]
      exact stands_fn α failures draws hclock hclosed hstands
    · rw [hend.eq]
      exact fn_fst w
  · obtain ⟨e, he, heq⟩ := hend.eq
    have hafter := stands_fn α failures draws hclock hclosed hstands
    refine ⟨m, ?_, hdelays, Or.inr ⟨hend.lt, e, he, by rw [heq]⟩⟩
    rw [heq]
    exact hafter

/-- A run that makes all its attempts shields the function: it is invoked no more often than the
threshold and the cooldowns that went by allow. -/
theorem shields_of_stands {m : ℕ} {final : Except PyExc α × BreakerWorld}
    (hcooldown : 0 < cb.cooldownS) (hclock : Monotone clock)
    (hstands : Stands cb clock (m + 1) final.2) (hall : (m : ℤ) + 1 = policy.maxAttempts)
    (hraised : final.1 = .error
      (if final.2.lastRan then failures (final.2.invocations - 1) else circuitOpen)) :
    Shields cb policy failures final := by
  have helapsed : 0 ≤ final.2.elapsed := by
    rw [hstands.elapsed, sub_nonneg]
    exact hclock (Nat.zero_le _)
  have hfloor : 0 ≤ ⌊final.2.elapsed / cb.cooldownS⌋ :=
    Int.floor_nonneg.mpr (div_nonneg helapsed hcooldown.le)
  have hle : final.2.invocations ≤ m + 1 :=
    (List.countP_le_length).trans_eq hstands.length_attempts
  cases hstands.phase with
  | counting hbreaker hran hbelow =>
    refine ⟨?_, fun _ => ?_, hraised⟩
    · rw [hran]
      omega
    · rw [hran]
      omega
  | tripped openedAt probes hstate hat hcd hran hopened hpast hlast =>
    rw [Nat.add_sub_cancel] at hlast
    have hprobes : (probes : ℚ) * cb.cooldownS ≤ final.2.elapsed := by
      rw [hstands.elapsed]
      linarith
    refine ⟨?_, fun hshort => ?_, hraised⟩
    · have hcount : (probes : ℤ) ≤ ⌊final.2.elapsed / cb.cooldownS⌋ := by
        rw [Int.le_floor, le_div_iff₀ hcooldown]
        exact_mod_cast hprobes
      rw [hran]
      push_cast
      omega
    -- a probe would have taken a cooldown
    · have hnone : probes = 0 := by
        by_contra hsome
        have hone : (1 : ℚ) ≤ probes := by exact_mod_cast Nat.one_le_iff_ne_zero.mpr hsome
        have hlong := le_mul_of_one_le_left hcooldown.le hone
        exact absurd (hprobes.trans_lt hshort) (not_lt.mpr hlong)
      rw [hnone, add_zero] at hran
      omega

/-- For every closed breaker with failures missing to its threshold and a positive cooldown that
nobody else uses, every clock that does not run backwards, every policy whose delays can be
computed, and all exceptions of the function: the breaker `Shields` the function. It runs as often
as failures are missing and then at most once for each cooldown that goes by, and the loop raises
what its last attempt raised. Without any attempt the loop raises `exhausted`, and nothing runs. -/
theorem withRetry_shielded (α : Type) (cb : CircuitBreaker) (arith : DelayArithmetic D)
    (policy : RetryPolicy D) (failures : ℕ → PyExc) (draws : ℕ → D → D)
    (hclosed : cb.state = .CLOSED) (hbelow : cb.failureCount < cb.failureThreshold)
    (hcooldown : 0 < cb.cooldownS) (hclock : Monotone clock)
    (hdelays : ∀ k : ℕ, (k : ℤ) + 1 < policy.maxAttempts → ∃ d, delay arith policy k = .ok d) :
    let final : Except PyExc α × BreakerWorld := withRetry (throughBreaker clock failures draws)
      arith policy (fun _ => true) ⟨cb, []⟩
    if policy.maxAttempts ≤ 0 then final = (.error exhausted, ⟨cb, []⟩)
    else Shields cb policy failures final := by
  intro final
  split_ifs with hnone
  · exact withRetry_of_le_zero hnone
  obtain ⟨m, hend⟩ := withRetry_throughBreaker α arith policy failures draws hclock hclosed hbelow
    (not_le.mp hnone)
  rcases hend.raises with ⟨hall, hraised⟩ | ⟨hlt, e, he, -⟩
  · exact shields_of_stands hcooldown hclock hend.stands hall hraised
  · obtain ⟨d, hd⟩ := hdelays m hlt
    exact absurd hd (Except.ne_ok_of_eq_error he d)

/-- A breaker that opens at the second failure, for ten seconds. -/
def twoFailures : CircuitBreaker := .init 2 10

/-- A clock that advances by a second. -/
def seconds (k : ℕ) : ℚ := k

theorem monotone_seconds : Monotone seconds := Nat.mono_cast

/-- `withRetry_shielded` for the default policy, a breaker that opens at the second failure, a
function that always times out and a clock that advances by a second. -/
theorem timeouts_shielded :
    Shields twoFailures defaultPolicy timeouts
      (withRetry (throughBreaker seconds timeouts fun _ d => d) exact defaultPolicy (fun _ => true)
        ⟨twoFailures, []⟩ : Except PyExc Unit × BreakerWorld) := by
  have h := withRetry_shielded Unit twoFailures exact defaultPolicy timeouts (fun _ d => d) rfl
    (by decide) (by norm_num [twoFailures, CircuitBreaker.init]) monotone_seconds
    fun k _ => ⟨_, delay_exact defaultPolicy k⟩
  exact (if_neg (by decide)).mp h

/-- Without attempts there is nothing to raise but the loop's own exception, `exhausted`; and where
a delay cannot be computed, after the 1025th failure, the loop raises an `OverflowError`. -/
theorem timeouts_not_shielded :
    (¬Shields twoFailures (attempts 0) timeouts
      (withRetry (throughBreaker seconds timeouts fun _ d => d) exact (attempts 0) (fun _ => true)
        ⟨twoFailures, []⟩ : Except PyExc Unit × BreakerWorld)) ∧
    ¬Shields twoFailures (attempts 1026) timeouts
      (withRetry (throughBreaker seconds timeouts fun _ d => d) bounded (attempts 1026)
        (fun _ => true) ⟨twoFailures, []⟩ : Except PyExc Unit × BreakerWorld) := by
  -- what else the loop may raise is neither the function's exception nor the breaker's
  have hother {exc : PyExc} {final : Except PyExc Unit × BreakerWorld} (policy : RetryPolicy ℚ)
      (hfinal : final.1 = .error exc) (htimeout : exc.type ≠ (timeouts 0).type)
      (hopen : exc.type ≠ circuitOpen.type) : ¬Shields twoFailures policy timeouts final := by
    intro h
    have hexc := Except.error.inj (hfinal.symm.trans h.raised)
    split_ifs at hexc
    · exact htimeout (congrArg PyExc.type hexc)
    · exact hopen (congrArg PyExc.type hexc)
  have hnone (env : RetryEnv BreakerWorld ℚ Unit) (w : BreakerWorld) :
      (withRetry env exact (attempts 0) (fun _ => true) w).1 = .error exhausted :=
    congrArg Prod.fst (withRetry_of_le_zero le_rfl)
  refine ⟨hother _ (hnone _ _) (by decide) (by decide), ?_⟩
  obtain ⟨m, hend⟩ := withRetry_throughBreaker Unit bounded (attempts 1026) timeouts (fun _ d => d)
    monotone_seconds (rfl : twoFailures.state = .CLOSED) (by decide) (by decide)
  rcases hend.raises with ⟨hall, -⟩ | ⟨-, e, he, hraised⟩
  · have hlimit := hend.delays 1024 (by
      have : (m : ℤ) + 1 = 1026 := hall
      omega)
    rw [exists_delay_iff_lt floatTimesInt_bounded _] at hlimit
    exact absurd hlimit (lt_irrefl _)
  · have hlarge : ¬m < 1024 := by
      rw [← exists_delay_iff_lt floatTimesInt_bounded (attempts 1026)]
      exact not_exists.mpr (Except.ne_ok_of_eq_error he)
    have hpow : floatLimit ≤ 2 ^ m := pow_le_pow_right₀ one_le_two (not_lt.mp hlarge)
    rw [delay, floatTimesInt_bounded.overflows _ _ hpow] at he
    obtain rfl := Except.error.inj he
    exact hother _ hraised (by decide) (by decide)

end Retry
