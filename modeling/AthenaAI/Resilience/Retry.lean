import AthenaAI.Python.Value
import AthenaAI.ToMathlib.Except
import AthenaAI.ToMathlib.List
import Mathlib.Algebra.Order.Field.Rat
import Mathlib.Data.ENat.Lattice
import Mathlib.Tactic.Positivity

/-!
# Retries

`athenai.resilience.retry`. `with_retry` calls a function until it returns, raises something that is
not to be retried, or has been called `maxAttempts` times, and sleeps before every further call.

* `RetryEnv` is what the loop meets: the function, the random number generator and the event loop,
  all with a state. `DelayArithmetic` is the arithmetic on delays, which may raise.
* `withRetry_spec`: how the loop ends, for every environment and every arithmetic; what holds when
  an attempt begins is carried along by an invariant.
* `withRetry_script_spec`: the same where the function ends as a script says.
* `withRetry_scripted`: and if delays are exact, the number of calls, the outcome and the sleeps are
  as documented.
-/

/-- The retry configuration. -/
structure RetryPolicy (D : Type) where
  /-- How often the function is called at most. -/
  maxAttempts : ℤ := 3
  /-- The delay after the first call. -/
  baseDelayS : D
  /-- The cap of all delays. -/
  maxDelayS : D
  /-- Delays are drawn at random, up to the computed one. -/
  jitter : Bool := true

/-- The arithmetic on delays. -/
structure DelayArithmetic (D : Type) where
  /-- `delay * n` for an integer `n`. -/
  timesInt : D → ℤ → Except PyExc D
  /-- `x < y`. -/
  lt : D → D → Bool

/-- What `with_retry` meets, with a state `W`. -/
structure RetryEnv (W D α : Type) where
  /-- `await fn()`. -/
  fn : W → Except PyExc α × W
  /-- `random.uniform(0, delay)`. -/
  uniform : D → W → D × W
  /-- `await asyncio.sleep(delay)`. -/
  sleep : D → W → W

namespace Retry

variable {W D α : Type}

/-- `min(policy.base_delay_s * (2**attempt), policy.max_delay_s)`. -/
def delay (arith : DelayArithmetic D) (policy : RetryPolicy D) (attempt : ℕ) : Except PyExc D := do
  let scaled ← arith.timesInt policy.baseDelayS (2 ^ attempt)
  -- `min` returns its first argument unless the second one is smaller
  return if arith.lt policy.maxDelayS scaled then policy.maxDelayS else scaled

/-- What happens between two calls: the delay is drawn, if it is to be, and slept. -/
def pause (env : RetryEnv W D α) (policy : RetryPolicy D) (delay : D) (w : W) : W :=
  if policy.jitter then
    let (drawn, w) := env.uniform delay w
    env.sleep drawn w
  else env.sleep delay w

/-- The exception for a policy without attempts. -/
def exhausted : PyExc :=
  .of .RuntimeError "with_retry exhausted without exception".toList

/-- The loop, with `left` passes to go before pass `attempt`. -/
def retryFrom (env : RetryEnv W D α) (arith : DelayArithmetic D) (policy : RetryPolicy D)
    (retryable : PyExc → Bool) :
    (left attempt : ℕ) → (lastExc : Option PyExc) → W → Except PyExc α × W
  -- `raise last_exc or RuntimeError(...)`: an exception counts as true
  | 0, _, lastExc, w => (.error (lastExc.getD exhausted), w)
  | left + 1, attempt, _, w =>
    match env.fn w with
    | (.ok a, w) => (.ok a, w)
    | (.error exc, w) =>
      -- `except retryable` does not see other exceptions
      if !retryable exc then (.error exc, w)
      -- `break`, and the last exception is raised
      else if (attempt : ℤ) = policy.maxAttempts - 1 then (.error exc, w)
      else
        match delay arith policy attempt with
        | .error e => (.error e, w)
        | .ok delay => retryFrom env arith policy retryable left (attempt + 1) (some exc)
            (pause env policy delay w)

/-- `with_retry`. -/
def withRetry (env : RetryEnv W D α) (arith : DelayArithmetic D) (policy : RetryPolicy D)
    (retryable : PyExc → Bool) (w : W) : Except PyExc α × W :=
  retryFrom env arith policy retryable policy.maxAttempts.toNat 0 none w

/-- The outcome of a call is an exception that is to be retried. -/
def Retries (retryable : PyExc → Bool) (outcome : Except PyExc α) : Prop :=
  ∃ exc, outcome = .error exc ∧ retryable exc

/-! ## How the loop ends -/

variable {env : RetryEnv W D α} {arith : DelayArithmetic D} {policy : RetryPolicy D}
  {retryable : PyExc → Bool} {P : ℕ → W → Prop} {w : W}

/-- The loop ends in attempt `m`, which begins in the state `w`, with the outcome of the call; this
was not to be retried, or there are no attempts left. -/
structure EndsWithCall (env : RetryEnv W D α) (policy : RetryPolicy D)
    (retryable : PyExc → Bool) (final : Except PyExc α × W) (m : ℕ) (w : W) : Prop where
  lt : (m : ℤ) < policy.maxAttempts
  eq : final = env.fn w
  last : Retries retryable (env.fn w).1 → (m : ℤ) + 1 = policy.maxAttempts

/-- The loop ends in attempt `m`, which begins in the state `w`, since the delay cannot be
computed. -/
structure EndsWithDelay (env : RetryEnv W D α) (arith : DelayArithmetic D) (policy : RetryPolicy D)
    (retryable : PyExc → Bool) (final : Except PyExc α × W) (m : ℕ) (w : W) : Prop where
  lt : (m : ℤ) + 1 < policy.maxAttempts
  retries : Retries retryable (env.fn w).1
  eq : ∃ e, delay arith policy m = .error e ∧ final = (.error e, (env.fn w).2)

/-- If a property of the states in which attempts begin is carried from each one to the next, then
the loop ends in an attempt that begins in a state with the property. -/
theorem retryFrom_spec
    (hstep : ∀ k w exc d, P k w → (env.fn w).1 = .error exc → retryable exc →
      delay arith policy k = .ok d → P (k + 1) (pause env policy d (env.fn w).2))
    {left attempt : ℕ} {lastExc : Option PyExc} (hleft : 0 < left)
    (hcount : (attempt : ℤ) + left = policy.maxAttempts) (hw : P attempt w) :
    ∃ m w', P m w' ∧
      (EndsWithCall env policy retryable
          (retryFrom env arith policy retryable left attempt lastExc w) m w' ∨
        EndsWithDelay env arith policy retryable
          (retryFrom env arith policy retryable left attempt lastExc w) m w') := by
  induction left generalizing attempt lastExc w with
  | zero => exact absurd hleft (lt_irrefl 0)
  | succ left ih =>
    have hlt : (attempt : ℤ) < policy.maxAttempts := by omega
    rcases hcall : env.fn w with ⟨exc | a, w'⟩
    swap
    -- the call returns
    · refine ⟨attempt, w, hw, Or.inl ⟨hlt, by rw [retryFrom, hcall], ?_⟩⟩
      rintro ⟨exc, hexc, -⟩
      rw [hcall] at hexc
      exact nomatch hexc
    by_cases hretry : retryable exc = true
    swap
    -- it raises something else
    · refine ⟨attempt, w, hw, Or.inl ⟨hlt, by simp [retryFrom, hcall, hretry], ?_⟩⟩
      rintro ⟨exc', hexc, hretry'⟩
      rw [hcall] at hexc
      obtain rfl := Except.error.inj hexc
      exact absurd hretry' hretry
    have hretries : Retries retryable (env.fn w).1 := ⟨exc, by rw [hcall], hretry⟩
    by_cases hlast : (attempt : ℤ) = policy.maxAttempts - 1
    -- there are no attempts left
    · exact ⟨attempt, w, hw, Or.inl ⟨hlt, by simp [retryFrom, hcall, hretry, hlast],
        fun _ => by omega⟩⟩
    cases hdelay : delay arith policy attempt with
    | error e =>
      refine ⟨attempt, w, hw, Or.inr ⟨by omega, hretries, e, hdelay, ?_⟩⟩
      simp [retryFrom, hcall, hretry, hlast, hdelay]
    | ok d =>
      have hnext : retryFrom env arith policy retryable (left + 1) attempt lastExc w =
          retryFrom env arith policy retryable left (attempt + 1) (some exc)
            (pause env policy d w') := by
        simp [retryFrom, hcall, hretry, hlast, hdelay]
      have hkeep := hstep attempt w exc d hw (by rw [hcall]) hretry hdelay
      rw [hcall] at hkeep
      rw [hnext]
      exact ih (by omega) (by push_cast; omega) hkeep

/-- The rule for `withRetry`: if `P` holds at first and every failing attempt that is retried keeps
it, the loop ends in an attempt that begins in a state with `P`. -/
theorem withRetry_spec (env : RetryEnv W D α) (arith : DelayArithmetic D)
    (retryable : PyExc → Bool) (P : ℕ → W → Prop) (w : W)
    (hstep : ∀ k w exc d, P k w → (env.fn w).1 = .error exc → retryable exc →
      delay arith policy k = .ok d → P (k + 1) (pause env policy d (env.fn w).2))
    (hattempts : 1 ≤ policy.maxAttempts) (hw : P 0 w) :
    ∃ m w', P m w' ∧
      (EndsWithCall env policy retryable (withRetry env arith policy retryable w) m w' ∨
        EndsWithDelay env arith policy retryable (withRetry env arith policy retryable w) m w') :=
  retryFrom_spec hstep (by omega) (by push_cast; omega) hw

/-- With `max_attempts` at most zero the function is never called, and the loop ends in the
`RuntimeError` behind it. -/
theorem withRetry_of_le_zero (hattempts : policy.maxAttempts ≤ 0) :
    withRetry env arith policy retryable w = (.error exhausted, w) := by
  rw [withRetry, Int.toNat_of_nonpos hattempts]
  rfl

/-! ## Scripts -/

/-- What the loop does. -/
inductive RetryEvent (D : Type) where
  | invoked
  | slept (delay : D)

/-- The number of calls. -/
def invocations (log : List (RetryEvent D)) : ℕ :=
  log.countP fun | .invoked => true | .slept _ => false

/-- The number of sleeps. -/
def sleeps (log : List (RetryEvent D)) : ℕ :=
  log.countP fun | .invoked => false | .slept _ => true

/-- The environment in which the calls end as `outcomes` says, in this order, and `draws k` is the
`k`-th draw. Its state is the log of what the loop has done. -/
def scripted (outcomes : ℕ → Except PyExc α) (draws : ℕ → D → D) :
    RetryEnv (List (RetryEvent D)) D α where
  fn log := (outcomes (invocations log), log ++ [.invoked])
  uniform delay log := (draws (sleeps log) delay, log)
  sleep delay log := log ++ [.slept delay]

/-- A call before each of the sleeps. -/
def alternating (delays : List D) : List (RetryEvent D) :=
  delays.flatMap fun delay => [.invoked, .slept delay]

section Scripted

variable {outcomes : ℕ → Except PyExc α} {draws : ℕ → D → D}

theorem invocations_alternating (delays : List D) :
    invocations (alternating delays) = delays.length := by
  induction delays with
  | nil => rfl
  | cons d delays ih =>
    rw [alternating, List.flatMap_cons, invocations, List.countP_append, List.length_cons, ← ih]
    exact Nat.add_comm _ _

theorem sleeps_alternating (delays : List D) : sleeps (alternating delays) = delays.length := by
  induction delays with
  | nil => rfl
  | cons d delays ih =>
    rw [alternating, List.flatMap_cons, sleeps, List.countP_append, List.length_cons, ← ih]
    exact Nat.add_comm _ _

/-- In the `scripted` environment a call after some sleeps has the outcome of its number and puts
itself on the record. -/
theorem fn_scripted (delays : List D) :
    (scripted outcomes draws).fn (alternating delays) =
      (outcomes delays.length, alternating delays ++ [.invoked]) := by
  show (outcomes (invocations (alternating delays)), _) = _
  rw [invocations_alternating]

theorem invocations_concat (delays : List D) :
    invocations (alternating delays ++ [.invoked]) = delays.length + 1 := by
  rw [invocations, List.countP_append]
  exact congrArg (· + 1) (invocations_alternating delays)

/-- In the `scripted` environment a sleep puts its length on the record: the drawn one with
`jitter`, and the full delay without. -/
theorem pause_scripted (policy : RetryPolicy D) (delays : List D) (d : D) :
    pause (scripted outcomes draws) policy d (alternating delays ++ [.invoked]) =
      alternating (delays ++ [if policy.jitter then draws delays.length d else d]) := by
  have hsleeps : sleeps (alternating delays ++ [.invoked]) = delays.length := by
    rw [sleeps, List.countP_append]
    exact sleeps_alternating delays
  have halternating (d : D) : alternating delays ++ [.invoked] ++ [.slept d] =
      alternating (delays ++ [d]) := by
    rw [alternating, alternating, List.flatMap_append, List.flatMap_singleton, List.append_assoc]
    rfl
  rw [pause]
  split_ifs with hjitter
  · simp only [scripted, hsleeps]
    exact halternating _
  · exact halternating d

/-- The rule for scripts: if a property of the delays slept so far is carried from each attempt to
the next, then the loop ends in an attempt before which the delays have the property. -/
theorem withRetry_script_spec (outcomes : ℕ → Except PyExc α) (draws : ℕ → D → D)
    (arith : DelayArithmetic D) (retryable : PyExc → Bool) (Q : List D → Prop)
    (hstep : ∀ delays d, Q delays → Retries retryable (outcomes delays.length) →
      delay arith policy delays.length = .ok d →
      Q (delays ++ [if policy.jitter then draws delays.length d else d]))
    (hattempts : 1 ≤ policy.maxAttempts) (hnil : Q []) :
    let final := withRetry (scripted outcomes draws) arith policy retryable []
    ∃ delays, Q delays ∧
      (EndsWithCall (scripted outcomes draws) policy retryable final delays.length
          (alternating delays) ∨
        EndsWithDelay (scripted outcomes draws) arith policy retryable final delays.length
          (alternating delays)) := by
  obtain ⟨m, w, ⟨delays, rfl, rfl, hdelays⟩, hend⟩ := withRetry_spec (scripted outcomes draws) arith
    retryable (fun k w => ∃ delays, delays.length = k ∧ w = alternating delays ∧ Q delays) []
    (fun k w exc d => by
      rintro ⟨delays, rfl, rfl, hdelays⟩ hexc hretry hdelay
      rw [fn_scripted] at hexc
      have hnext := hstep delays d hdelays ⟨exc, hexc, hretry⟩ hdelay
      refine ⟨_, List.length_append, ?_, hnext⟩
      rw [fn_scripted, pause_scripted])
    hattempts ⟨[], rfl, rfl, hnil⟩
  exact ⟨delays, hdelays, hend⟩

end Scripted

/-! ## Exact delays -/

/-- The arithmetic of rational numbers. -/
def exact : DelayArithmetic ℚ where
  timesInt d n := .ok (d * n)
  lt x y := x < y

/-- In exact arithmetic the delay after attempt `k` is `min(base * 2 ** k, max)`, and nothing
overflows. -/
theorem delay_exact (policy : RetryPolicy ℚ) (attempt : ℕ) :
    delay exact policy attempt =
      .ok (min (policy.baseDelayS * 2 ^ attempt) policy.maxDelayS) := by
  have hscaled : exact.timesInt policy.baseDelayS (2 ^ attempt) =
      .ok (policy.baseDelayS * 2 ^ attempt) := by
    rw [exact]
    push_cast
    rfl
  rw [delay, hscaled]
  refine congrArg Except.ok ?_
  show (if exact.lt _ _ = true then _ else _) = _
  rw [exact]
  simp only [decide_eq_true_eq]
  split_ifs with hlt
  · exact (min_eq_right hlt.le).symm
  · exact (min_eq_left (not_lt.mp hlt)).symm

/-- The number of the first call whose outcome is not to be retried, counted from one. -/
noncomputable def firstFinal (retryable : PyExc → Bool) (outcomes : ℕ → Except PyExc α) : ℕ∞ :=
  ⨅ (i : ℕ) (_ : ¬Retries retryable (outcomes i)), ((i + 1 : ℕ) : ℕ∞)

/-- The delay before call `k + 1` is no longer than documented, and as long if it is not drawn. -/
def Bounded (policy : RetryPolicy ℚ) (delays : List ℚ) : Prop :=
  ∀ k d, delays[k]? = some d →
    0 ≤ d ∧ d ≤ min (policy.baseDelayS * 2 ^ k) policy.maxDelayS ∧
      (policy.jitter = false → d = min (policy.baseDelayS * 2 ^ k) policy.maxDelayS)

/-- The documented behaviour: how often the function is called, what comes of it, and when and how
long the loop sleeps. -/
structure Specified (policy : RetryPolicy ℚ) (retryable : PyExc → Bool)
    (outcomes : ℕ → Except PyExc α) (final : Except PyExc α × List (RetryEvent ℚ)) : Prop where
  invocations : (invocations final.2 : ℕ∞) =
    min (firstFinal retryable outcomes) (policy.maxAttempts.toNat : ℕ∞)
  /-- It returns or raises what the last call did. -/
  outcome : ∃ last, Retry.invocations final.2 = last + 1 ∧ final.1 = outcomes last
  /-- It sleeps once between two calls. -/
  sleeps : ∃ delays, final.2 = alternating delays ++ [.invoked] ∧ Bounded policy delays

/-- The loop ends with the `firstFinal` outcome, the first one that is not to be retried, or with
the last attempt, whichever comes first. -/
theorem eq_min_firstFinal {outcomes : ℕ → Except PyExc α} {m maxAttempts : ℕ}
    (hretries : ∀ k < m, Retries retryable (outcomes k)) (hlt : m < maxAttempts)
    (hlast : Retries retryable (outcomes m) → m + 1 = maxAttempts) :
    ((m + 1 : ℕ) : ℕ∞) = min (firstFinal retryable outcomes) (maxAttempts : ℕ∞) := by
  refine le_antisymm (le_min ?_ (Nat.cast_le.mpr hlt)) ?_
  · refine le_iInf₂ fun i hi => Nat.cast_le.mpr (Nat.succ_le_succ ?_)
    by_contra hearlier
    exact hi (hretries i (not_le.mp hearlier))
  · by_cases hm : Retries retryable (outcomes m)
    · rw [hlast hm]
      exact min_le_right _ _
    · exact (min_le_left _ _).trans (iInf₂_le m hm)

/-- A further sleep, drawn or not, keeps the delays `Bounded`: it is no longer than its exponential
bound and never negative. -/
theorem bounded_concat {policy : RetryPolicy ℚ} {draws : ℕ → ℚ → ℚ} {delays : List ℚ}
    (hbase : 0 ≤ policy.baseDelayS) (hmax : 0 ≤ policy.maxDelayS)
    (hdraws : ∀ k d, 0 ≤ d → 0 ≤ draws k d ∧ draws k d ≤ d) (h : Bounded policy delays) :
    let d := min (policy.baseDelayS * 2 ^ delays.length) policy.maxDelayS
    Bounded policy (delays ++ [if policy.jitter then draws delays.length d else d]) := by
  intro d k d' hd'
  have hd : 0 ≤ d := le_min (mul_nonneg hbase (pow_nonneg zero_le_two _)) hmax
  rcases List.getElem?_concat_eq_some_iff.mp hd' with hold | ⟨rfl, rfl⟩
  · exact h k d' hold
  · split_ifs with hjitter
    · obtain ⟨hzero, hle⟩ := hdraws delays.length d hd
      exact ⟨hzero, hle, fun hfalse => absurd (hjitter.symm.trans hfalse) nofun⟩
    · exact ⟨hd, le_rfl, fun _ => rfl⟩

/-- For every script of outcomes, every policy with an attempt and delays that are not negative, and
all draws between zero and the delay, the loop is as `Specified`: the function is called as often as
documented, its last outcome is that of the loop, and the loop sleeps once between two calls, no
longer than documented. The environment is `scripted`, and the arithmetic of the delays exact. -/
theorem withRetry_scripted (policy : RetryPolicy ℚ) (retryable : PyExc → Bool)
    (outcomes : ℕ → Except PyExc α) {draws : ℕ → ℚ → ℚ} (hattempts : 1 ≤ policy.maxAttempts)
    (hbase : 0 ≤ policy.baseDelayS) (hmax : 0 ≤ policy.maxDelayS)
    (hdraws : ∀ k d, 0 ≤ d → 0 ≤ draws k d ∧ draws k d ≤ d) :
    Specified policy retryable outcomes
      (withRetry (scripted outcomes draws) exact policy retryable []) := by
  -- the calls before an attempt were to be retried, and have been slept after
  obtain ⟨delays, ⟨hretries, hbounded⟩, hend | hend⟩ := withRetry_script_spec outcomes draws exact
    retryable
    (fun delays => (∀ j < delays.length, Retries retryable (outcomes j)) ∧ Bounded policy delays)
    (fun delays d => by
      rintro ⟨hretries, hbounded⟩ hretry hdelay
      rw [delay_exact] at hdelay
      obtain rfl := Except.ok.inj hdelay
      refine ⟨?_, bounded_concat hbase hmax hdraws hbounded⟩
      rw [List.length_append]
      exact Nat.forall_lt_succ_right.mpr ⟨hretries, hretry⟩)
    hattempts ⟨fun j hj => absurd hj (Nat.not_lt_zero j), fun k d hd => by simp at hd⟩
  · obtain ⟨hlt, heq, hlast⟩ := hend
    rw [fn_scripted] at heq hlast
    rw [heq]
    refine ⟨?_, ⟨delays.length, invocations_concat delays, rfl⟩, delays, rfl, hbounded⟩
    rw [invocations_concat]
    exact eq_min_firstFinal hretries (by omega) fun h => by
      have := hlast h
      omega
  · obtain ⟨e, he, -⟩ := hend.eq
    rw [delay_exact] at he
    exact nomatch he

/-- A call that times out, and one that returns. -/
def timeoutThenOk (k : ℕ) : Except PyExc ℕ :=
  if k = 0 then .error (.of (.other "TimeoutError".toList) []) else .ok k

/-- The default policy. -/
def defaultPolicy : RetryPolicy ℚ where
  baseDelayS := 1 / 2
  maxDelayS := 30

/-- `withRetry_scripted` for the default policy, a timeout and then a result, with every draw in the
middle: two calls, and one sleep between them. -/
theorem withRetry_timeoutThenOk :
    Specified defaultPolicy (fun _ => true) timeoutThenOk
      (withRetry (scripted timeoutThenOk fun _ d => d / 2) exact defaultPolicy (fun _ => true)
        []) :=
  withRetry_scripted defaultPolicy _ timeoutThenOk (by decide) (by norm_num [defaultPolicy])
    (by norm_num [defaultPolicy]) fun _ d hd => ⟨by positivity, half_le_self hd⟩

end Retry
