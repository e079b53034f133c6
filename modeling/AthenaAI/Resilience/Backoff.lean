import AthenaAI.Resilience.Retry

/-!
# The delays of a long retry loop

The delay before a retry is a `float` times the `int` `2**attempt`, and the cap comes after the
multiplication. Python converts the `int` to a `float` first, and raises an `OverflowError` if it is
too large.

* `EndsWithLast` says that a loop raises the last exception of its function, and not one of a delay.
  `endsWithLast_iff`: around a function that always fails it does so exactly if every delay that it
  comes to can be computed.
* `FloatTimesInt` is what is known of the multiplication of a `float` and an `int`: the powers of
  two below `floatLimit` have a product, and from there on it raises.
* `endsWithLast_iff_le`: with floats this means at least one attempt and at most 1025.
-/

namespace Retry

variable {D α : Type} {arith : DelayArithmetic D} {policy : RetryPolicy D}
  {retryable : PyExc → Bool} {failures : ℕ → PyExc} {draws : ℕ → D → D}

/-- The least power of two that is too large for a `float`. -/
def floatLimit : ℤ := 2 ^ 1024

/-- Python's product of a `float` and a power of two: it is a `float` up to `2**1023`, and an
`OverflowError` from `2**1024` on. -/
structure FloatTimesInt (arith : DelayArithmetic D) : Prop where
  fits : ∀ d, ∀ k < 1024, ∃ product, arith.timesInt d (2 ^ k) = .ok product
  overflows : ∀ d n, floatLimit ≤ n →
    arith.timesInt d n =
      .error (.of (.other "OverflowError".toList) "int too large to convert to float".toList)

/-- The loop raises the last exception of the function, and no delay that it comes to raises
another one. -/
structure EndsWithLast (arith : DelayArithmetic D) (policy : RetryPolicy D) (failures : ℕ → PyExc)
    (final : Except PyExc α × List (RetryEvent D)) : Prop where
  raises : ∃ last, invocations final.2 = last + 1 ∧ final.1 = .error (failures last)
  delays : ∀ k < invocations final.2, (k : ℤ) + 1 < policy.maxAttempts →
    ∃ d, delay arith policy k = .ok d

/-- A loop around a function that always fails ends with the last exception of the function exactly
if it makes an attempt and all delays between its attempts can be computed. -/
theorem endsWithLast_iff (hretry : ∀ k, retryable (failures k)) :
    EndsWithLast arith policy failures
        (withRetry (scripted (fun k => (.error (failures k) : Except PyExc α)) draws) arith policy
          retryable []) ↔
      1 ≤ policy.maxAttempts ∧
        ∀ k : ℕ, (k : ℤ) + 1 < policy.maxAttempts → ∃ d, delay arith policy k = .ok d := by
  rcases le_or_gt policy.maxAttempts 0 with hnone | hattempts
  -- the function is not called
  · rw [withRetry_of_le_zero hnone]
    refine iff_of_false ?_ fun h => absurd h.1 (by omega)
    rintro ⟨⟨last, hlast, -⟩, -⟩
    exact nomatch hlast
  have hretries (k : ℕ) : Retries retryable (.error (failures k) : Except PyExc α) :=
    ⟨failures k, rfl, hretry k⟩
  -- the delays before an attempt have been computed
  obtain ⟨delays, hdelays, hend | hend⟩ := withRetry_script_spec
    (fun k => (.error (failures k) : Except PyExc α)) draws arith retryable
    (fun delays => ∀ j < delays.length, ∃ d, delay arith policy j = .ok d)
    (fun delays d hdelays _ hdelay => by
      rw [List.length_append]
      exact Nat.forall_lt_succ_right.mpr ⟨hdelays, d, hdelay⟩)
    (by omega) fun j hj => absurd hj (Nat.not_lt_zero j)
  · obtain ⟨hlt, heq, hlast⟩ := hend
    rw [fn_scripted] at heq hlast
    have hcount : (delays.length : ℤ) + 1 = policy.maxAttempts := hlast (hretries _)
    have hall : ∀ k : ℕ, (k : ℤ) + 1 < policy.maxAttempts → ∃ d, delay arith policy k = .ok d :=
      fun k hk => hdelays k (by omega)
    rw [heq]
    exact iff_of_true ⟨⟨delays.length, invocations_concat delays, rfl⟩, fun k _ => hall k⟩
      ⟨by omega, hall⟩
  -- the delay after attempt `m` cannot be computed
  · obtain ⟨e, he, heq⟩ := hend.eq
    rw [fn_scripted] at heq
    have hraises : ¬∃ d, delay arith policy delays.length = .ok d :=
      not_exists.mpr (Except.ne_ok_of_eq_error he)
    refine iff_of_false (fun h => hraises ?_) fun h => hraises (h.2 _ hend.lt)
    refine h.delays _ ?_ hend.lt
    rw [heq, invocations_concat]
    exact Nat.lt_succ_self _

/-- `delay` has a value for attempt `k` exactly if the product of `base_delay_s` and `2 ** k` has
one: taking the minimum with `max_delay_s` raises nothing. -/
theorem exists_delay_iff {k : ℕ} :
    (∃ d, delay arith policy k = .ok d) ↔
      ∃ product, arith.timesInt policy.baseDelayS (2 ^ k) = .ok product := by
  simp only [delay, Except.bind_eq_ok_iff]
  constructor
  · rintro ⟨_, product, hproduct, -⟩
    exact ⟨product, hproduct⟩
  · rintro ⟨product, hproduct⟩
    exact ⟨_, product, hproduct, rfl⟩

/-- With floats the delays that can be computed are those of the attempts below 1024: `2 ** 1024` is
the first factor that no float holds. -/
theorem exists_delay_iff_lt (hfloat : FloatTimesInt arith) (policy : RetryPolicy D) {k : ℕ} :
    (∃ d, delay arith policy k = .ok d) ↔ k < 1024 := by
  rw [exists_delay_iff]
  refine ⟨fun ⟨product, hproduct⟩ => ?_, hfloat.fits _ k⟩
  by_contra hlarge
  have hpow : floatLimit ≤ 2 ^ k := pow_le_pow_right₀ one_le_two (not_lt.mp hlarge)
  exact Except.ne_ok_of_eq_error (hfloat.overflows policy.baseDelayS _ hpow) product hproduct

/-- For every policy with floats, every sequence of exceptions that are to be retried and all draws:
the loop raises the function's last exception and computes all its delays (`EndsWithLast`), if and
only if it has at least one attempt and at most 1025. The delay after attempt `k` is computed from
the integer `2 ** k`, and `2 ** 1024` has no float. -/
theorem endsWithLast_iff_le (hfloat : FloatTimesInt arith)
    (hretry : ∀ k, retryable (failures k)) :
    EndsWithLast arith policy failures
        (withRetry (scripted (fun k => (.error (failures k) : Except PyExc α)) draws) arith policy
          retryable []) ↔
      1 ≤ policy.maxAttempts ∧ policy.maxAttempts ≤ 1025 := by
  rw [endsWithLast_iff hretry]
  refine and_congr_right fun _ => ?_
  simp only [exists_delay_iff_lt hfloat policy]
  constructor
  · intro hall
    by_contra hlarge
    exact absurd (hall 1024 (by push_cast; omega)) (lt_irrefl _)
  · intro hle k hk
    omega

/-- Exact products in place of the floats, up to the largest power of two that a `float` can be. -/
def bounded : DelayArithmetic ℚ where
  timesInt d n :=
    if n < floatLimit then .ok (d * n)
    else .error (.of (.other "OverflowError".toList) "int too large to convert to float".toList)
  lt x y := x < y

/-- Floats with a largest number, as `FloatTimesInt` describes them: an integer that is too large
for one raises in the product. -/
theorem floatTimesInt_bounded : FloatTimesInt bounded where
  fits d k hk := by
    have hpow : (2 : ℤ) ^ k < floatLimit := pow_lt_pow_right₀ one_lt_two hk
    simp only [bounded, hpow, if_true, Except.ok.injEq, exists_eq']
  overflows d n hn := by
    simp only [bounded, not_lt.mpr hn, if_false]

/-- A call that always times out. -/
def timeouts (_ : ℕ) : PyExc := .of (.other "TimeoutError".toList) []

/-- The default policy with other numbers of attempts. -/
def attempts (n : ℤ) : RetryPolicy ℚ := { defaultPolicy with maxAttempts := n }

/-- With 1026 attempts the last exception is lost: the delay after the 1025th failure cannot be
computed, and its `OverflowError` leaves the loop in place of the function's exception. -/
theorem timeouts_lost :
    ¬EndsWithLast bounded (attempts 1026) timeouts
      (withRetry (scripted (fun k => (.error (timeouts k) : Except PyExc Unit)) fun _ d => d)
        bounded (attempts 1026) (fun _ => true) []) := by
  rw [endsWithLast_iff fun _ => rfl]
  intro h
  have hdelay := h.2 1024 (by decide)
  rw [exists_delay_iff_lt floatTimesInt_bounded _] at hdelay
  exact absurd hdelay (lt_irrefl _)

/-- `endsWithLast_iff_le` for three attempts with arithmetic that overflows: both delays are
computed, and the third exception is raised. -/
theorem timeouts_raised :
    EndsWithLast bounded (attempts 3) timeouts
      (withRetry (scripted (fun k => (.error (timeouts k) : Except PyExc Unit)) fun _ d => d)
        bounded (attempts 3) (fun _ => true) []) :=
  (endsWithLast_iff_le floatTimesInt_bounded fun _ => rfl).mpr ⟨by decide, by decide⟩

end Retry
