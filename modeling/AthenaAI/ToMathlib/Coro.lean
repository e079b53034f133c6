import Mathlib.Data.Nat.Notation
import Mathlib.Tactic.TypeStar

/-!
# Coroutines

A coroutine computes until it awaits an operation of its environment; it is resumed with the answer
of the operation or with the exception the operation raised. Everything between two `await`s happens
at once.

* `Coro Op Resp Exc α` are the coroutines that return an `α`, with operations `op : Op` answered by
  a `Resp op`. They form a monad.
* `Coro.attempt` catches the exceptions of a coroutine: what `try` and `finally` are made of.
* `Handler S` is an environment with state `S`. `Coro.run` runs a coroutine in it to the end,
  `Coro.resume` up to the next `await`.
* `Handler.faulty` is an environment whose operations may raise, before or after they have had their
  effect, as a list of faults prescribes.
* `Coro.trace` are the operations of a run with their outcomes, in order.
* `Coro.awaited` counts the operations of a run. A coroutine that catches no exception returns
  exactly if none of them fails and it returns without faults (`Coro.Uncaught.isOk_run_faulty_iff`).
* `Coro.Awaits.run_faulty`: what the operations of a coroutine keep, holds after its run, whatever
  fails.
* `Coro.via` is a coroutine with its operations among others.
* `Coro.failing` and `Handler.failing`: where several coroutines share an environment, each brings
  along the faults of its own operations. One that has the environment to itself runs as under
  `Handler.faulty` (`Coro.run_failing`).
-/

/-- A coroutine: it returns, raises, or awaits an operation and goes on with its outcome. -/
inductive Coro (Op : Type) (Resp : Op → Type) (Exc α : Type) : Type where
  | ret (a : α)
  | raise (e : Exc)
  | await (op : Op) (next : Except Exc (Resp op) → Coro Op Resp Exc α)

/-- An environment with state `S`: the outcome of each operation and the state after it. -/
abbrev Handler (Op : Type) (Resp : Op → Type) (Exc S : Type) : Type :=
  (op : Op) → S → Except Exc (Resp op) × S

namespace Coro

variable {Op : Type} {Resp : Op → Type} {Exc α β S : Type}

/-- First `c`, then `f` with what `c` returns. -/
def bind : Coro Op Resp Exc α → (α → Coro Op Resp Exc β) → Coro Op Resp Exc β
  | .ret a, f => f a
  | .raise e, _ => .raise e
  | .await op next, f => .await op fun r => (next r).bind f

instance : Monad (Coro Op Resp Exc) where
  pure := .ret
  bind := Coro.bind

/-- The coroutine that raises if `x` is an exception. -/
def ofExcept : Except Exc α → Coro Op Resp Exc α
  | .ok a => .ret a
  | .error e => .raise e

/-- The continuation that goes on with `f` after an answer and passes an exception on. -/
def onOk (f : α → Coro Op Resp Exc β) : Except Exc α → Coro Op Resp Exc β
  | .ok a => f a
  | .error e => .raise e

/-- The coroutine that awaits one operation and returns its answer. -/
def perform (op : Op) : Coro Op Resp Exc (Resp op) := .await op ofExcept

/-- The equations of the operations on computations, one for each constructor. -/
@[simp]
theorem onOk_ok (f : α → Coro Op Resp Exc β) (a : α) : onOk f (.ok a) = f a := rfl

@[simp]
theorem onOk_error (f : α → Coro Op Resp Exc β) (e : Exc) : onOk f (.error e) = .raise e := rfl

@[simp]
theorem ret_bind (a : α) (f : α → Coro Op Resp Exc β) : (Coro.ret a >>= f) = f a := rfl

@[simp]
theorem raise_bind (e : Exc) (f : α → Coro Op Resp Exc β) :
    (Coro.raise e >>= f) = Coro.raise e := rfl

@[simp]
theorem await_bind (op : Op) (next : Except Exc (Resp op) → Coro Op Resp Exc α)
    (f : α → Coro Op Resp Exc β) :
    (Coro.await op next >>= f) = Coro.await op fun r => next r >>= f := rfl

/-- The outcome of `c`, which no longer ends the computation if it is an exception. -/
def attempt : Coro Op Resp Exc α → Coro Op Resp Exc (Except Exc α)
  | .ret a => .ret (.ok a)
  | .raise e => .ret (.error e)
  | .await op next => .await op fun r => (next r).attempt

theorem perform_bind (op : Op) (f : Resp op → Coro Op Resp Exc β) :
    (perform op >>= f) = Coro.await op (onOk f) := by
  refine congrArg (Coro.await op) (funext fun r => ?_)
  cases r <;> rfl

/-! ## Running to the end -/

/-- The outcome of a coroutine that has the environment to itself, and the state it leaves. -/
def run (h : Handler Op Resp Exc S) : Coro Op Resp Exc α → S → Except Exc α × S
  | .ret a, s => (.ok a, s)
  | .raise e, s => (.error e, s)
  | .await op next, s => (next (h op s).1).run h (h op s).2

variable (h : Handler Op Resp Exc S)

@[simp]
theorem run_ret (a : α) (s : S) : (Coro.ret a : Coro Op Resp Exc α).run h s = (.ok a, s) := rfl

@[simp]
theorem run_raise (e : Exc) (s : S) :
    (Coro.raise e : Coro Op Resp Exc α).run h s = (.error e, s) := rfl

@[simp]
theorem run_await (op : Op) (next : Except Exc (Resp op) → Coro Op Resp Exc α) (s : S) :
    (Coro.await op next).run h s = (next (h op s).1).run h (h op s).2 := rfl

/-- `run` of a sequence: the second part runs on what the first part returned and left, and is not
run if that raised. -/
theorem run_bind (c : Coro Op Resp Exc α) (f : α → Coro Op Resp Exc β) (s : S) :
    (c >>= f).run h s =
      match c.run h s with
      | (.ok a, s') => (f a).run h s'
      | (.error e, s') => (.error e, s') := by
  induction c generalizing s with
  | ret a => rfl
  | raise e => rfl
  | await op next ih => exact ih (h op s).1 (h op s).2

/-- A sequence whose first part returns goes on with the second part in the state left: `run_bind`
in the case of a result. -/
theorem run_bind_of_ok {c : Coro Op Resp Exc α} {s s' : S} {a : α} (hc : c.run h s = (.ok a, s'))
    (f : α → Coro Op Resp Exc β) : (c >>= f).run h s = (f a).run h s' := by
  rw [run_bind, hc]

/-- A sequence whose first part raises ends there: `run_bind` in the case of an exception. -/
theorem run_bind_of_error {c : Coro Op Resp Exc α} {s s' : S} {e : Exc}
    (hc : c.run h s = (.error e, s')) (f : α → Coro Op Resp Exc β) :
    (c >>= f).run h s = (.error e, s') := by
  rw [run_bind, hc]

/-- Applying a pure function to the result does not change whether there is a result. -/
theorem isOk_run_bind_ret (c : Coro Op Resp Exc α) (f : α → β) (s : S) :
    ((c >>= fun a => Coro.ret (f a)).run h s).1.isOk = (c.run h s).1.isOk := by
  rw [run_bind]
  rcases c.run h s with ⟨_ | _, s'⟩ <;> rfl

/-- If a sequence returns, its first part returned, and its second part returned from there. -/
theorem exists_of_run_bind_eq_ok {c : Coro Op Resp Exc α} {f : α → Coro Op Resp Exc β} {s t : S}
    {b : β} (hrun : (c >>= f).run h s = (.ok b, t)) :
    ∃ a s', c.run h s = (.ok a, s') ∧ (f a).run h s' = (.ok b, t) := by
  rcases hc : c.run h s with ⟨outcome, s'⟩
  cases outcome with
  | ok a => exact ⟨a, s', rfl, by rw [← hrun, run_bind_of_ok h hc]⟩
  | error e =>
    rw [run_bind_of_error h hc] at hrun
    exact absurd (Prod.mk.inj hrun).1 nofun

/-- `ofExcept` awaits nothing: a known value or exception is the result, and the state stays as it
is. -/
@[simp]
theorem run_ofExcept (x : Except Exc α) (s : S) :
    (ofExcept x : Coro Op Resp Exc α).run h s = (x, s) := by
  cases x <;> rfl

@[simp]
theorem run_perform (op : Op) (s : S) :
    (perform op : Coro Op Resp Exc (Resp op)).run h s = h op s :=
  run_ofExcept h (h op s).1 (h op s).2

/-- `attempt` runs as the computation does and returns its outcome, so it never raises. -/
@[simp]
theorem run_attempt (c : Coro Op Resp Exc α) (s : S) :
    c.attempt.run h s = (.ok (c.run h s).1, (c.run h s).2) := by
  induction c generalizing s with
  | ret a => rfl
  | raise e => rfl
  | await op next ih => exact ih (h op s).1 (h op s).2

/-- What follows an `attempt` goes on with the outcome, be it a value or an exception. -/
theorem run_attempt_bind (c : Coro Op Resp Exc α) (f : Except Exc α → Coro Op Resp Exc β) (s : S) :
    (c.attempt >>= f).run h s = (f (c.run h s).1).run h (c.run h s).2 :=
  run_bind_of_ok h (run_attempt h c s) f

/-! ## The operations of a run -/

/-- The operations of a run with their outcomes, in order. -/
def trace (h : Handler Op Resp Exc S) :
    Coro Op Resp Exc α → S → List ((op : Op) × Except Exc (Resp op))
  | .ret _, _ => []
  | .raise _, _ => []
  | .await op next, s => ⟨op, (h op s).1⟩ :: (next (h op s).1).trace h (h op s).2

@[simp]
theorem trace_ret (a : α) (s : S) : (Coro.ret a : Coro Op Resp Exc α).trace h s = [] := rfl

@[simp]
theorem trace_raise (e : Exc) (s : S) :
    (Coro.raise e : Coro Op Resp Exc α).trace h s = [] := rfl

@[simp]
theorem trace_await (op : Op) (next : Except Exc (Resp op) → Coro Op Resp Exc α) (s : S) :
    (Coro.await op next).trace h s =
      ⟨op, (h op s).1⟩ :: (next (h op s).1).trace h (h op s).2 := rfl

/-- The `trace` of a sequence whose first part returns is that of both parts, one behind the
other. -/
theorem trace_bind_of_ok {c : Coro Op Resp Exc α} {s s' : S} {a : α}
    (hc : c.run h s = (.ok a, s')) (f : α → Coro Op Resp Exc β) :
    (c >>= f).trace h s = c.trace h s ++ (f a).trace h s' := by
  induction c generalizing s with
  | ret b =>
    obtain ⟨hb, rfl⟩ := Prod.mk.inj hc
    obtain rfl := Except.ok.inj hb
    rfl
  | raise e => exact nomatch hc
  | await op next ih =>
    rw [await_bind, trace_await, trace_await, ih _ hc]
    rfl

/-- The `trace` of a sequence whose first part raises is that of the first part. -/
theorem trace_bind_of_error {c : Coro Op Resp Exc α} {s s' : S} {e : Exc}
    (hc : c.run h s = (.error e, s')) (f : α → Coro Op Resp Exc β) :
    (c >>= f).trace h s = c.trace h s := by
  induction c generalizing s with
  | ret b => exact nomatch hc
  | raise e => rfl
  | await op next ih =>
    rw [await_bind, trace_await, trace_await, ih _ hc]

/-- What a pure function makes of the result is not seen in the `trace`. -/
theorem trace_bind_ret (c : Coro Op Resp Exc α) (f : α → β) (s : S) :
    (c >>= fun a => Coro.ret (f a)).trace h s = c.trace h s := by
  rcases hc : c.run h s with ⟨outcome, s'⟩
  cases outcome with
  | ok a => rw [trace_bind_of_ok h hc, trace_ret, List.append_nil]
  | error e => rw [trace_bind_of_error h hc]

@[simp]
theorem trace_ofExcept (x : Except Exc α) (s : S) :
    (ofExcept x : Coro Op Resp Exc α).trace h s = [] := by
  cases x <;> rfl

@[simp]
theorem trace_perform (op : Op) (s : S) :
    (perform op : Coro Op Resp Exc (Resp op)).trace h s = [⟨op, (h op s).1⟩] :=
  congrArg (List.cons _) (trace_ofExcept h (h op s).1 (h op s).2)

/-- `attempt` performs the operations that are performed without it. -/
@[simp]
theorem trace_attempt (c : Coro Op Resp Exc α) (s : S) :
    c.attempt.trace h s = c.trace h s := by
  induction c generalizing s with
  | ret a => rfl
  | raise e => rfl
  | await op next ih => exact congrArg (List.cons _) (ih _ _)

/-- Behind an `attempt` the second part is performed also after an exception, which it is given as
its argument. -/
theorem trace_attempt_bind (c : Coro Op Resp Exc α) (f : Except Exc α → Coro Op Resp Exc β)
    (s : S) : (c.attempt >>= f).trace h s =
      c.trace h s ++ (f (c.run h s).1).trace h (c.run h s).2 := by
  rw [trace_bind_of_ok h (run_attempt h c s), trace_attempt]

/-! ## Running to the next operation -/

/-- The pending operation takes effect and the coroutine runs on to its next one. A coroutine that
has returned or raised has none. -/
def resume (h : Handler Op Resp Exc S) : Coro Op Resp Exc α → S → Option (Coro Op Resp Exc α × S)
  | .ret _, _ => none
  | .raise _, _ => none
  -- what follows the operation happens before anyone else has a turn
  | .await op next, s => some (next (h op s).1, (h op s).2)

/-- The coroutine has returned. -/
def Returned (c : Coro Op Resp Exc α) : Prop := ∃ a, c = .ret a

instance : DecidablePred (Returned : Coro Op Resp Exc α → Prop)
  | .ret a => .isTrue ⟨a, rfl⟩
  | .raise _ => .isFalse fun ⟨_, h⟩ => nomatch h
  | .await _ _ => .isFalse fun ⟨_, h⟩ => nomatch h

/-- What a coroutine has ended with. -/
def outcome? : Coro Op Resp Exc α → Option (Except Exc α)
  | .ret a => some (.ok a)
  | .raise e => some (.error e)
  | .await _ _ => none

/-- A coroutine with an `outcome?` has ended: its run is this outcome, and leaves the state
alone. -/
theorem run_of_outcome? (h : Handler Op Resp Exc S) {c : Coro Op Resp Exc α}
    {outcome : Except Exc α} (hc : c.outcome? = some outcome) (s : S) :
    c.run h s = (outcome, s) := by
  cases c with
  | ret a =>
    obtain rfl := Option.some.inj hc
    rfl
  | raise e =>
    obtain rfl := Option.some.inj hc
    rfl
  | await op next => cases hc

end Coro

/-! ## Faults -/

/-- How an operation fails: it raises without having had its effect, or after it. -/
inductive Fault (Exc : Type) where
  | before (e : Exc)
  | after (e : Exc)

namespace Handler

variable {Op : Type} {Resp : Op → Type} {Exc S : Type}

/-- The environment `h` in which the operations fail as the list says, one entry an operation. Past
the end of the list nothing fails. -/
def faulty (h : Handler Op Resp Exc S) : Handler Op Resp Exc (S × List (Option (Fault Exc)))
  | op, (s, []) => ((h op s).1, ((h op s).2, []))
  | op, (s, none :: faults) => ((h op s).1, ((h op s).2, faults))
  -- the caller cannot tell the two kinds of failure apart
  | _, (s, some (.before e) :: faults) => (.error e, (s, faults))
  | op, (s, some (.after e) :: faults) => (.error e, ((h op s).2, faults))

variable (h : Handler Op Resp Exc S) (op : Op) (s : S) (e : Exc)
  (faults : List (Option (Fault Exc)))

/-- The equations of `faulty`: no further fault, none for this operation, one before its effect, and
one after it. -/
@[simp]
theorem faulty_nil : h.faulty op (s, []) = ((h op s).1, ((h op s).2, [])) := rfl

@[simp]
theorem faulty_none :
    h.faulty op (s, none :: faults) = ((h op s).1, ((h op s).2, faults)) := rfl

@[simp]
theorem faulty_before :
    h.faulty op (s, some (.before e) :: faults) = (.error e, (s, faults)) := rfl

@[simp]
theorem faulty_after :
    h.faulty op (s, some (.after e) :: faults) = (.error e, ((h op s).2, faults)) := rfl

end Handler

namespace Coro

variable {Op : Type} {Resp : Op → Type} {Exc α β S : Type} (h : Handler Op Resp Exc S)

/-- How many operations a run of the coroutine awaits. -/
def awaited : Coro Op Resp Exc α → S → ℕ
  | .ret _, _ => 0
  | .raise _, _ => 0
  | .await op next, s => (next (h op s).1).awaited (h op s).2 + 1

/-- The equations of `awaited`, the number of operations of a run. -/
@[simp]
theorem awaited_ret (a : α) (s : S) : (Coro.ret a : Coro Op Resp Exc α).awaited h s = 0 := rfl

@[simp]
theorem awaited_raise (e : Exc) (s : S) :
    (Coro.raise e : Coro Op Resp Exc α).awaited h s = 0 := rfl

@[simp]
theorem awaited_await (op : Op) (next : Except Exc (Resp op) → Coro Op Resp Exc α) (s : S) :
    (Coro.await op next).awaited h s = (next (h op s).1).awaited h (h op s).2 + 1 := rfl

/-- `awaited` of a sequence whose first part returns counts the operations of both parts. -/
theorem awaited_bind_of_ok {c : Coro Op Resp Exc α} {s s' : S} {a : α}
    (hc : c.run h s = (.ok a, s')) (f : α → Coro Op Resp Exc β) :
    (c >>= f).awaited h s = c.awaited h s + (f a).awaited h s' := by
  induction c generalizing s with
  | ret b =>
    obtain ⟨hb, rfl⟩ := Prod.mk.inj hc
    obtain rfl := Except.ok.inj hb
    rw [ret_bind, awaited_ret, Nat.zero_add]
  | raise e => exact nomatch hc
  | await op next ih =>
    rw [await_bind, awaited_await, awaited_await, ih _ hc]
    exact Nat.add_right_comm _ _ _

/-- If none of the faults that fall on the operations of a run is one, `faulty` runs as the handler
itself and leaves the other faults over. -/
theorem run_faulty_of_none (c : Coro Op Resp Exc α) (s : S) (faults : List (Option (Fault Exc)))
    (hnone : ∀ f ∈ faults.take (c.awaited h s), f = none) :
    c.run h.faulty (s, faults) =
      ((c.run h s).1, ((c.run h s).2, faults.drop (c.awaited h s))) := by
  induction c generalizing s faults with
  | ret a => rfl
  | raise e => rfl
  | await op next ih =>
    rw [run_await]
    cases faults with
    -- past the end of the list nothing fails
    | nil =>
      rw [Handler.faulty_nil, ih _ _ [] (by simp)]
      simp
    | cons f faults =>
      rw [awaited_await, List.take_succ_cons, List.forall_mem_cons] at hnone
      obtain ⟨rfl, hrest⟩ := hnone
      rw [Handler.faulty_none, ih _ _ faults hrest]
      rfl

/-- The coroutine catches no exception: where an operation raises, it raises the same. -/
def Uncaught : Coro Op Resp Exc α → Prop
  | .ret _ => True
  | .raise _ => True
  | .await _ next => (∀ e, next (.error e) = .raise e) ∧ ∀ a, (next (.ok a)).Uncaught

/-- Computations that catch no exception stay `Uncaught` when they are put one behind the other. -/
theorem Uncaught.bind {c : Coro Op Resp Exc α} {f : α → Coro Op Resp Exc β} (hc : c.Uncaught)
    (hf : ∀ a, (f a).Uncaught) : (c >>= f).Uncaught := by
  induction c with
  | ret a => exact hf a
  | raise e => exact trivial
  | await op next ih =>
    refine ⟨fun e => ?_, fun a => ih _ (hc.2 a)⟩
    show (next (.error e) >>= f) = .raise e
    rw [hc.1 e, raise_bind]

/-- A coroutine that catches no exception returns if and only if none of the operations it awaits
fails and it returns without faults. -/
theorem Uncaught.isOk_run_faulty_iff {c : Coro Op Resp Exc α} (hc : c.Uncaught) (s : S)
    (faults : List (Option (Fault Exc))) :
    (c.run h.faulty (s, faults)).1.isOk = true ↔
      (c.run h s).1.isOk = true ∧ ∀ f ∈ faults.take (c.awaited h s), f = none := by
  constructor
  · intro hok
    have hnone : ∀ f ∈ faults.take (c.awaited h s), f = none := by
      induction c generalizing s faults with
      | ret a => simp
      | raise e => simp
      | await op next ih =>
        obtain ⟨herror, hnext⟩ := hc
        rw [run_await] at hok
        rcases faults with _ | ⟨_ | ⟨e⟩ | ⟨e⟩, faults⟩
        · simp
        · rw [awaited_await, List.take_succ_cons, List.forall_mem_cons]
          refine ⟨rfl, ?_⟩
          rw [Handler.faulty_none] at hok
          cases hanswer : (h op s).1 with
          | ok a =>
            rw [hanswer] at hok
            exact ih _ (hnext a) _ faults hok
          | error e => simp [herror]
        -- a failed operation ends the run
        · rw [Handler.faulty_before, herror] at hok
          exact absurd hok Bool.false_ne_true
        · rw [Handler.faulty_after, herror] at hok
          exact absurd hok Bool.false_ne_true
    rw [run_faulty_of_none h c s faults hnone] at hok
    exact ⟨hok, hnone⟩
  · rintro ⟨hok, hnone⟩
    rw [run_faulty_of_none h c s faults hnone]
    exact hok

/-- All the operations that the coroutine may await satisfy `P`. -/
def Awaits (P : Op → Prop) : Coro Op Resp Exc α → Prop
  | .ret _ => True
  | .raise _ => True
  | .await op next => P op ∧ ∀ r, (next r).Awaits P

/-- The rules of `Awaits`: what a computation may await is said of its pieces. -/
theorem Awaits.bind {P : Op → Prop} {c : Coro Op Resp Exc α} {f : α → Coro Op Resp Exc β}
    (hc : c.Awaits P) (hf : ∀ a, (f a).Awaits P) : (c >>= f).Awaits P := by
  induction c with
  | ret a => exact hf a
  | raise e => exact trivial
  | await op next ih => exact ⟨hc.1, fun r => ih r (hc.2 r)⟩

theorem Awaits.perform {P : Op → Prop} {op : Op} (hop : P op) :
    (Coro.perform op : Coro Op Resp Exc (Resp op)).Awaits P := by
  refine ⟨hop, fun r => ?_⟩
  cases r <;> exact trivial

theorem Awaits.ofExcept {P : Op → Prop} (x : Except Exc α) :
    (Coro.ofExcept x : Coro Op Resp Exc α).Awaits P := by
  cases x <;> exact trivial

theorem Awaits.attempt {P : Op → Prop} {c : Coro Op Resp Exc α} (hc : c.Awaits P) :
    c.attempt.Awaits P := by
  induction c with
  | ret a => exact trivial
  | raise e => exact trivial
  | await op next ih => exact ⟨hc.1, fun r => ih r (hc.2 r)⟩

theorem Awaits.forM {P : Op → Prop} {β : Type} {l : List β} {f : β → Coro Op Resp Exc Unit}
    (hf : ∀ b ∈ l, (f b).Awaits P) : (List.forM l f).Awaits P := by
  induction l with
  | nil => exact trivial
  | cons b l ih =>
    rw [List.forall_mem_cons] at hf
    exact Awaits.bind hf.1 fun _ => ih hf.2

/-- Whatever a coroutine `Awaits` is said of every operation in its `trace`. -/
theorem Awaits.forall_mem_trace {P : Op → Prop} {c : Coro Op Resp Exc α} (hc : c.Awaits P) (s : S) :
    ∀ performed ∈ c.trace h s, P performed.1 := by
  induction c generalizing s with
  | ret a => exact List.forall_mem_nil _
  | raise e => exact List.forall_mem_nil _
  | await op next ih => exact List.forall_mem_cons.mpr ⟨hc.1, ih _ (hc.2 _) _⟩

/-- The invariant rule: what every operation of the handler keeps holds after a run. -/
theorem run_invariant {I : S → Prop} (hstep : ∀ op s, I s → I (h op s).2)
    (c : Coro Op Resp Exc α) {s : S} (hs : I s) : I (c.run h s).2 := by
  induction c generalizing s with
  | ret a => exact hs
  | raise e => exact hs
  | await op next ih => exact ih _ (hstep op s hs)

/-- The answer in an entry of the `trace` is what the handler gave in some state. -/
theorem exists_of_mem_trace {c : Coro Op Resp Exc α} {s : S}
    {performed : (op : Op) × Except Exc (Resp op)} (h' : performed ∈ c.trace h s) :
    ∃ s', performed.2 = (h performed.1 s').1 := by
  induction c generalizing s with
  | ret a => exact absurd h' List.not_mem_nil
  | raise e => exact absurd h' List.not_mem_nil
  | await op next ih =>
    obtain rfl | hrest := List.mem_cons.mp h'
    · exact ⟨s, rfl⟩
    · exact ih _ hrest

/-- The invariant rule with faults: what the operations that a coroutine `Awaits` keep holds after
its run, whatever fails before or after its effect. -/
theorem Awaits.run_faulty {P : Op → Prop} {I : S → Prop}
    (hstep : ∀ op s, P op → I s → I (h op s).2) {c : Coro Op Resp Exc α} (hc : c.Awaits P) {s : S}
    (hs : I s) (faults : List (Option (Fault Exc))) : I (c.run h.faulty (s, faults)).2.1 := by
  induction c generalizing s faults with
  | ret a => exact hs
  | raise e => exact hs
  | await op next ih =>
    obtain ⟨hop, hnext⟩ := hc
    have hafter : I (h op s).2 := hstep op s hop hs
    rw [run_await]
    rcases faults with _ | ⟨_ | ⟨e⟩ | ⟨e⟩, faults⟩
    · exact ih _ (hnext _) hafter []
    · exact ih _ (hnext _) hafter faults
    · exact ih _ (hnext _) hs faults
    · exact ih _ (hnext _) hafter faults

/-! ## Operations among others -/

variable {Op' : Type} {Resp' : Op' → Type}

/-- The coroutine with the operation `f op` in place of `op`, whose answer `back` translates. -/
def via (f : Op → Op') (back : ∀ op, Resp' (f op) → Resp op) :
    Coro Op Resp Exc α → Coro Op' Resp' Exc α
  | .ret a => .ret a
  | .raise e => .raise e
  | .await op next => .await (f op) fun r => (next (r.map (back op))).via f back

variable {f : Op → Op'} {back : ∀ op, Resp' (f op) → Resp op}

/-- Under a translation of the operations a computation awaits the translations of what it
awaits. -/
theorem Awaits.via {P : Op' → Prop} {c : Coro Op Resp Exc α} (hc : c.Awaits fun op => P (f op)) :
    (c.via f back).Awaits P := by
  induction c with
  | ret a => exact trivial
  | raise e => exact trivial
  | await op next ih => exact ⟨hc.1, fun r => ih _ (hc.2 _)⟩

/-- A coroutine whose operations are translated by `via` runs as before, if the translated
operations have the same answers and effects. -/
theorem run_via {h' : Handler Op' Resp' Exc S}
    (hsame : ∀ op s, ((h' (f op) s).1.map (back op), (h' (f op) s).2) = h op s)
    (c : Coro Op Resp Exc α) (s : S) : (c.via f back).run h' s = c.run h s := by
  induction c generalizing s with
  | ret a => rfl
  | raise e => rfl
  | await op next ih =>
    rw [via, run_await, run_await, ih, ← hsame op s]

end Coro

/-! ## Operations with their faults -/

/-- The environment `h` for operations that bring along how they fail. -/
def Handler.failing {Op : Type} {Resp : Op → Type} {Exc S : Type} (h : Handler Op Resp Exc S) :
    Handler (Op × Option (Fault Exc)) (fun op => Resp op.1) Exc S
  | (op, none), s => h op s
  | (_, some (.before e)), s => (.error e, s)
  | (op, some (.after e)), s => (.error e, (h op s).2)

namespace Coro

variable {Op : Type} {Resp : Op → Type} {Exc α S : Type}

/-- The coroutine whose operations fail as the list says, one entry an operation. Past the end of
the list nothing fails. -/
def failing : Coro Op Resp Exc α → List (Option (Fault Exc)) →
    Coro (Op × Option (Fault Exc)) (fun op => Resp op.1) Exc α
  | .ret a, _ => .ret a
  | .raise e, _ => .raise e
  | .await op next, faults =>
    .await (op, faults.head?.join) fun r => (next r).failing faults.tail

/-- `failing` puts faults beside the operations of a coroutine, and changes nothing about what it
`Awaits`. -/
theorem Awaits.failing {P : Op → Prop} {c : Coro Op Resp Exc α} (hc : c.Awaits P)
    (faults : List (Option (Fault Exc))) : (c.failing faults).Awaits fun op => P op.1 := by
  induction c generalizing faults with
  | ret a => exact trivial
  | raise e => exact trivial
  | await op next ih => exact ⟨hc.1, fun r => ih r (hc.2 r) faults.tail⟩

/-- A coroutine that brings its faults along runs as in the environment `Handler.faulty`, which has
them. -/
theorem run_failing (h : Handler Op Resp Exc S) (c : Coro Op Resp Exc α) (s : S)
    (faults : List (Option (Fault Exc))) :
    (c.failing faults).run h.failing s =
      ((c.run h.faulty (s, faults)).1, (c.run h.faulty (s, faults)).2.1) := by
  induction c generalizing s faults with
  | ret a => simp [failing]
  | raise e => simp [failing]
  | await op next ih =>
    rw [failing, run_await, run_await, ih]
    rcases faults with _ | ⟨_ | ⟨e⟩ | ⟨e⟩, faults⟩ <;> rfl

end Coro
