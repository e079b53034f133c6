import Mathlib.Data.Nat.Notation

/-!
# Computations with a log

A computation that may fail and keeps a log of the effects that it has had. Nothing takes an entry
back, so a computation without a log is made of parts without one.

* `Logged` is the monad, with exceptions that are raised by `throw` and effects that are performed
  by `Logged.perform`.
* `Logged.result_bind`: without the log it is the monad `Except`.
* `Logged.bind_eq_pure_iff`, `Logged.bind_eq_throw_iff`: what it means for a sequence of two
  computations to return, or to fail, without an effect. Proofs about a walk use these two instead
  of the definition of the sequence.
-/

/-- A computation that may fail with an `ε` and has effects `ω`. -/
@[ext]
structure Logged (ω ε α : Type) where
  /-- What it returns or fails with. -/
  result : Except ε α
  /-- The effects that it has had. -/
  log : List ω

namespace Logged

variable {ω ε α β : Type}

instance : Monad (Logged ω ε) where
  pure a := ⟨.ok a, []⟩
  bind x f :=
    match x.result with
    | .ok a => ⟨(f a).result, x.log ++ (f a).log⟩
    | .error e => ⟨.error e, x.log⟩

instance : MonadExcept ε (Logged ω ε) where
  throw e := ⟨.error e, []⟩
  tryCatch x f :=
    match x.result with
    | .ok _ => x
    | .error e => ⟨(f e).result, x.log ++ (f e).log⟩

/-- An effect, and what it gives. -/
def perform (effect : ω) (result : Except ε α) : Logged ω ε α := ⟨result, [effect]⟩

/-- The `result` of a sequence is that of its parts in `Except`: the log has no influence on it. -/
theorem result_bind (x : Logged ω ε α) (f : α → Logged ω ε β) :
    (x >>= f).result = x.result >>= fun a => (f a).result := by
  obtain ⟨result, log⟩ := x
  cases result <;> rfl

/-- `perform` leaves its effect in the log, so it is no `pure` value. -/
theorem perform_ne_pure (effect : ω) (result : Except ε α) (a : α) :
    perform effect result ≠ pure a :=
  fun h => List.cons_ne_nil _ _ (congrArg log h)

/-- An effect, an exception and a value are three different things: a computation that logs is
neither of the others. -/
theorem perform_ne_throw (effect : ω) (result : Except ε α) (e : ε) :
    perform effect result ≠ throw e :=
  fun h => List.cons_ne_nil _ _ (congrArg log h)

theorem throw_ne_pure (e : ε) (a : α) : (throw e : Logged ω ε α) ≠ pure a :=
  fun h => nomatch congrArg result h

theorem pure_ne_throw (a : α) (e : ε) : (pure a : Logged ω ε α) ≠ throw e :=
  fun h => nomatch congrArg result h

theorem pure_injective : Function.Injective (pure : α → Logged ω ε α) := by
  intro a b h
  exact Except.ok.inj (congrArg result h)

theorem throw_injective : Function.Injective (throw : ε → Logged ω ε α) := by
  intro e e' h
  exact Except.error.inj (congrArg result h)

/-- A sequence is `pure` exactly if both parts are: effects in the log are never undone. -/
theorem bind_eq_pure_iff {x : Logged ω ε α} {f : α → Logged ω ε β} {b : β} :
    x >>= f = pure b ↔ ∃ a, x = pure a ∧ f a = pure b := by
  obtain ⟨result, log⟩ := x
  cases result with
  | error e =>
    constructor
    · intro h
      exact nomatch congrArg Logged.result h
    · rintro ⟨a, ha, -⟩
      exact nomatch congrArg Logged.result ha
  | ok a =>
    constructor
    · intro h
      obtain ⟨hlog, hrest⟩ := List.append_eq_nil_iff.mp (congrArg Logged.log h)
      exact ⟨a, Logged.ext rfl hlog, Logged.ext (congrArg Logged.result h :) hrest⟩
    · rintro ⟨a', ha, hb⟩
      rw [ha]
      exact Logged.ext (congrArg Logged.result hb) (congrArg Logged.log hb)

/-- A sequence of two fails without an effect exactly if the first one does, or the first one
returns without an effect and the second one fails so. -/
theorem bind_eq_throw_iff {x : Logged ω ε α} {f : α → Logged ω ε β} {e : ε} :
    x >>= f = throw e ↔ x = throw e ∨ ∃ a, x = pure a ∧ f a = throw e := by
  obtain ⟨result, log⟩ := x
  cases result with
  | error e' =>
    constructor
    · intro h
      have he : e' = e := Except.error.inj (congrArg Logged.result h)
      exact Or.inl (Logged.ext (congrArg Except.error he) (congrArg Logged.log h :))
    · rintro (h | ⟨a, ha, -⟩)
      · rw [h]
        rfl
      · exact nomatch congrArg Logged.result ha
  | ok a =>
    constructor
    · intro h
      obtain ⟨hlog, hrest⟩ := List.append_eq_nil_iff.mp (congrArg Logged.log h)
      exact Or.inr ⟨a, Logged.ext rfl hlog, Logged.ext (congrArg Logged.result h :) hrest⟩
    · rintro (h | ⟨a', ha, hb⟩)
      · exact nomatch congrArg Logged.result h
      · rw [ha]
        exact Logged.ext (congrArg Logged.result hb) (congrArg Logged.log hb)

end Logged
