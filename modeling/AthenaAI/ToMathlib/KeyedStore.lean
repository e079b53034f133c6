import AthenaAI.ToMathlib.Run
import Mathlib.Logic.Function.Basic

/-!
# Keyed stores

A store that holds at most one value a key: a value is created where there is none, replaced
whatever there is, or removed. It is the abstract model of a store that is used through these three
operations; a program refines it by a representation relation.

* `KeyedStore.Op` are the operations, each about one key (`KeyedStore.Op.key`).
* `KeyedStore.apply` is what one operation makes of the store.
* `KeyedStore.current` reads a history: what was last replaced since the key was removed, or else
  what was first created since then.
* `KeyedStore.after_eq_current`: the store holds what the history says.
-/

namespace KeyedStore

variable {κ ν : Type*}

/-- The operations on a store. -/
inductive Op (κ ν : Type*) where
  /-- Store a value, unless there is one. -/
  | create (key : κ) (value : ν)
  /-- Store a value in place of what is there. -/
  | replace (key : κ) (value : ν)
  /-- Store nothing any more. -/
  | remove (key : κ)

namespace Op

/-- The key of an operation. -/
def key : Op κ ν → κ
  | create key _ => key
  | replace key _ => key
  | remove key => key

variable [DecidableEq κ] (k : κ)

/-- What the operation creates under the key. -/
def created? : Op κ ν → Option ν
  | create key value => if key = k then some value else none
  | _ => none

/-- What the operation replaces the value of the key by. -/
def replaced? : Op κ ν → Option ν
  | replace key value => if key = k then some value else none
  | _ => none

/-- The operation removes the key. -/
def removes : Op κ ν → Bool
  | remove key => key = k
  | _ => false

end Op

variable [DecidableEq κ]

/-- What an operation makes of the store. -/
def apply (m : κ → Option ν) : Op κ ν → κ → Option ν
  | .create key value => Function.update m key (some ((m key).getD value))
  | .replace key value => Function.update m key (some value)
  | .remove key => Function.update m key none

/-- What a history leaves under the key. -/
def current (k : κ) (ops : List (Op κ ν)) : Option ν :=
  let recent := ops.rtakeWhile fun op => !op.removes k
  (recent.latest (Op.replaced? k)).or (recent.findSome? (Op.created? k))

theorem apply_of_ne (m : κ → Option ν) (op : Op κ ν) {k : κ} (hk : k ≠ op.key) :
    apply m op k = m k := by
  cases op <;> exact Function.update_of_ne hk _ _

/-- The entry of a key after a further operation: removed, replaced, kept or created, in this order
of precedence. -/
theorem current_concat (k : κ) (ops : List (Op κ ν)) (op : Op κ ν) :
    current k (ops ++ [op]) =
      if op.removes k then none
      else (op.replaced? k).or ((current k ops).or (op.created? k)) := by
  unfold current
  rw [List.rtakeWhile_concat]
  cases hremoves : op.removes k with
  | true => rfl
  | false =>
    simp only [Bool.not_false, if_true, Bool.false_eq_true, if_false]
    rw [List.latest_concat, List.findSome?_append, List.findSome?_singleton, Option.or_assoc,
      Option.or_assoc]

/-- A run of `apply` holds under each key what `current` reads off the history of operations: the
last one under the key decides. -/
theorem after_eq_current (ops : List (Op κ ν)) (k : κ) :
    Run.after apply (fun _ => none) ops k = current k ops := by
  induction ops using List.reverseRecOn with
  | nil => rfl
  | append_singleton ops op ih =>
    rw [Run.after_concat, current_concat, ← ih]
    generalize Run.after apply (fun _ => none) ops = m
    by_cases hk : k = op.key
    · subst hk
      cases op with
      | create key value =>
        show Function.update m key _ key = _
        rw [Function.update_self]
        cases hm : m key <;> simp [Op.removes, Op.replaced?, Op.created?, Op.key, hm]
      | replace key value =>
        show Function.update m key _ key = _
        rw [Function.update_self]
        simp [Op.removes, Op.replaced?, Op.key]
      | remove key =>
        show Function.update m key _ key = _
        rw [Function.update_self]
        simp [Op.removes, Op.key]
    -- an operation on another key changes nothing here
    · rw [apply_of_ne m op hk]
      cases op <;> simp_all [Op.removes, Op.replaced?, Op.created?, Op.key, eq_comm]

end KeyedStore
