import Mathlib.Data.List.Basic
import Mathlib.Logic.Function.Basic

/-!
# Heaps of mutable cells

Objects that are changed in place are cells of a heap, and whoever holds an object holds its
address. Two holders of one address see each other's changes.

* `Heap.alloc`, `Heap.get` and `Heap.modify` are the operations on a heap.
* `Heap.Owns h addr val`: holders `k` have the addresses `addr k`, no two of them the same, and find
  the values `val k` there. It is kept by an allocation for a new holder, by a change of a holder's
  own cell and when an address passes from one holder to another (`Heap.Owns.alloc`,
  `Heap.Owns.modify`, `Heap.Owns.move`): holders that share nothing cannot be told from holders of
  plain values.
-/

/-- The cells of a heap, by address. -/
structure Heap (α : Type*) where
  /-- The values. -/
  cells : List α

namespace Heap

variable {α K : Type*}

/-- A heap without cells. -/
def empty : Heap α := ⟨[]⟩

/-- `Owns` is kept when a new cell is allocated for a holder that has none. -/
def alloc (h : Heap α) (a : α) : Heap α × ℕ := (⟨h.cells ++ [a]⟩, h.cells.length)

/-- What stands at an address. -/
def get [Inhabited α] (h : Heap α) (addr : ℕ) : α := h.cells[addr]?.getD default

/-- `Owns` is kept when a holder changes its own cell: its value alone is another one. -/
def modify (h : Heap α) (addr : ℕ) (f : α → α) : Heap α := ⟨h.cells.modify addr f⟩

/-- `Owns` is kept when a cell is allocated for a holder that has none, if there is a value for it,
and nothing is done if not. -/
def allocOption (h : Heap α) : Option α → Heap α × Option ℕ
  | none => (h, none)
  | some a => ((h.alloc a).1, some (h.alloc a).2)

/-- `Owns` is kept by taking over the cell of another holder, or allocating one if that has none. -/
def getOrAlloc (h : Heap α) (addr : Option ℕ) (a : α) : Heap α × ℕ :=
  match addr with
  | some addr => (h, addr)
  | none => h.alloc a

variable [Inhabited α] {h : Heap α} {a : α} {addr addr' : ℕ}

/-- `alloc` leaves every object that is there as it is. -/
theorem get_alloc_of_lt (hlt : addr < h.cells.length) : (h.alloc a).1.get addr = h.get addr := by
  rw [get, get, alloc, List.getElem?_append_left hlt]

theorem get_alloc_self (h : Heap α) (a : α) : (h.alloc a).1.get (h.alloc a).2 = a := by
  simp [get, alloc]

/-- `modify` is seen through the reference to the object that it modifies. -/
theorem get_modify_self (hlt : addr < h.cells.length) (f : α → α) :
    (h.modify addr f).get addr = f (h.get addr) := by
  simp [get, modify, List.getElem?_eq_getElem hlt]

theorem get_modify_of_ne (hne : addr ≠ addr') (f : α → α) :
    (h.modify addr f).get addr' = h.get addr' := by
  rw [get, get, modify, List.getElem?_modify_ne f _ hne]

/-- Every holder has a cell of its own, with its value in it. -/
structure Owns (h : Heap α) (addr : K → Option ℕ) (val : K → Option α) : Prop where
  /-- The cell of a holder has its value. -/
  get_eq : ∀ k, (addr k).map h.get = val k
  /-- The cell of a holder is there. -/
  lt_length : ∀ k a, addr k = some a → a < h.cells.length
  /-- No two holders have one cell. -/
  inj : ∀ k k' a, addr k = some a → addr k' = some a → k = k'

namespace Owns

variable {addr : K → Option ℕ} {val : K → Option α}

/-- A heap in which nobody holds anything is owned: the base case of `Owns`. -/
theorem of_forall_eq_none (haddr : ∀ k, addr k = none) (hval : ∀ k, val k = none) :
    Owns h addr val where
  get_eq k := by rw [haddr, hval, Option.map_none]
  lt_length k a hk := by
    rw [haddr] at hk
    exact absurd hk nofun
  inj k k' a hk := by
    rw [haddr] at hk
    exact absurd hk nofun

variable [DecidableEq K] (howns : Owns h addr val) {k k' : K}
include howns

/-- A new cell for a holder that has none. -/
theorem alloc (a : α) (hk : addr k = none) :
    Owns (h.alloc a).1 (Function.update addr k (some (h.alloc a).2))
      (Function.update val k (some a)) where
  get_eq j := by
    by_cases hj : j = k
    · subst hj
      rw [Function.update_self, Function.update_self, Option.map_some, get_alloc_self]
    · rw [Function.update_of_ne hj, Function.update_of_ne hj, ← howns.get_eq]
      cases hb : addr j with
      | none => rfl
      | some b => exact congrArg some (get_alloc_of_lt (howns.lt_length j b hb))
  lt_length j b hb := by
    rw [Heap.alloc, List.length_append]
    by_cases hj : j = k
    · subst hj
      rw [Function.update_self] at hb
      obtain rfl := Option.some.inj hb
      exact Nat.lt_succ_self _
    · rw [Function.update_of_ne hj] at hb
      exact Nat.lt_add_right _ (howns.lt_length j b hb)
  inj j j' b hj hj' := by
    -- the new address is none of the old ones
    have hold (i : K) (hi : i ≠ k) (hib : Function.update addr k (some (h.alloc a).2) i = some b) :
        addr i = some b ∧ b < h.cells.length := by
      rw [Function.update_of_ne hi] at hib
      exact ⟨hib, howns.lt_length i b hib⟩
    have hnew (hb : Function.update addr k (some (h.alloc a).2) k = some b) :
        b = h.cells.length := by
      rw [Function.update_self] at hb
      exact (Option.some.inj hb).symm
    by_cases hk : j = k
    · subst hk
      by_contra hne
      have hlt := (hold j' (Ne.symm hne) hj').2
      rw [hnew hj] at hlt
      exact absurd hlt (Nat.lt_irrefl _)
    · by_cases hk' : j' = k
      · subst hk'
        have hlt := (hold j hk hj).2
        rw [hnew hj'] at hlt
        exact absurd hlt (Nat.lt_irrefl _)
      · exact howns.inj j j' b (hold j hk hj).1 (hold j' hk' hj').1

/-- A new cell for a holder that has none, if there is a value for it. -/
theorem allocOption (x : Option α) (hk : addr k = none) :
    Owns (h.allocOption x).1 (Function.update addr k (h.allocOption x).2)
      (Function.update val k x) := by
  cases x with
  | some a => exact howns.alloc a hk
  | none =>
    have hval : val k = none := by rw [← howns.get_eq, hk, Option.map_none]
    have haddr : Function.update addr k none = addr := hk ▸ Function.update_eq_self k addr
    have hsame : Function.update val k none = val := hval ▸ Function.update_eq_self k val
    rw [Heap.allocOption, haddr, hsame]
    exact howns

/-- A holder changes its own cell. -/
theorem modify {a : ℕ} (hk : addr k = some a) (f : α → α) :
    Owns (h.modify a f) addr (Function.update val k ((val k).map f)) where
  get_eq j := by
    have hlt := howns.lt_length k a hk
    by_cases hj : j = k
    · subst hj
      rw [Function.update_self, ← howns.get_eq, hk, Option.map_some, Option.map_some,
        Option.map_some, get_modify_self hlt]
    · rw [Function.update_of_ne hj, ← howns.get_eq]
      cases hb : addr j with
      | none => rfl
      | some b =>
        -- the cell is another one, as the holder is
        have hne : a ≠ b := fun heq => hj (howns.inj j k b hb (heq ▸ hk))
        exact congrArg some (get_modify_of_ne hne f)
  lt_length j b hb := by
    rw [Heap.modify, List.length_modify]
    exact howns.lt_length j b hb
  inj := howns.inj

/-- `Owns` is kept when a holder passes its cell on to one that has none: the cell then has one
holder again. -/
theorem move (hk' : addr k' = none) :
    Owns h (Function.update (Function.update addr k none) k' (addr k))
      (Function.update (Function.update val k none) k' (val k)) where
  get_eq j := by
    by_cases hj' : j = k'
    · subst hj'
      rw [Function.update_self, Function.update_self, howns.get_eq]
    · rw [Function.update_of_ne hj', Function.update_of_ne hj']
      by_cases hj : j = k
      · subst hj
        rw [Function.update_self, Function.update_self, Option.map_none]
      · rw [Function.update_of_ne hj, Function.update_of_ne hj, howns.get_eq]
  lt_length j b hb := by
    by_cases hj' : j = k'
    · subst hj'
      rw [Function.update_self] at hb
      exact howns.lt_length k b hb
    · rw [Function.update_of_ne hj'] at hb
      by_cases hj : j = k
      · subst hj
        rw [Function.update_self] at hb
        exact absurd hb nofun
      · rw [Function.update_of_ne hj] at hb
        exact howns.lt_length j b hb
  inj := by
    -- whoever has an address now had it before, except for the two that passed it on
    have hbefore (j : K) (b : ℕ)
        (hb : Function.update (Function.update addr k none) k' (addr k) j = some b) :
        (j = k' ∧ addr k = some b) ∨ (j ≠ k' ∧ j ≠ k ∧ addr j = some b) := by
      by_cases hj' : j = k'
      · subst hj'
        rw [Function.update_self] at hb
        exact .inl ⟨rfl, hb⟩
      · rw [Function.update_of_ne hj'] at hb
        by_cases hj : j = k
        · subst hj
          rw [Function.update_self] at hb
          exact absurd hb nofun
        · rw [Function.update_of_ne hj] at hb
          exact .inr ⟨hj', hj, hb⟩
    intro i j b hi hj
    rcases hbefore i b hi with ⟨rfl, hib⟩ | ⟨-, hik, hib⟩
    · rcases hbefore j b hj with ⟨rfl, -⟩ | ⟨-, hjk, hjb⟩
      · rfl
      · exact absurd (howns.inj j k b hjb hib) hjk
    · rcases hbefore j b hj with ⟨rfl, hjb⟩ | ⟨-, -, hjb⟩
      · exact absurd (howns.inj i k b hib hjb) hik
      · exact howns.inj i j b hib hjb

/-- A holder without a cell gets the one of another holder, or else a new one. -/
theorem getOrAlloc (a : α) (k : K) (hk' : addr k' = none) :
    Owns (h.getOrAlloc (addr k) a).1
      (Function.update (Function.update addr k none) k' (some (h.getOrAlloc (addr k) a).2))
      (Function.update (Function.update val k none) k' (some ((val k).getD a))) := by
  have hval := howns.get_eq k
  cases hk : addr k with
  | some b =>
    rw [hk, Option.map_some] at hval
    have hmove := howns.move (k := k) hk'
    rw [hk, ← hval] at hmove
    rw [← hval]
    exact hmove
  | none =>
    rw [hk, Option.map_none] at hval
    have haddr : Function.update addr k none = addr := hk ▸ Function.update_eq_self k addr
    have hsame : Function.update val k none = val := by
      rw [hval]
      exact Function.update_eq_self k val
    rw [haddr, hsame, ← hval]
    exact howns.alloc a hk'

end Owns

end Heap
