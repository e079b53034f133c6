import AthenaAI.ToMathlib.StableOrder
import Mathlib.Algebra.Order.Monoid.Unbundled.WithTop
import Mathlib.Data.Real.Basic

/-!
# Floats as sort keys

Floats as Python compares them, and `list.sort(key=…, reverse=True)` with floats as keys. A float
may be a NaN, with which no comparison holds.

* `PyFloat.value` is the number that a float is, and `⊥` for a NaN. `PyFloat.IsNumber` says that it
  is not a NaN, and `PyFloat.Le` is the comparison `x <= y`.
* `FloatSort` is how `list.sort` orders the positions of a list of keys. Python documents the order,
  which is stable, for keys that can be compared. Of a list with a NaN in it only that it stays a
  permutation is assumed, and every such permutation is that of some `FloatSort`.
* `FloatSort.sorted` are the rows of a table in this order, each with its position. They are the
  rows of the table (`perm_sorted`), and where all keys are numbers they are those of the stable
  order (`sorted_eq_placed`).
* `FloatSort.nanFirst` puts the rows with a NaN in front of the others (`exists_sorted_nanFirst`).

The real numbers are floats without a NaN.
-/

/-- The floats `F`, with the numbers `K` that they stand for. -/
class PyFloat (F : Type) (K : outParam Type) [Zero F] [Zero K] where
  /-- The number that a float is, `⊥` for a NaN. -/
  value : F → WithBot K
  /-- `0.0` is zero. -/
  value_zero : value 0 = (0 : K)

namespace PyFloat

variable {F K : Type} [Zero F] [Zero K] [PyFloat F K]

/-- The float is not a NaN. -/
def IsNumber (x : F) : Prop := value x ≠ ⊥

instance [DecidableEq K] (x : F) : Decidable (IsNumber x) :=
  inferInstanceAs (Decidable (value x ≠ ⊥))

/-- `x <= y`: both floats are numbers, and `x` is not the greater one. -/
def Le [LE K] (x y : F) : Prop := IsNumber x ∧ value x ≤ value y

/-- `0.0` is not a NaN. -/
theorem isNumber_zero : IsNumber (0 : F) := by
  rw [IsNumber, value_zero]
  exact WithBot.coe_ne_bot

/-- Nothing is less than or equal to a NaN. -/
theorem Le.isNumber_right [PartialOrder K] {x y : F} (h : Le x y) : IsNumber y := fun hy =>
  h.1 (le_bot_iff.mp (h.2.trans_eq hy))

/-- The real numbers: none of them is a NaN. -/
noncomputable instance : PyFloat ℝ ℝ where
  value x := x
  value_zero := rfl

theorem isNumber_real (x : ℝ) : IsNumber x := WithBot.coe_ne_bot

/-- A real number is `0.0` exactly if it is zero. -/
@[simp]
theorem value_real_eq_zero_iff {x : ℝ} : value x = 0 ↔ x = 0 := WithBot.coe_eq_zero

end PyFloat

open PyFloat (IsNumber value)

/-- `list.sort(reverse=True)` on floats: the order in which it puts the positions of a list. -/
class FloatSort (F : Type) {K : outParam Type} [Zero F] [Zero K] [LinearOrder K] [PyFloat F K] where
  /-- The positions of the keys, as they are after sorting. -/
  order : List F → List ℕ
  /-- Every position is there once. -/
  order_perm : ∀ keys, (order keys).Perm (List.range keys.length)
  /-- Numbers come in the stable order, the greatest first. -/
  order_of_isNumber : ∀ keys : List F, (∀ x ∈ keys, IsNumber x) →
    order keys = (OrderBy.placed value keys).map Prod.snd

namespace FloatSort

variable {F K ρ : Type} [Zero F] [Zero K] [LinearOrder K] [PyFloat F K] {key : ρ → F}
  {rows : List ρ}

/-- The rows of a table by `list.sort(key=key, reverse=True)`, each with its position. -/
def sorted [FloatSort F] (key : ρ → F) (rows : List ρ) : List (ρ × ℕ) :=
  (order (rows.map key)).filterMap fun i => rows[i]?.map (·, i)

/-- Looking up the positions of some rows gives these rows. -/
theorem filterMap_positions {placed : List (ρ × ℕ)} (h : ∀ x ∈ placed, rows[x.2]? = some x.1) :
    (placed.map Prod.snd).filterMap (fun i => rows[i]?.map (·, i)) = placed := by
  rw [List.filterMap_map]
  refine (List.filterMap_congr fun x hx => ?_).trans List.filterMap_some
  rw [Function.comp_apply, h x hx]
  rfl

/-- Sorting returns every row once, with its position. -/
theorem perm_sorted [FloatSort F] (key : ρ → F) (rows : List ρ) :
    (sorted key rows).Perm rows.zipIdx := by
  have hperm := order_perm (rows.map key)
  have hpositions : rows.zipIdx.map Prod.snd = List.range (rows.map key).length := by
    rw [List.zipIdx_map_snd, List.length_map, List.range_eq_range']
  rw [← hpositions] at hperm
  refine (hperm.filterMap _).trans (.of_eq (filterMap_positions fun x hx => ?_))
  exact List.mem_zipIdx_iff_getElem?.mp hx

/-- Sorting moves the rows and drops none: each stands in the order with the place it had in the
list. -/
theorem mem_sorted_iff [FloatSort F] {x : ρ × ℕ} : x ∈ sorted key rows ↔ rows[x.2]? = some x.1 := by
  rw [(perm_sorted key rows).mem_iff, List.mem_zipIdx_iff_getElem?]

/-- No position is returned twice. -/
theorem nodup_sorted [FloatSort F] (key : ρ → F) (rows : List ρ) :
    ((sorted key rows).map Prod.snd).Nodup := by
  rw [((perm_sorted key rows).map Prod.snd).nodup_iff, List.zipIdx_map_snd]
  exact List.nodup_range'

theorem length_sorted [FloatSort F] (key : ρ → F) (rows : List ρ) :
    (sorted key rows).length = rows.length := by
  rw [(perm_sorted key rows).length_eq, List.length_zipIdx]

/-- Where all keys are numbers, sorting is the stable order of these. -/
theorem sorted_eq_placed [FloatSort F] (h : ∀ r ∈ rows, IsNumber (key r)) :
    sorted key rows = OrderBy.placed (fun r => value (key r)) rows := by
  have hpositions : order (rows.map key) =
      (OrderBy.placed (fun r => value (key r)) rows).map Prod.snd := by
    rw [order_of_isNumber _ (List.forall_mem_map.mpr h), ← OrderBy.map_placed, List.map_map]
    rfl
  rw [sorted, hpositions]
  exact filterMap_positions fun x hx => OrderBy.mem_placed_iff.mp hx

/-! ## Real numbers -/

/-- Real numbers come in the stable order. -/
noncomputable instance : FloatSort ℝ where
  order keys := (OrderBy.placed value keys).map Prod.snd
  order_perm keys := by
    rw [List.range_eq_range', ← List.zipIdx_map_snd 0 keys]
    exact (OrderBy.perm_placed value keys).map Prod.snd
  order_of_isNumber _ _ := rfl

/-- Rows with real keys are sorted by these. -/
theorem sorted_real (key : ρ → ℝ) (rows : List ρ) :
    sorted key rows = OrderBy.placed key rows := by
  rw [sorted_eq_placed fun r _ => PyFloat.isNumber_real (key r)]
  exact OrderBy.placed_strictMono WithBot.coe_strictMono key rows

/-! ## NaN first -/

/-- The key at a position is a NaN. -/
def IsNaNAt (keys : List F) (i : ℕ) : Bool := keys[i]?.any fun x => ¬IsNumber x

/-- A sort that puts the keys in two heaps if one of them is a NaN: first those that are, then the
numbers. -/
abbrev nanFirst (F : Type) {K : Type} [Zero F] [Zero K] [LinearOrder K] [PyFloat F K] :
    FloatSort F where
  order keys :=
    if ∀ x ∈ keys, IsNumber x then (OrderBy.placed value keys).map Prod.snd
    else
      (List.range keys.length).filter (IsNaNAt keys) ++
        (List.range keys.length).filter fun i => !IsNaNAt keys i
  order_perm keys := by
    split_ifs
    · rw [List.range_eq_range', ← List.zipIdx_map_snd 0 keys]
      exact (OrderBy.perm_placed value keys).map Prod.snd
    · exact List.filter_append_perm _ _
  order_of_isNumber keys h := if_pos h

/-- `IsNaNAt` tells whether the key at this place is no number. -/
theorem isNaNAt_iff {keys : List F} {i : ℕ} :
    IsNaNAt keys i = true ↔ ∃ x, keys[i]? = some x ∧ ¬IsNumber x := by
  simp [IsNaNAt, Option.any_eq_true]

/-- With a NaN among the keys, `nanFirst` returns a row with one first. -/
theorem exists_sorted_nanFirst {r : ρ} (hr : r ∈ rows) (hnan : ¬IsNumber (key r)) :
    ∃ x rest, (nanFirst F).sorted key rows = x :: rest ∧ ¬IsNumber (key x.1) := by
  have hkeys : ¬∀ x ∈ rows.map key, IsNumber x := fun h => hnan (h _ (List.mem_map_of_mem hr))
  obtain ⟨j, hj⟩ := List.getElem?_of_mem (List.mem_map_of_mem (f := key) hr)
  have hlt : j < (rows.map key).length := (List.getElem?_eq_some_iff.mp hj).1
  have hmem : j ∈ (List.range (rows.map key).length).filter (IsNaNAt (rows.map key)) :=
    List.mem_filter.mpr ⟨List.mem_range.mpr hlt, isNaNAt_iff.mpr ⟨_, hj, hnan⟩⟩
  obtain ⟨i, positions, hpositions⟩ := List.exists_cons_of_ne_nil (List.ne_nil_of_mem hmem)
  -- the first position is that of a row with a NaN
  have hi : IsNaNAt (rows.map key) i = true :=
    (List.mem_filter.mp (hpositions ▸ List.mem_cons_self)).2
  obtain ⟨x, hx, hnanx⟩ := isNaNAt_iff.mp hi
  rw [List.getElem?_map, Option.map_eq_some_iff] at hx
  obtain ⟨row, hrow, rfl⟩ := hx
  obtain ⟨rest, hrest⟩ : ∃ rest, (nanFirst F).order (rows.map key) = i :: rest :=
    ⟨_, (if_neg hkeys).trans (congrArg (· ++ _) hpositions)⟩
  have hplaced : rows[i]?.map (·, i) = some (row, i) := by rw [hrow, Option.map_some]
  refine ⟨(row, i), rest.filterMap fun i => rows[i]?.map (·, i), ?_, hnanx⟩
  unfold sorted
  rw [hrest]
  exact List.filterMap_cons_some (f := fun i => rows[i]?.map (·, i)) hplaced

end FloatSort
