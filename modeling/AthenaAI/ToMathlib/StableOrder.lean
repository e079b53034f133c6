import AthenaAI.ToMathlib.List
import AthenaAI.ToMathlib.OrderBy
import Mathlib.Data.List.TakeWhile

/-!
# Where a stable sort puts a row

`OrderBy.stable` orders rows by a key, the greatest first, and keeps rows with equal keys in their
order. Here every row is taken together with its position in the table, so that rows with equal
values are told apart.

* `OrderBy.placed` are the rows in that order, each with its position. They stand in the order
  `OrderBy.Before`: by key, and then by position (`pairwise_placed`).
* `placed_strictMono`: only the order of the keys matters, so keys of another type may be taken.
* `OrderBy.place` is how many rows come before one with a given key and position. The row is among
  the first `n` exactly if it is less than `n` (`mem_take_placed_iff`).
-/

namespace OrderBy

variable {ρ κ κ' : Type*} [LinearOrder κ]

/-- The rows in the stable order, each with its position in the table. -/
def placed (key : ρ → κ) (rows : List ρ) : List (ρ × ℕ) :=
  stable (fun x => key x.1) rows.zipIdx

/-- A row comes before another one: its key is greater, or it has the same key and a smaller
position. -/
def Before (key : ρ → κ) (x y : ρ × ℕ) : Prop :=
  key y.1 < key x.1 ∨ key x.1 = key y.1 ∧ x.2 < y.2

instance (key : ρ → κ) (x y : ρ × ℕ) : Decidable (Before key x y) :=
  inferInstanceAs (Decidable (key y.1 < key x.1 ∨ key x.1 = key y.1 ∧ x.2 < y.2))

/-- How many rows come before one with key `k` at position `i`. -/
def place (key : ρ → κ) (rows : List ρ) (k : κ) (i : ℕ) : ℕ :=
  rows.countP (fun r => k < key r) + (rows.take i).countP fun r => key r = k

variable {key : ρ → κ} {rows : List ρ} {x y z : ρ × ℕ}

/-! ## The order of the rows -/

theorem Before.asymm (h : Before key x y) : ¬Before key y x := by
  rintro (h' | ⟨heq', h'⟩)
  · rcases h with h | ⟨heq, -⟩
    · exact absurd h' h.asymm
    · exact absurd h' heq.not_lt
  · rcases h with h | ⟨-, h⟩
    · exact absurd h heq'.not_lt
    · exact absurd h' h.asymm

/-- In a descending list the rows with keys above `k` stand at the front, so what `dropWhile` leaves
has none of them. -/
theorem le_of_mem_dropWhile {k : κ} (hrows : rows.Pairwise fun r r' => key r' ≤ key r) :
    ∀ r ∈ rows.dropWhile fun r => ¬key r ≤ k, key r ≤ k := by
  induction rows with
  | nil => exact List.forall_mem_nil _
  | cons a rows ih =>
    obtain ⟨ha, hrows⟩ := List.pairwise_cons.mp hrows
    by_cases hk : key a ≤ k
    · rw [List.dropWhile_cons_of_neg (by simpa using hk)]
      exact List.forall_mem_cons.mpr ⟨hk, fun r hr => (ha r hr).trans hk⟩
    · rw [List.dropWhile_cons_of_pos (by simpa using hk)]
      exact ih hrows

/-- `stable` keeps a relation between earlier and later rows wherever the keys are equal. -/
theorem pairwise_stable {S : ρ → ρ → Prop} (hrows : rows.Pairwise S) :
    (stable key rows).Pairwise fun r r' => key r' < key r ∨ key r = key r' ∧ S r r' := by
  induction rows with
  | nil => exact List.Pairwise.nil
  | cons a rows ih =>
    obtain ⟨ha, hrows⟩ := List.pairwise_cons.mp hrows
    have hmem {r : ρ} (hr : r ∈ stable key rows) : S a r :=
      ha r ((isAnswer_stable key rows).mem_iff.mp hr)
    -- the new row goes behind those with a greater key
    have hsplit : stable key (a :: rows) =
        ((stable key rows).takeWhile fun r => ¬key r ≤ key a) ++
          a :: (stable key rows).dropWhile fun r => ¬key r ≤ key a :=
      List.insertionSort_cons_eq_take_drop _ _ _
    have hsorted := ih hrows
    rw [← List.takeWhile_append_dropWhile (p := fun r => ¬key r ≤ key a) (l := stable key rows)]
      at hsorted
    obtain ⟨hfront, hback, hcross⟩ := List.pairwise_append.mp hsorted
    rw [hsplit]
    refine List.pairwise_append.mpr ⟨hfront, List.pairwise_cons.mpr ⟨fun r hr => ?_, hback⟩, ?_⟩
    · have hle := le_of_mem_dropWhile (isAnswer_stable key rows).descending r hr
      have hS := hmem ((List.dropWhile_sublist _).subset hr)
      exact hle.lt_or_eq.imp id fun heq => ⟨heq.symm, hS⟩
    · intro r hr r' hr'
      rcases List.mem_cons.mp hr' with rfl | hr'
      · exact .inl (not_le.mp (by simpa using List.mem_takeWhile_imp hr))
      · exact hcross r hr r' hr'

theorem pairwise_zipIdx (rows : List ρ) :
    rows.zipIdx.Pairwise fun x y => x.2 < y.2 := by
  have hpositions : (rows.zipIdx.map Prod.snd).Pairwise (· < ·) := by
    rw [List.zipIdx_map_snd]
    exact List.pairwise_lt_range'
  rw [List.pairwise_map] at hpositions
  exact hpositions

/-- `placed` lists the rows in the order `Before`: by their keys, and by their positions where these
are equal. -/
theorem pairwise_placed (key : ρ → κ) (rows : List ρ) : (placed key rows).Pairwise (Before key) :=
  pairwise_stable (pairwise_zipIdx rows)

/-- `placed` has every row of the list once, with the position that it had. -/
theorem perm_placed (key : ρ → κ) (rows : List ρ) : (placed key rows).Perm rows.zipIdx :=
  (isAnswer_stable _ _).perm

theorem mem_placed_iff : x ∈ placed key rows ↔ rows[x.2]? = some x.1 := by
  rw [(perm_placed key rows).mem_iff, List.mem_zipIdx_iff_getElem?]

theorem length_placed (key : ρ → κ) (rows : List ρ) : (placed key rows).length = rows.length := by
  rw [(perm_placed key rows).length_eq, List.length_zipIdx]

/-- `placed` depends on the keys only: changing the rows and keeping the keys changes no
position. -/
theorem map_placed (f : κ' → κ) (key : ρ → κ') (rows : List ρ) :
    (placed (fun r => f (key r)) rows).map (Prod.map key id) = placed f (rows.map key) := by
  have hmap := List.map_insertionSort (fun x y : ρ × ℕ => f (key y.1) ≤ f (key x.1))
    (fun x y : κ' × ℕ => f y.1 ≤ f x.1) (Prod.map key id) rows.zipIdx fun _ _ _ _ => Iff.rfl
  rw [← List.zipIdx_map] at hmap
  exact hmap

/-- A strictly increasing function of the keys, into whatever order, leaves `placed` as it is. -/
theorem placed_strictMono [LinearOrder κ'] {f : κ → κ'} (hf : StrictMono f) (key : ρ → κ)
    (rows : List ρ) : placed (fun r => f (key r)) rows = placed key rows := by
  have hmap := List.map_insertionSort (fun x y : ρ × ℕ => f (key y.1) ≤ f (key x.1))
    (fun x y : ρ × ℕ => key y.1 ≤ key x.1) id rows.zipIdx fun _ _ _ _ => hf.le_iff_le
  rwa [List.map_id, List.map_id] at hmap

/-- With a row among the first `n` of `placed` are all those that come `Before` it. -/
theorem mem_take_of_before {n : ℕ} (hx : x ∈ (placed key rows).take n) (hy : y ∈ placed key rows)
    (hbefore : Before key y x) : y ∈ (placed key rows).take n := by
  have hordered := pairwise_placed key rows
  rw [← List.take_append_drop n (placed key rows)] at hordered hy
  obtain ⟨-, -, hcross⟩ := List.pairwise_append.mp hordered
  exact (List.mem_append.mp hy).resolve_right fun hy => hbefore.asymm (hcross x hx y hy)

/-! ## The place of a row -/

/-- `place` depends on the keys only, so it can be computed from their list. -/
theorem place_id_map (key : ρ → κ) (rows : List ρ) (k : κ) (i : ℕ) :
    place id (rows.map key) k i = place key rows k i := by
  simp only [place, ← List.map_take, List.countP_map]
  rfl

/-- Counting the rows that come before a key and a position: those of greater keys, and those of the
same key at earlier positions. -/
theorem countP_zipIdx (k : κ) (i offset : ℕ) :
    (rows.zipIdx offset).countP (fun y => k < key y.1 ∨ key y.1 = k ∧ y.2 < i) =
      rows.countP (fun r => k < key r) + (rows.take (i - offset)).countP fun r => key r = k := by
  induction rows generalizing offset with
  | nil => simp
  | cons r rows ih =>
    rw [List.zipIdx_cons, List.countP_cons, ih, List.countP_cons]
    by_cases hi : offset < i
    -- the first row is before position `i`
    · obtain ⟨m, rfl⟩ := Nat.exists_eq_add_of_lt hi
      rw [show offset + m + 1 - offset = m + 1 by omega,
        show offset + m + 1 - (offset + 1) = m by omega, List.take_succ_cons, List.countP_cons]
      rcases lt_trichotomy k (key r) with hlt | rfl | hgt
      · simp [hlt, hlt.ne', Nat.add_right_comm]
      · simp [Nat.add_assoc]
      · simp [hgt.asymm, hgt.ne]
    · rw [Nat.sub_eq_zero_of_le (not_lt.mp hi), Nat.sub_eq_zero_of_le (by omega)]
      simp [hi]

/-- A row is among the first `n` of `placed` exactly if its `place` is below `n`. -/
theorem mem_take_placed_iff {n : ℕ} (hx : rows[x.2]? = some x.1) :
    x ∈ (placed key rows).take n ↔ place key rows (key x.1) x.2 < n := by
  have hcount : (placed key rows).countP (fun y => Before key y x) =
      place key rows (key x.1) x.2 := by
    rw [(perm_placed key rows).countP_eq]
    exact countP_zipIdx (key x.1) x.2 0
  have hordered := pairwise_placed key rows
  have hmem : x ∈ placed key rows := mem_placed_iff.mpr hx
  obtain ⟨before, after, hsplit⟩ := List.append_of_mem hmem
  rw [hsplit] at hordered hcount ⊢
  obtain ⟨-, hafter, hbefore⟩ := List.pairwise_append.mp hordered
  -- exactly the rows in front of it come before it
  have hall : before.countP (fun y => Before key y x) = before.length :=
    List.countP_eq_length.mpr fun y hy => decide_eq_true (hbefore y hy x List.mem_cons_self)
  have hnone : (x :: after).countP (fun y => Before key y x) = 0 := by
    refine List.countP_eq_zero.mpr fun y hy => ?_
    rw [decide_eq_true_iff]
    rcases List.mem_cons.mp hy with rfl | hy
    · exact fun h => h.asymm h
    · exact (List.rel_of_pairwise_cons hafter hy).asymm
  rw [List.countP_append, hall, hnone, Nat.add_zero] at hcount
  rw [← hcount]
  refine ⟨fun htake => ?_, mem_take_append_cons⟩
  by_contra hle
  rw [List.take_append_of_le_length (not_lt.mp hle)] at htake
  have hself := hbefore x (List.mem_of_mem_take htake) x List.mem_cons_self
  exact hself.asymm hself

end OrderBy
