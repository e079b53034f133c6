import Mathlib.Data.List.Forall2

/-!
# Computations that may fail

What a sequence of computations in `Except ε` returns.

* `Except.bind_eq_ok_iff`: a sequence of two returns exactly if both do;
* `Except.mapM_eq_ok_iff`: `List.mapM` returns exactly the list of what the function returns on the
  elements, in their order; `Except.mem_of_mapM` says so of the elements of the two lists;
* `List.forall₂_iff_getElem?` turns that into a statement about positions;
* `Except.error?` is the error of a computation that fails;
* `Except.exists_mapM_eq_ok_iff`: it returns exactly if the function returns on every element;
* `Except.forM_eq`: a loop ends as it does on the first element on which it fails.
-/

/-- Two lists match if they are of one length and match in every position. -/
theorem List.forall₂_iff_getElem? {α β : Type*} {R : α → β → Prop} {xs : List α} {ys : List β} :
    List.Forall₂ R xs ys ↔
      ys.length = xs.length ∧ ∀ (j : ℕ) x, xs[j]? = some x → ∃ y, ys[j]? = some y ∧ R x y := by
  induction xs generalizing ys with
  | nil => simp [List.forall₂_nil_left_iff]
  | cons x xs ih =>
    rw [List.forall₂_cons_left_iff]
    constructor
    · rintro ⟨y, ys, hxy, hrest, rfl⟩
      obtain ⟨hlength, hall⟩ := ih.mp hrest
      refine ⟨congrArg (· + 1) hlength, fun j x' hx => ?_⟩
      -- position `0` is the heads, the others are in the tails
      cases j with
      | zero => exact ⟨y, rfl, Option.some.inj hx ▸ hxy⟩
      | succ j => exact hall j x' hx
    · rintro ⟨hlength, hall⟩
      obtain ⟨y, ys, rfl⟩ := List.exists_cons_of_length_eq_add_one hlength
      obtain ⟨_, hy, hxy⟩ := hall 0 x rfl
      obtain rfl := Option.some.inj hy
      refine ⟨y, ys, hxy, ih.mpr ⟨Nat.succ.inj hlength, fun j x' hx => ?_⟩, rfl⟩
      exact hall (j + 1) x' hx

namespace Except

variable {ε α β : Type}

/-- The error of a computation that fails. -/
def error? : Except ε α → Option ε
  | .ok _ => none
  | .error e => some e

/-- `error?` is the exception of a failed computation, and nothing of one that has returned. -/
theorem error?_eq_some_iff {x : Except ε α} {e : ε} : x.error? = some e ↔ x = .error e := by
  cases x <;> simp [error?]

/-- `isOk` says that there is a value: the form in which `cases` is done on the result of a
computation. -/
theorem isOk_eq_true_iff {x : Except ε α} : x.isOk = true ↔ ∃ a, x = .ok a := by
  cases x with
  | ok a => exact iff_of_true rfl ⟨a, rfl⟩
  | error e => exact iff_of_false Bool.false_ne_true nofun

/-- `isOk` is false exactly if there is an exception. -/
theorem isOk_eq_false_iff {x : Except ε α} : x.isOk = false ↔ ∃ e, x = .error e := by
  cases x with
  | ok a => exact iff_of_false Bool.true_eq_false.mp nofun
  | error e => exact iff_of_true rfl ⟨e, rfl⟩

/-- A computation that has raised has not returned. -/
theorem ne_ok_of_eq_error {x : Except ε α} {e : ε} (h : x = .error e) (a : α) : x ≠ .ok a := by
  rw [h]
  exact nofun

/-- A sequence of two computations returns exactly if the first one does and the second does on what
the first returns. -/
theorem bind_eq_ok_iff {x : Except ε α} {f : α → Except ε β} {b : β} :
    (x >>= f) = .ok b ↔ ∃ a, x = .ok a ∧ f a = .ok b := by
  cases x with
  | error e =>
    constructor
    · intro h
      cases h
    · rintro ⟨a, ha, -⟩
      cases ha
  | ok a =>
    constructor
    · exact fun h => ⟨a, rfl, h⟩
    · rintro ⟨a', ha, hb⟩
      obtain rfl := Except.ok.inj ha
      exact hb

/-- A sequence of two computations fails exactly if the first one does, or the first one returns and
the second one fails. -/
theorem bind_eq_error_iff {x : Except ε α} {f : α → Except ε β} {e : ε} :
    (x >>= f) = .error e ↔ x = .error e ∨ ∃ a, x = .ok a ∧ f a = .error e := by
  cases x with
  | error e' =>
    constructor
    · exact fun h => Or.inl (congrArg Except.error (Except.error.inj h))
    · rintro (h | ⟨a, ha, -⟩)
      · exact congrArg Except.error (Except.error.inj h)
      · cases ha
  | ok a =>
    constructor
    · exact fun h => Or.inr ⟨a, rfl, h⟩
    · rintro (h | ⟨a', ha, h⟩)
      · cases h
      · obtain rfl := Except.ok.inj ha
        exact h

/-- A mapped computation succeeds with the image of a value, and fails with the same exception as
before. -/
theorem map_eq_ok_iff {x : Except ε α} {f : α → β} {b : β} :
    f <$> x = .ok b ↔ ∃ a, x = .ok a ∧ f a = b := by
  cases x <;> simp [Functor.map, Except.map]

theorem map_eq_error_iff {x : Except ε α} {f : α → β} {e : ε} :
    f <$> x = .error e ↔ x = .error e := by
  cases x <;> simp [Functor.map, Except.map]

/-- `mapM` returns a list exactly if the function returns its elements, one by one on those of the
argument. -/
theorem mapM_eq_ok_iff {f : α → Except ε β} {xs : List α} {ys : List β} :
    xs.mapM f = .ok ys ↔ List.Forall₂ (fun x y => f x = .ok y) xs ys := by
  induction xs generalizing ys with
  | nil =>
    rw [List.mapM_nil, List.forall₂_nil_left_iff]
    constructor
    · exact fun h => (Except.ok.inj h).symm
    · rintro rfl
      rfl
  | cons x xs ih =>
    rw [List.mapM_cons, bind_eq_ok_iff, List.forall₂_cons_left_iff]
    constructor
    -- the first element, then the others
    · rintro ⟨y, hy, hrest⟩
      obtain ⟨rest, hmap, hcons⟩ := bind_eq_ok_iff.mp hrest
      exact ⟨y, rest, hy, ih.mp hmap, (Except.ok.inj hcons).symm⟩
    · rintro ⟨y, rest, hy, hforall, rfl⟩
      exact ⟨y, hy, bind_eq_ok_iff.mpr ⟨rest, ih.mpr hforall, rfl⟩⟩

/-- What `mapM` returns has the values of all the elements and no others. -/
theorem mem_of_mapM {f : α → Except ε β} {xs : List α} {ys : List β} (h : xs.mapM f = .ok ys) :
    (∀ y ∈ ys, ∃ x ∈ xs, f x = .ok y) ∧ ∀ x ∈ xs, ∃ y ∈ ys, f x = .ok y := by
  have hforall := mapM_eq_ok_iff.mp h
  clear h
  induction hforall with
  | nil => exact ⟨List.forall_mem_nil _, List.forall_mem_nil _⟩
  | @cons x y xs ys hxy _ ih =>
    constructor
    · refine List.forall_mem_cons.mpr ⟨⟨x, List.mem_cons_self, hxy⟩, fun y' hy' => ?_⟩
      obtain ⟨x', hx', hxy'⟩ := ih.1 y' hy'
      exact ⟨x', List.mem_cons_of_mem _ hx', hxy'⟩
    · refine List.forall_mem_cons.mpr ⟨⟨y, List.mem_cons_self, hxy⟩, fun x' hx' => ?_⟩
      obtain ⟨y', hy', hxy'⟩ := ih.2 x' hx'
      exact ⟨y', List.mem_cons_of_mem _ hy', hxy'⟩

/-- `mapM` returns exactly if the function returns on every element. -/
theorem exists_mapM_eq_ok_iff {f : α → Except ε β} {xs : List α} :
    (∃ ys, xs.mapM f = .ok ys) ↔ ∀ x ∈ xs, ∃ y, f x = .ok y := by
  simp only [mapM_eq_ok_iff]
  induction xs with
  | nil => exact iff_of_true ⟨[], .nil⟩ fun x hx => absurd hx List.not_mem_nil
  | cons x xs ih =>
    rw [List.forall_mem_cons, ← ih]
    constructor
    · rintro ⟨_, hforall⟩
      obtain ⟨y, ys, hy, hys, -⟩ := List.forall₂_cons_left_iff.mp hforall
      exact ⟨⟨y, hy⟩, ys, hys⟩
    · rintro ⟨⟨y, hy⟩, ys, hys⟩
      exact ⟨y :: ys, .cons hy hys⟩

/-- A loop with `forM` ends as the function does on the first element on which it fails, or well if
there is none. -/
theorem forM_eq (f : α → Except ε Unit) (xs : List α) :
    forM xs f = match xs.find? fun x => !(f x).isOk with
      | none => .ok ()
      | some x => f x := by
  induction xs with
  | nil => rfl
  | cons x xs ih =>
    rw [List.forM_cons]
    cases hx : f x with
    | ok =>
      rw [List.find?_cons_of_neg (by simp [hx, Except.isOk, Except.toBool])]
      exact ih
    | error e =>
      rw [List.find?_cons_of_pos (by simp [hx, Except.isOk, Except.toBool])]
      exact hx.symm

end Except
