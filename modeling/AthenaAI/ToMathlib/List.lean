import Mathlib.Algebra.BigOperators.Group.List.Basic
import Mathlib.Data.List.Flatten
import Mathlib.Tactic.Abel

/-!
# Facts about lists

* `List.getElem?_concat_eq_some_iff`: the elements, by position, of a list that has grown at its
  end;
* `List.getElem?_foldl_set`: what stands in a list of slots after some of them have been filled;
* `List.sum_map_set`: a sum in which one summand has been replaced;
* `List.eq_of_map_eq_map`: lists with the same image under a function that tells their elements
  apart;
* `List.exists_intercalate_cons`: a joined list starts with its first part;
* `List.splitOn_isSuffix_iff`: what the pieces of a list have to do with those of a longer one;
* `List.exists_eq_append_cons_of_lt`: the element with a given number of others after it;
* `List.pairwise_iff_forall_of_asymm`: a relation between earlier and later elements, in a list that
  stands in some order;
* `List.countP_take_eq_min_iff`: whether a condition that is checked after the first `k` elements
  have been taken keeps as many as one that is checked before that;
* `List.lookup_map_snd`: what an association list has at a key after its values have been changed;
* `List.eraseDups_concat`: the different elements of a list that has grown at its end;
* `List.flatMap_eq_flatMap_iff`: two images of a list, one of which has fewer elements everywhere.
-/

namespace List

variable {α : Type*}

/-- An element of a list that has grown by one is an old one at its old place, or the last one. -/
theorem getElem?_concat_eq_some_iff {l : List α} {a b : α} {i : ℕ} :
    (l ++ [a])[i]? = some b ↔ l[i]? = some b ∨ (i = l.length ∧ a = b) := by
  rcases Nat.lt_trichotomy i l.length with hlt | rfl | hgt
  · rw [getElem?_append_left hlt]
    exact (or_iff_left fun h => absurd h.1 (Nat.ne_of_lt hlt)).symm
  · rw [getElem?_concat_length, getElem?_eq_none (Nat.le_refl _)]
    simp
  · rw [getElem?_eq_none (by simpa using Nat.succ_le_of_lt hgt),
      getElem?_eq_none (Nat.le_of_lt hgt)]
    exact ⟨nofun, fun h => absurd (h.resolve_left nofun).1 (Nat.ne_of_gt hgt)⟩

/-- Slots that are filled one after the other, in any order, each with what belongs to it: those in
the order are filled, and the others are as before. -/
theorem getElem?_foldl_set (f : ℕ → α) (order : List ℕ) (slots : List α) (i : ℕ) :
    (order.foldl (fun slots j => slots.set j (f j)) slots)[i]? =
      if i ∈ order ∧ i < slots.length then some (f i) else slots[i]? := by
  induction order generalizing slots with
  | nil => simp
  | cons j order ih =>
    rw [foldl_cons, ih, length_set, getElem?_set]
    by_cases hij : j = i
    · subst hij
      by_cases hlt : j < slots.length
      · simp [hlt]
      · simp [hlt]
    · have hne : i ≠ j := Ne.symm hij
      simp [hij, hne]

/-- Replacing one element of a list replaces one summand of the sum of `f` over it. -/
theorem sum_map_set {M : Type*} [AddCommMonoid M] (f : α → M) {l : List α} {i : ℕ} {a : α}
    (ha : l[i]? = some a) (a' : α) : ((l.set i a').map f).sum + f a = (l.map f).sum + f a' := by
  induction l generalizing i with
  | nil => simp at ha
  | cons b l ih =>
    cases i with
    | zero =>
      obtain rfl : b = a := by simpa using ha
      simp only [set_cons_zero, map_cons, sum_cons]
      abel
    -- the summand is further on
    | succ i =>
      have hrest := ih (i := i) (by simpa using ha)
      simp only [set_cons_succ, map_cons, sum_cons, add_assoc, hrest]

/-- A function that tells the elements of `l` apart tells lists of such elements apart. -/
theorem eq_of_map_eq_map {β : Type*} {f : α → β} {l xs ys : List α}
    (hf : ∀ a ∈ l, ∀ b ∈ l, f a = f b → a = b) (hxs : xs ⊆ l) (hys : ys ⊆ l)
    (h : xs.map f = ys.map f) : xs = ys := by
  induction xs generalizing ys with
  | nil => exact (map_eq_nil_iff.mp h.symm).symm
  | cons x xs ih =>
    obtain ⟨y, ys, rfl, hy, hrest⟩ := map_eq_cons_iff.mp h.symm
    obtain ⟨hx, hxs⟩ := cons_subset.mp hxs
    obtain ⟨hy', hys⟩ := cons_subset.mp hys
    rw [hf x hx y hy' hy.symm, ih hxs hys hrest.symm]

/-- In a list of more than `n` elements, some element has `n` others after it. -/
theorem exists_eq_append_cons_of_lt {l : List α} {n : ℕ} (h : n < l.length) :
    ∃ before a after, l = before ++ a :: after ∧ after.length = n := by
  have hlength : (l.drop (l.length - (n + 1))).length = n + 1 := by
    rw [length_drop]
    omega
  obtain ⟨a, after, hdrop⟩ := exists_cons_of_length_eq_add_one hlength
  rw [hdrop] at hlength
  exact ⟨l.take (l.length - (n + 1)), a, after, by rw [← hdrop, take_append_drop],
    Nat.succ.inj hlength⟩

/-- In a list that stands in some order, what holds between every element and the later ones holds
between every element and those that come after it in that order. -/
theorem pairwise_iff_forall_of_asymm {R S : α → α → Prop} {l : List α}
    (hasymm : ∀ a b, S a b → ¬S b a) (hS : l.Pairwise S) :
    l.Pairwise R ↔ ∀ a ∈ l, ∀ b ∈ l, S a b → R a b := by
  constructor
  · intro hR a ha b hb
    -- of two elements the one that comes first in the order comes first in the list
    have hsame : ∀ a ∈ l, S a a → R a a := fun a _ h => absurd h (hasymm a a h)
    have hlater : l.Pairwise fun a b => S a b → R a b := by
      refine hR.imp ?_
      exact fun h _ => h
    have hearlier : l.Pairwise fun a b => S b a → R b a := by
      refine hS.imp ?_
      exact fun h h' => absurd h' (hasymm _ _ h)
    exact hlater.forall_of_forall_of_flip hsame hearlier ha hb
  · intro hall
    exact hS.imp_of_mem fun ha hb h => hall _ ha _ hb h

/-- What is put together with separators begins with its first part. -/
theorem exists_intercalate_cons (sep x : List α) (xs : List (List α)) :
    ∃ rest, sep.intercalate (x :: xs) = x ++ rest := by
  cases xs with
  | nil => exact ⟨[], by simp⟩
  | cons y xs => exact ⟨sep ++ sep.intercalate (y :: xs), by simp⟩

theorem intercalate_append (sep : List α) {xs ys : List (List α)} (hxs : xs ≠ []) (hys : ys ≠ []) :
    sep.intercalate (xs ++ ys) = sep.intercalate xs ++ (sep ++ sep.intercalate ys) := by
  induction xs with
  | nil => exact absurd rfl hxs
  | cons x xs ih =>
    rw [cons_append, intercalate_cons_of_ne_nil (append_ne_nil_of_right_ne_nil xs hys)]
    rcases eq_or_ne xs [] with rfl | hne
    · rw [nil_append, intercalate_singleton, append_assoc]
    · rw [ih hne, intercalate_cons_of_ne_nil hne, append_assoc, append_assoc, append_assoc]

/-- The pieces of `ys` are the last ones of `xs`, exactly if `xs` is `ys` or ends with it after a
separator. -/
theorem splitOn_isSuffix_iff [DecidableEq α] (a : α) {xs ys : List α} :
    ys.splitOn a <:+ xs.splitOn a ↔ xs = ys ∨ a :: ys <:+ xs := by
  constructor
  · rintro ⟨before, heq⟩
    have hxs : [a].intercalate (xs.splitOn a) = xs := intercalate_splitOn a
    rw [← heq] at hxs
    rcases eq_or_ne before [] with rfl | hne
    · left
      rw [nil_append, intercalate_splitOn] at hxs
      exact hxs.symm
    · right
      rw [intercalate_append [a] hne (splitOn_ne_nil a ys), intercalate_splitOn] at hxs
      exact ⟨_, hxs⟩
  · rintro (rfl | ⟨before, rfl⟩)
    · exact suffix_refl _
    · have hsplit : (before ++ a :: ys).splitOn a = before.splitOn a ++ ys.splitOn a :=
        splitOnP_append_cons before ys (beq_self_eq_true a)
      rw [hsplit]
      exact suffix_append _ _

/-- If a list is replaced, element by element, by lists and by sublists of them, the results are
equal only if all of the lists are. -/
theorem flatMap_eq_flatMap_iff {β : Type*} {f g : α → List β} {l : List α}
    (h : ∀ a ∈ l, (f a).Sublist (g a)) : l.flatMap f = l.flatMap g ↔ ∀ a ∈ l, f a = g a := by
  induction l with
  | nil => exact iff_of_true rfl (forall_mem_nil _)
  | cons a l ih =>
    obtain ⟨ha, hl⟩ := forall_mem_cons.mp h
    rw [flatMap_cons, flatMap_cons, forall_mem_cons, ← ih hl]
    constructor
    · intro heq
      have hrest : (l.flatMap f).Sublist (l.flatMap g) := Sublist.flatMap_right l hl
      have hlength := congrArg length heq
      rw [length_append, length_append] at hlength
      have hle := ha.length_le
      have hle' := hrest.length_le
      exact ⟨ha.eq_of_length (by omega), hrest.eq_of_length (by omega)⟩
    · rintro ⟨hhead, htail⟩
      rw [hhead, htail]

/-- What a condition keeps of the first `k` elements is the beginning of what it keeps of all. -/
theorem filter_take_eq (p : α → Bool) (l : List α) (k : ℕ) :
    (l.take k).filter p = (l.filter p).take ((l.take k).countP p) := by
  have hsplit : l.filter p = (l.take k).filter p ++ (l.drop k).filter p := by
    rw [← filter_append, take_append_drop]
  rw [hsplit, countP_eq_length_filter, take_left]

/-- As many of the first `k` elements satisfy a condition as could, exactly if all of them do or
none of the others does. -/
theorem countP_take_eq_min_iff (p : α → Bool) (l : List α) (k : ℕ) :
    (l.take k).countP p = min k (l.countP p) ↔
      (∀ a ∈ l.take k, p a) ∨ ∀ a ∈ l.drop k, ¬p a := by
  have hsplit : l.countP p = (l.take k).countP p + (l.drop k).countP p := by
    rw [← countP_append, take_append_drop]
  have hle : (l.take k).countP p ≤ (l.take k).length := countP_le_length
  have hlength : (l.take k).length = min k l.length := length_take
  rw [← countP_eq_length, ← countP_eq_zero]
  rcases Nat.le_total k l.length with hk | hk
  · rw [Nat.min_eq_left hk] at hlength
    omega
  · have hnil : (l.drop k).countP p = 0 := by rw [drop_eq_nil_of_le hk, countP_nil]
    omega

/-- `lookup` in a list whose values are changed by their keys finds the changed value. -/
theorem lookup_map_snd {β γ : Type*} [BEq α] [LawfulBEq α] (f : α → β → γ) (l : List (α × β))
    (a : α) : (l.map fun e => (e.1, f e.1 e.2)).lookup a = (l.lookup a).map (f a) := by
  induction l with
  | nil => rfl
  | cons e l ih =>
    rw [map_cons, lookup_cons, lookup_cons, ih]
    by_cases heq : a = e.1
    · rw [heq, beq_self_eq_true]
      rfl
    · rw [beq_eq_false_iff_ne.mpr heq]

section EraseDups

variable [DecidableEq α]

theorem eraseDups_of_nodup {l : List α} (h : l.Nodup) : l.eraseDups = l := by
  induction l with
  | nil => rfl
  | cons a l ih =>
    obtain ⟨hnotMem, hnodup⟩ := nodup_cons.mp h
    have hfilter : (l.filter fun b => !b == a) = l :=
      filter_eq_self.mpr fun b hb => by simpa using ne_of_mem_of_not_mem hb hnotMem
    rw [eraseDups_cons, hfilter, ih hnodup]

/-- `eraseDups` keeps the last element of a list exactly if it is a new one. -/
theorem eraseDups_concat (l : List α) (a : α) :
    (l ++ [a]).eraseDups = if a ∈ l then l.eraseDups else l.eraseDups ++ [a] := by
  rw [eraseDups_append]
  have hsingle : [a].eraseDups = [a] := eraseDups_of_nodup (pairwise_singleton _ a)
  split_ifs with hmem
  · simp [removeAll, hmem]
  · simp [removeAll, hmem, hsingle]

end EraseDups

end List
