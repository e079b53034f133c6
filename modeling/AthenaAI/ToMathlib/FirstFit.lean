import Mathlib.Algebra.BigOperators.Group.List.Basic
import Mathlib.Algebra.Order.BigOperators.Group.List
import Mathlib.Algebra.Order.Group.Defs
import Mathlib.Tactic.Abel

/-!
# First-fit packing

Items with sizes are offered one after the other to a container: an item that fits into the room
that is left is kept, any other is dropped, and the packing goes on.

* `FirstFit.room`, `FirstFit.kept` and `FirstFit.dropped` are what is left of the room and what
  becomes of the items; a list is packed by packing its parts in turn (`kept_append` and the like).
* `FirstFit.Splits`: a list is split into two, each in its order; packing splits the items into the
  kept and the dropped ones (`splits_kept_dropped`).
* `room_lt_of_mem_dropped`: no dropped item fits into the room that is left in the end.
* `kept_eq_nil_iff`: nothing is kept exactly if every item is larger than the room.
* `dropped_eq_nil_of_sum_le`, `sum_le_of_dropped_eq_nil`: nothing is dropped exactly if everything
  fits together.
* `forall_rank_le_iff`: where the items come in the order of some rank, no item is kept that ranks
  after a dropped one, exactly if no item fits into what the ranks before it leave, once these do
  not fit together.
* `sum_kept_mono`: a larger container is filled at least as far.
* `offers` are the items with the room that is left when their turns come; `pairwise_offers_iff`: no
  item is dropped after one of its size or more is kept, exactly if the items are cut by size.
-/

namespace FirstFit

variable {α M : Type*} [AddCommGroup M] [LinearOrder M] (size : α → M)

/-- The room that is left of `c` after some items. -/
def room (c : M) : List α → M
  | [] => c
  | a :: as => room (if size a ≤ c then c - size a else c) as

/-- The items that are kept. -/
def kept (c : M) : List α → List α
  | [] => []
  | a :: as => if size a ≤ c then a :: kept (c - size a) as else kept c as

/-- The items that are dropped. -/
def dropped (c : M) : List α → List α
  | [] => []
  | a :: as => if size a ≤ c then dropped (c - size a) as else a :: dropped c as

/-- The items, each with the room that is left when its turn comes. -/
def offers (c : M) : List α → List (M × α)
  | [] => []
  | a :: as => (c, a) :: offers (if size a ≤ c then c - size a else c) as

/-- Every element of the first list goes to the second or to the third one, and stays in order. -/
inductive Splits : List α → List α → List α → Prop
  | nil : Splits [] [] []
  | left {a : α} {as bs cs : List α} (h : Splits as bs cs) : Splits (a :: as) (a :: bs) cs
  | right {a : α} {as bs cs : List α} (h : Splits as bs cs) : Splits (a :: as) bs (a :: cs)

variable {size} {c : M} {a : α} {as bs : List α}

@[simp]
theorem room_nil : room size c [] = c := rfl

@[simp]
theorem kept_nil : kept size c [] = [] := rfl

@[simp]
theorem dropped_nil : dropped size c [] = [] := rfl

theorem room_cons_of_le (h : size a ≤ c) : room size c (a :: as) = room size (c - size a) as := by
  rw [room, if_pos h]

theorem room_cons_of_lt (h : c < size a) : room size c (a :: as) = room size c as := by
  rw [room, if_neg (not_le.mpr h)]

theorem kept_cons_of_le (h : size a ≤ c) :
    kept size c (a :: as) = a :: kept size (c - size a) as := by
  rw [kept, if_pos h]

theorem kept_cons_of_lt (h : c < size a) : kept size c (a :: as) = kept size c as := by
  rw [kept, if_neg (not_le.mpr h)]

theorem dropped_cons_of_le (h : size a ≤ c) :
    dropped size c (a :: as) = dropped size (c - size a) as := by
  rw [dropped, if_pos h]

theorem dropped_cons_of_lt (h : c < size a) :
    dropped size c (a :: as) = a :: dropped size c as := by
  rw [dropped, if_neg (not_le.mpr h)]

/-- Every item is `kept` or `dropped`, and both lists have their items in the order of the input. -/
theorem splits_kept_dropped : Splits as (kept size c as) (dropped size c as) := by
  induction as generalizing c with
  | nil => exact .nil
  | cons a as ih =>
    rcases le_or_gt (size a) c with h | h
    · rw [kept_cons_of_le h, dropped_cons_of_le h]
      exact ih.left
    · rw [kept_cons_of_lt h, dropped_cons_of_lt h]
      exact ih.right

section Map

variable {β : Type*} (f : β → α) (bs : List β)

/-- First fit looks at sizes only, so it commutes with a function on the items, for what is kept,
dropped and offered. -/
theorem kept_map : kept size c (bs.map f) = (kept (size ∘ f) c bs).map f := by
  induction bs generalizing c with
  | nil => rfl
  | cons b bs ih => by_cases h : size (f b) ≤ c <;> simp [kept, h, ih]

theorem dropped_map : dropped size c (bs.map f) = (dropped (size ∘ f) c bs).map f := by
  induction bs generalizing c with
  | nil => rfl
  | cons b bs ih => by_cases h : size (f b) ≤ c <;> simp [dropped, h, ih]

theorem offers_map :
    offers size c (bs.map f) = (offers (size ∘ f) c bs).map (Prod.map id f) := by
  induction bs generalizing c with
  | nil => rfl
  | cons b bs ih => simp [offers, ih]

end Map

/-! ## Packing the parts of a list in turn -/

/-- Two lists are offered one after the other: the second one finds the room that the first one
leaves. -/
theorem room_append : room size c (as ++ bs) = room size (room size c as) bs := by
  induction as generalizing c with
  | nil => rfl
  | cons a as ih => rw [List.cons_append, room, room, ih]

theorem kept_append :
    kept size c (as ++ bs) = kept size c as ++ kept size (room size c as) bs := by
  induction as generalizing c with
  | nil => rfl
  | cons a as ih =>
    rw [List.cons_append]
    rcases le_or_gt (size a) c with h | h
    · rw [kept_cons_of_le h, kept_cons_of_le h, room_cons_of_le h, ih, List.cons_append]
    · rw [kept_cons_of_lt h, kept_cons_of_lt h, room_cons_of_lt h, ih]

theorem dropped_append :
    dropped size c (as ++ bs) = dropped size c as ++ dropped size (room size c as) bs := by
  induction as generalizing c with
  | nil => rfl
  | cons a as ih =>
    rw [List.cons_append]
    rcases le_or_gt (size a) c with h | h
    · rw [dropped_cons_of_le h, dropped_cons_of_le h, room_cons_of_le h, ih]
    · rw [dropped_cons_of_lt h, dropped_cons_of_lt h, room_cons_of_lt h, ih, List.cons_append]

theorem offers_append :
    offers size c (as ++ bs) = offers size c as ++ offers size (room size c as) bs := by
  induction as generalizing c with
  | nil => rfl
  | cons a as ih => rw [List.cons_append, offers, offers, room, ih, List.cons_append]

/-- What is `kept` and the `room` that is left make up the room there was. -/
theorem room_add_sum_kept : room size c as + ((kept size c as).map size).sum = c := by
  induction as generalizing c with
  | nil => simp
  | cons a as ih =>
    rcases le_or_gt (size a) c with h | h
    · rw [room_cons_of_le h, kept_cons_of_le h, List.map_cons, List.sum_cons, add_left_comm, ih]
      abel
    · rw [room_cons_of_lt h, kept_cons_of_lt h, ih]

theorem kept_subset : kept size c as ⊆ as := by
  induction as generalizing c with
  | nil => exact List.Subset.refl _
  | cons a as ih =>
    rcases le_or_gt (size a) c with h | h
    · rw [kept_cons_of_le h]
      exact List.cons_subset_cons a ih
    · rw [kept_cons_of_lt h]
      exact List.subset_cons_of_subset a ih

theorem dropped_subset : dropped size c as ⊆ as := by
  induction as generalizing c with
  | nil => exact List.Subset.refl _
  | cons a as ih =>
    rcases le_or_gt (size a) c with h | h
    · rw [dropped_cons_of_le h]
      exact List.subset_cons_of_subset a ih
    · rw [dropped_cons_of_lt h]
      exact List.cons_subset_cons a ih

theorem snd_mem_of_mem_offers {offer : M × α} (h : offer ∈ offers size c as) : offer.2 ∈ as := by
  induction as generalizing c with
  | nil => exact absurd h List.not_mem_nil
  | cons a as ih =>
    rcases List.mem_cons.mp h with rfl | h
    · exact List.mem_cons_self
    · exact List.mem_cons_of_mem a (ih h)

/-! ## When something is kept or dropped -/

/-- An item is `dropped` exactly where it is larger than the `room` that the items before it
leave. -/
theorem mem_dropped_iff :
    a ∈ dropped size c as ↔ ∃ pre post, as = pre ++ a :: post ∧ room size c pre < size a := by
  constructor
  · intro h
    induction as generalizing c with
    | nil => exact absurd h List.not_mem_nil
    | cons b as ih =>
      rcases le_or_gt (size b) c with hb | hb
      · rw [dropped_cons_of_le hb] at h
        obtain ⟨pre, post, rfl, hlt⟩ := ih h
        exact ⟨b :: pre, post, rfl, by rwa [room_cons_of_le hb]⟩
      · rw [dropped_cons_of_lt hb, List.mem_cons] at h
        rcases h with rfl | h
        · exact ⟨[], as, rfl, hb⟩
        · obtain ⟨pre, post, rfl, hlt⟩ := ih h
          exact ⟨b :: pre, post, rfl, by rwa [room_cons_of_lt hb]⟩
  · rintro ⟨pre, post, rfl, hlt⟩
    rw [dropped_append, dropped_cons_of_lt hlt]
    exact List.mem_append_right _ List.mem_cons_self

/-- Nothing is `kept` exactly if every item is larger than the whole room: an item that is dropped
leaves the room as it is. -/
theorem kept_eq_nil_iff : kept size c as = [] ↔ ∀ a ∈ as, c < size a := by
  induction as with
  | nil => simp
  | cons a as ih =>
    rw [List.forall_mem_cons]
    rcases le_or_gt (size a) c with h | h
    · rw [kept_cons_of_le h]
      exact iff_of_false (List.cons_ne_nil _ _) fun hall => absurd hall.1 (not_lt.mpr h)
    · rw [kept_cons_of_lt h, ih]
      exact (and_iff_right h).symm

/-! ## Items in the order of a rank -/

variable {ι : Type*} [LinearOrder ι] {rank : α → ι}

/-- Items in the order of a rank are those up to any rank, followed by the others. -/
theorem eq_filter_append_filter (hsorted : as.Pairwise fun a b => rank a ≤ rank b) (p : ι) :
    as = as.filter (fun a => rank a ≤ p) ++ as.filter fun a => p < rank a := by
  induction as with
  | nil => rfl
  | cons a as ih =>
    rw [List.pairwise_cons] at hsorted
    rcases le_or_gt (rank a) p with ha | ha
    · rw [List.filter_cons_of_pos (by simpa using ha),
        List.filter_cons_of_neg (by simpa using ha), List.cons_append, ← ih hsorted.2]
    -- from the first item of a later rank on, all are of later ranks
    · have hlater : ∀ b ∈ a :: as, p < rank b := by
        rw [List.forall_mem_cons]
        exact ⟨ha, fun b hb => ha.trans_le (hsorted.1 b hb)⟩
      rw [List.filter_eq_nil_iff.mpr fun b hb => by simpa using hlater b hb,
        List.filter_eq_self.mpr fun b hb => by simpa using hlater b hb, List.nil_append]

/-- What is `dropped` up to a rank does not depend on the items of higher ranks. -/
theorem mem_dropped_filter_iff (hsorted : as.Pairwise fun a b => rank a ≤ rank b) {p : ι} {d : α} :
    d ∈ dropped size c (as.filter fun a => rank a ≤ p) ↔ d ∈ dropped size c as ∧ rank d ≤ p := by
  have hsplit : dropped size c as = dropped size c (as.filter fun a => rank a ≤ p) ++
      dropped size (room size c (as.filter fun a => rank a ≤ p))
        (as.filter fun a => p < rank a) := by
    rw [← dropped_append, ← eq_filter_append_filter hsorted]
  rw [hsplit, List.mem_append]
  constructor
  · exact fun hd => ⟨Or.inl hd, by simpa using (List.mem_filter.mp (dropped_subset hd)).2⟩
  · rintro ⟨hd | hd, hrank⟩
    · exact hd
    · have hlater : p < rank d := by simpa using (List.mem_filter.mp (dropped_subset hd)).2
      exact absurd hrank (not_le.mpr hlater)

/-- The items above a rank are packed into the `room` that those up to it leave. -/
theorem mem_kept_filter_iff (hsorted : as.Pairwise fun a b => rank a ≤ rank b) {p : ι} {k : α} :
    k ∈ kept size (room size c (as.filter fun a => rank a ≤ p)) (as.filter fun a => p < rank a) ↔
      k ∈ kept size c as ∧ p < rank k := by
  have hsplit : kept size c as = kept size c (as.filter fun a => rank a ≤ p) ++
      kept size (room size c (as.filter fun a => rank a ≤ p)) (as.filter fun a => p < rank a) := by
    rw [← kept_append, ← eq_filter_append_filter hsorted]
  rw [hsplit, List.mem_append]
  constructor
  · exact fun hk => ⟨Or.inr hk, by simpa using (List.mem_filter.mp (kept_subset hk)).2⟩
  · rintro ⟨hk | hk, hrank⟩
    · have hearlier : rank k ≤ p := by simpa using (List.mem_filter.mp (kept_subset hk)).2
      exact absurd hrank (not_lt.mpr hearlier)
    · exact hk

/-! ## What fits together -/

variable [IsOrderedAddMonoid M]

/-- Items of non-negative sizes leave no more `room` than there was. -/
theorem room_le (hsize : ∀ a ∈ as, 0 ≤ size a) : room size c as ≤ c := by
  have hkept : 0 ≤ ((kept size c as).map size).sum := by
    refine List.sum_nonneg fun m hm => ?_
    obtain ⟨a, ha, rfl⟩ := List.mem_map.mp hm
    exact hsize a (kept_subset ha)
  calc room size c as ≤ room size c as + ((kept size c as).map size).sum :=
        le_add_of_nonneg_right hkept
    _ = c := room_add_sum_kept

/-- A `dropped` item does not fit into the `room` that is left in the end either: packing is
maximal. -/
theorem room_lt_of_mem_dropped (hsize : ∀ a ∈ as, 0 ≤ size a) (ha : a ∈ dropped size c as) :
    room size c as < size a := by
  obtain ⟨pre, post, rfl, hlt⟩ := mem_dropped_iff.mp ha
  rw [room_append]
  exact (room_le fun b hb => hsize b (List.mem_append_right _ hb)).trans_lt hlt

/-- Items that fit together are all `kept`. -/
theorem dropped_eq_nil_of_sum_le (hsize : ∀ a ∈ as, 0 ≤ size a) (h : (as.map size).sum ≤ c) :
    dropped size c as = [] := by
  induction as generalizing c with
  | nil => rfl
  | cons a as ih =>
    rw [List.forall_mem_cons] at hsize
    rw [List.map_cons, List.sum_cons] at h
    have hrest : 0 ≤ (as.map size).sum := List.sum_nonneg (by simpa using hsize.2)
    rw [dropped_cons_of_le ((le_add_of_nonneg_right hrest).trans h)]
    exact ih hsize.2 (le_sub_iff_add_le'.mpr h)

/-- If no item is `dropped`, and there are any, they fit together. -/
theorem sum_le_of_dropped_eq_nil (hnil : as ≠ []) (h : dropped size c as = []) :
    (as.map size).sum ≤ c := by
  induction as generalizing c with
  | nil => exact absurd rfl hnil
  | cons a as ih =>
    rcases le_or_gt (size a) c with ha | ha
    · rw [dropped_cons_of_le ha] at h
      rw [List.map_cons, List.sum_cons]
      -- the rest fits into the room that the first item leaves
      rcases eq_or_ne as [] with rfl | hrest
      · simpa using ha
      · exact le_sub_iff_add_le'.mp (ih hrest h)
    · rw [dropped_cons_of_lt ha] at h
      exact absurd h (List.cons_ne_nil _ _)

/-- No item is kept that ranks after a dropped one, exactly if no item fits into what the ranks up
to an earlier one leave, once these do not fit together. -/
theorem forall_rank_le_iff (hsorted : as.Pairwise fun a b => rank a ≤ rank b)
    (hsize : ∀ a ∈ as, 0 ≤ size a) :
    (∀ d ∈ dropped size c as, ∀ k ∈ kept size c as, rank k ≤ rank d) ↔
      ∀ p, c < ((as.filter fun a => rank a ≤ p).map size).sum →
        ∀ a ∈ as, p < rank a → room size c (as.filter fun a => rank a ≤ p) < size a := by
  constructor
  · intro hranks p hlarge a ha hlater
    rcases eq_or_ne (as.filter fun a => rank a ≤ p) [] with hnil | hne
    -- there is no earlier item, and no room for any
    · rw [hnil] at hlarge ⊢
      exact hlarge.trans_le (hsize a ha)
    · have hdrop : dropped size c (as.filter fun a => rank a ≤ p) ≠ [] := fun hdrop =>
        absurd (sum_le_of_dropped_eq_nil hne hdrop) (not_le.mpr hlarge)
      obtain ⟨d, hd⟩ := List.exists_mem_of_ne_nil _ hdrop
      obtain ⟨hd, hdp⟩ := (mem_dropped_filter_iff hsorted).mp hd
      -- so nothing of a later rank is kept
      have hnone : kept size (room size c (as.filter fun a => rank a ≤ p))
          (as.filter fun a => p < rank a) = [] := by
        refine List.eq_nil_iff_forall_not_mem.mpr fun k hk => ?_
        obtain ⟨hk, hkp⟩ := (mem_kept_filter_iff hsorted).mp hk
        exact absurd ((hranks d hd k hk).trans hdp) (not_le.mpr hkp)
      exact kept_eq_nil_iff.mp hnone a (List.mem_filter.mpr ⟨ha, by simpa using hlater⟩)
  · intro hroom d hd k hk
    by_contra hlt
    rw [not_le] at hlt
    have hd' := (mem_dropped_filter_iff hsorted).mpr ⟨hd, le_refl (rank d)⟩
    have hlarge : c < ((as.filter fun a => rank a ≤ rank d).map size).sum := by
      rw [← not_le]
      intro hle
      rw [dropped_eq_nil_of_sum_le (fun a ha => hsize a (List.mem_filter.mp ha).1) hle] at hd'
      exact List.not_mem_nil hd'
    have hnone := kept_eq_nil_iff.mpr fun a (ha : a ∈ as.filter fun a => rank d < rank a) =>
      hroom (rank d) hlarge a (List.mem_filter.mp ha).1 (by simpa using (List.mem_filter.mp ha).2)
    have hk' := (mem_kept_filter_iff hsorted).mpr ⟨hk, hlt⟩
    rw [hnone] at hk'
    exact List.not_mem_nil hk'

/-! ## Containers of different sizes -/

/-- What is `kept` takes no more than the room, and nothing if the room is negative. -/
theorem sum_kept_le_max : ((kept size c as).map size).sum ≤ max c 0 := by
  induction as generalizing c with
  | nil => exact le_max_right c 0
  | cons a as ih =>
    rcases le_or_gt (size a) c with h | h
    · rw [kept_cons_of_le h, List.map_cons, List.sum_cons]
      calc size a + ((kept size (c - size a) as).map size).sum
          ≤ size a + max (c - size a) 0 := add_le_add_right ih _
        _ = c := by rw [max_eq_left (sub_nonneg.mpr h), add_sub_cancel]
        _ ≤ max c 0 := le_max_left c 0
    · rw [kept_cons_of_lt h]
      exact ih

/-- A larger room is filled at least as far, though not always with the same items: where only the
larger one takes an item, this item outweighs all that the smaller one holds. -/
theorem sum_kept_mono {c' : M} (hsize : ∀ a ∈ as, 0 ≤ size a) (hle : c ≤ c') :
    ((kept size c as).map size).sum ≤ ((kept size c' as).map size).sum := by
  induction as generalizing c c' with
  | nil => exact le_rfl
  | cons a as ih =>
    rw [List.forall_mem_cons] at hsize
    rcases le_or_gt (size a) c with h | h
    -- both take the item
    · rw [kept_cons_of_le h, kept_cons_of_le (h.trans hle)]
      exact add_le_add_right (ih hsize.2 (sub_le_sub_right hle _)) _
    rcases le_or_gt (size a) c' with h' | h'
    -- only the larger one takes it, and it is larger than all that the smaller one holds
    · have hrest : 0 ≤ ((kept size (c' - size a) as).map size).sum := by
        refine List.sum_nonneg fun m hm => ?_
        obtain ⟨b, hb, rfl⟩ := List.mem_map.mp hm
        exact hsize.2 b (kept_subset hb)
      rw [kept_cons_of_lt h, kept_cons_of_le h', List.map_cons, List.sum_cons]
      calc ((kept size c as).map size).sum ≤ max c 0 := sum_kept_le_max
        _ ≤ size a := max_le h.le hsize.1
        _ ≤ size a + ((kept size (c' - size a) as).map size).sum := le_add_of_nonneg_right hrest
    · rw [kept_cons_of_lt h, kept_cons_of_lt h']
      exact ih hsize.2 hle

/-! ## Cuts by size -/

/-- In `offers` the room that an item finds only shrinks from one item to the next. -/
theorem fst_le_of_mem_offers (hsize : ∀ a ∈ as, 0 ≤ size a) {offer : M × α}
    (h : offer ∈ offers size c as) : offer.1 ≤ c := by
  induction as generalizing c with
  | nil => exact absurd h List.not_mem_nil
  | cons a as ih =>
    rw [List.forall_mem_cons] at hsize
    rcases List.mem_cons.mp h with rfl | h
    · exact le_rfl
    · refine (ih hsize.2 h).trans ?_
      split_ifs
      · exact sub_le_self c hsize.1
      · exact le_rfl

/-- No item is dropped after one of its size or more is kept, exactly if what is kept are the items
up to some size. -/
theorem pairwise_offers_iff (hsize : ∀ a ∈ as, 0 ≤ size a) :
    ((offers size c as).Pairwise fun old new =>
        size old.2 ≤ old.1 → new.1 < size new.2 → size old.2 < size new.2) ↔
      ∃ cut, ∀ offer ∈ offers size c as, size offer.2 ≤ offer.1 ↔ size offer.2 ≤ cut := by
  constructor
  · intro hpairwise
    induction as generalizing c with
    | nil => exact ⟨0, List.forall_mem_nil _⟩
    | cons a as ih =>
      rw [List.forall_mem_cons] at hsize
      rw [offers, List.pairwise_cons] at hpairwise
      obtain ⟨cut, hcut⟩ := ih hsize.2 hpairwise.2
      rw [offers]
      rcases le_or_gt (size a) c with h | h
      -- a kept item raises the cut to its size
      · refine ⟨max cut (size a), List.forall_mem_cons.mpr
          ⟨iff_of_true h (le_max_right _ _), fun offer hoffer => ?_⟩⟩
        rw [hcut offer hoffer]
        refine ⟨fun hle => hle.trans (le_max_left _ _), fun hle => ?_⟩
        by_contra hlarge
        have hdropped : offer.1 < size offer.2 := not_le.mp fun hfits =>
          hlarge ((hcut offer hoffer).mp hfits)
        have hlt : size a < size offer.2 := hpairwise.1 offer hoffer h hdropped
        exact absurd hle (not_le.mpr (max_lt (not_le.mp hlarge) hlt))
      -- a dropped item is larger than the room, and so than all that is kept later
      · refine ⟨min cut c, List.forall_mem_cons.mpr ⟨iff_of_false (not_le.mpr h) fun hle =>
          absurd (hle.trans (min_le_right _ _)) (not_le.mpr h), fun offer hoffer => ?_⟩⟩
        have hroom : offer.1 ≤ c := by
          rw [if_neg (not_le.mpr h)] at hoffer
          exact fst_le_of_mem_offers hsize.2 hoffer
        rw [le_min_iff, ← hcut offer hoffer]
        exact ⟨fun hfits => ⟨hfits, hfits.trans hroom⟩, And.left⟩
  · rintro ⟨cut, hcut⟩
    refine List.pairwise_of_forall_mem_list fun old hold new hnew hkept hdropped => ?_
    have hlarge : cut < size new.2 := not_le.mp fun hle =>
      absurd ((hcut new hnew).mpr hle) (not_le.mpr hdropped)
    exact ((hcut old hold).mp hkept).trans_lt hlarge

/-- What is kept are the items up to a size, exactly if each item is of at most that size when and
only when it fits beside all earlier items that are. -/
theorem forall_offers_iff (size : α → M) (c : M) (as : List α) (cut : M) :
    (∀ offer ∈ offers size c as, size offer.2 ≤ offer.1 ↔ size offer.2 ≤ cut) ↔
      ∀ before a after, as = before ++ a :: after →
        (size a ≤ cut ↔
          ((before.filter fun b => size b ≤ cut).map size).sum + size a ≤ c) := by
  induction as generalizing c with
  | nil => simp [offers]
  | cons a as ih =>
    rw [offers, List.forall_mem_cons]
    have hhead : (size a ≤ c ↔ size a ≤ cut) →
        (if size a ≤ c then c - size a else c) = c - if size a ≤ cut then size a else 0 := by
      intro h
      by_cases hle : size a ≤ cut
      · rw [if_pos (h.mpr hle), if_pos hle]
      · rw [if_neg (mt h.mp hle), if_neg hle, sub_zero]
    have hsum (before : List α) :
        (((a :: before).filter fun b => size b ≤ cut).map size).sum =
          (if size a ≤ cut then size a else 0) +
            ((before.filter fun b => size b ≤ cut).map size).sum := by
      by_cases hle : size a ≤ cut <;> simp [hle]
    constructor
    · rintro ⟨hfirst, hrest⟩ before b after heq
      rw [hhead hfirst, ih] at hrest
      -- the item is the first one or a later one
      cases before with
      | nil =>
        obtain ⟨rfl, -⟩ := List.cons.inj heq
        simpa using hfirst.symm
      | cons d before =>
        obtain ⟨rfl, hlater⟩ := List.cons.inj heq
        rw [hrest before b after hlater, hsum, le_sub_iff_add_le', add_assoc]
    · intro hall
      have hfirst : size a ≤ c ↔ size a ≤ cut := by simpa using (hall [] a as rfl).symm
      refine ⟨hfirst, ?_⟩
      rw [hhead hfirst, ih]
      intro before b after heq
      rw [hall (a :: before) b after (congrArg (a :: ·) heq), hsum, le_sub_iff_add_le', add_assoc]

end FirstFit
