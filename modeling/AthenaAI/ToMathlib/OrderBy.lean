import Mathlib.Data.List.Chain
import Mathlib.Data.List.Sort

/-!
# `ORDER BY … DESC LIMIT`

A query orders rows by a key, the greatest first, and takes the first `n` of them. Rows with equal
keys come in any order, so a query has more than one answer.

* `OrderBy.IsAnswer key rows answer`: `answer` are the rows in an order that the query allows;
* `OrderBy.MayTake key rows n r`: fewer than `n` rows have a greater key than `r`. Exactly these
  rows are among the first `n` of some answer (`mayTake_iff`);
* `OrderBy.MustTake key rows n r`: at most `n` rows have a key that is not smaller. Exactly these
  are among the first `n` of every answer (`mustTake_iff`);
* `OrderBy.Separated key rows n`: the first `n` rows have greater keys than the others. For an
  answer this says that the others have the same first `n` rows, in some order
  (`forall_mustTake_iff`);
* `OrderBy.forall_take_eq_iff`: the first `n` rows are the same in every answer if and only if the
  keys of the first `n + 1` decrease;
* `OrderBy.IsAnswer.eq_of_key_inj`: where no two rows have the same key, there is one answer only;
* `OrderBy.stable` keeps rows with equal keys in their order, and so begins with the first row that
  has the greatest key (`isFirstMax_of_head?`).
-/

namespace OrderBy

variable {ρ κ : Type*} [LinearOrder κ]

/-- The rows in an order in which the query may return them. -/
structure IsAnswer (key : ρ → κ) (rows answer : List ρ) : Prop where
  /-- Every row is returned once. -/
  perm : answer.Perm rows
  /-- No row comes after one with a smaller key. -/
  descending : answer.Pairwise fun r r' => key r' ≤ key r

/-- The row is among the first `n` of some answer. -/
def MayTake (key : ρ → κ) (rows : List ρ) (n : ℕ) (r : ρ) : Prop :=
  r ∈ rows ∧ rows.countP (fun r' => key r < key r') < n

/-- The row is among the first `n` of every answer. -/
def MustTake (key : ρ → κ) (rows : List ρ) (n : ℕ) (r : ρ) : Prop :=
  r ∈ rows ∧ rows.countP (fun r' => key r ≤ key r') ≤ n

variable {key : ρ → κ} {rows answer : List ρ} {n : ℕ} {r : ρ}

/-! ## Answers -/

theorem IsAnswer.mem_iff (h : IsAnswer key rows answer) : r ∈ answer ↔ r ∈ rows := h.perm.mem_iff

/-- `IsAnswer` does not depend on the order in which the rows are stored. -/
theorem isAnswer_congr {rows' : List ρ} (h : rows.Perm rows') :
    IsAnswer key rows answer ↔ IsAnswer key rows' answer :=
  ⟨fun ⟨hperm, hdesc⟩ => ⟨hperm.trans h, hdesc⟩, fun ⟨hperm, hdesc⟩ => ⟨hperm.trans h.symm, hdesc⟩⟩

/-- Rows whose keys are all different have one answer only. -/
theorem IsAnswer.eq_of_key_inj {answer' : List ρ} (h : IsAnswer key rows answer)
    (h' : IsAnswer key rows answer')
    (hinj : ∀ r ∈ rows, ∀ r' ∈ rows, key r = key r' → r = r') : answer = answer' := by
  refine List.Perm.eq_of_pairwise (fun r r' hr hr' hle hle' => ?_) h.descending h'.descending
    (h.perm.trans h'.perm.symm)
  exact hinj r (h.mem_iff.mp hr) r' (h'.mem_iff.mp hr') (le_antisymm hle' hle)

/-- The stable answer: rows with equal keys stay in their order. -/
def stable (key : ρ → κ) (rows : List ρ) : List ρ :=
  rows.insertionSort fun r r' => key r' ≤ key r

theorem isAnswer_stable (key : ρ → κ) (rows : List ρ) : IsAnswer key rows (stable key rows) := by
  have htotal : Std.Total fun r r' : ρ => key r' ≤ key r := ⟨fun r r' => le_total (key r') (key r)⟩
  have htrans : IsTrans ρ fun r r' => key r' ≤ key r := ⟨fun _ _ _ h h' => h'.trans h⟩
  exact ⟨List.perm_insertionSort _ _, List.pairwise_insertionSort _ _⟩

/-- `stable` leaves rows that stand in order as they are. -/
theorem stable_eq_self (h : rows.Pairwise fun r r' => key r' ≤ key r) : stable key rows = rows :=
  h.insertionSort_eq

/-- The row is the first one with the greatest key. -/
def IsFirstMax (key : ρ → κ) (rows : List ρ) (r : ρ) : Prop :=
  ∃ before after, rows = before ++ r :: after ∧
    (∀ r' ∈ before, key r' < key r) ∧ ∀ r' ∈ after, key r' ≤ key r

theorem IsFirstMax.le (h : IsFirstMax key rows r) : ∀ r' ∈ rows, key r' ≤ key r := by
  obtain ⟨before, after, rfl, hbefore, hafter⟩ := h
  simp only [List.mem_append, List.mem_cons]
  rintro r' (hr' | rfl | hr')
  · exact (hbefore r' hr').le
  · exact le_rfl
  · exact hafter r' hr'

/-- `stable` begins with the first of the rows that have the greatest key. -/
theorem isFirstMax_of_head? (h : (stable key rows).head? = some r) : IsFirstMax key rows r := by
  induction rows generalizing r with
  | nil => simp [stable] at h
  | cons a rows ih =>
    have hstable : stable key (a :: rows) =
        (stable key rows).orderedInsert (fun r r' => key r' ≤ key r) a := List.insertionSort_cons ..
    rw [hstable] at h
    cases hrest : stable key rows with
    | nil =>
      have hrows : rows = [] := by
        simpa [hrest] using (isAnswer_stable key rows).perm.length_eq.symm
      rw [hrest, List.orderedInsert_nil] at h
      obtain rfl : a = r := by simpa using h
      exact ⟨[], rows, by simp [hrows]⟩
    | cons b sorted =>
      have hb := ih (by rw [hrest, List.head?_cons])
      rw [hrest, List.orderedInsert_cons] at h
      by_cases hba : key b ≤ key a
      -- `a` comes before the rows with an equal key
      · rw [if_pos hba] at h
        obtain rfl : a = r := by simpa using h
        exact ⟨[], rows, rfl, List.forall_mem_nil _, fun r' hr' => (hb.le r' hr').trans hba⟩
      · rw [if_neg hba] at h
        obtain rfl : b = r := by simpa using h
        obtain ⟨before, after, hsplit, hbefore, hafter⟩ := hb
        refine ⟨a :: before, after, by rw [hsplit, List.cons_append], ?_, hafter⟩
        exact List.forall_mem_cons.mpr ⟨not_le.mp hba, hbefore⟩

/-- There is an answer in which the rows before a given one are those that a condition picks, if
these have no smaller key and the others no greater one. -/
theorem exists_isAnswer_split [DecidableEq ρ] (key : ρ → κ) (hr : r ∈ rows) {p : ρ → Bool}
    (hp : ∀ r', p r' = true → key r ≤ key r') (hp' : ∀ r', p r' = false → key r' ≤ key r) :
    ∃ before after, IsAnswer key rows (before ++ r :: after) ∧
      before.length = (rows.erase r).countP p := by
  obtain ⟨hbefore, hbefore'⟩ := isAnswer_stable key ((rows.erase r).filter p)
  obtain ⟨hafter, hafter'⟩ := isAnswer_stable key ((rows.erase r).filter fun r => !p r)
  have hpicked r' (hr' : r' ∈ stable key ((rows.erase r).filter p)) : key r ≤ key r' :=
    hp r' (List.mem_filter.mp (hbefore.mem_iff.mp hr')).2
  have hleft r' (hr' : r' ∈ stable key ((rows.erase r).filter fun r => !p r)) :
      key r' ≤ key r := by
    have hnot := (List.mem_filter.mp (hafter.mem_iff.mp hr')).2
    exact hp' r' (by simpa using hnot)
  refine ⟨stable key ((rows.erase r).filter p), stable key ((rows.erase r).filter fun r => !p r),
    ⟨?_, ?_⟩, hbefore.length_eq.trans List.countP_eq_length_filter.symm⟩
  · have hrest := (hbefore.append hafter).trans (List.filter_append_perm p (rows.erase r))
    exact List.perm_middle.trans ((hrest.cons r).trans (List.perm_cons_erase hr).symm)
  · refine List.pairwise_append.mpr ⟨hbefore', List.pairwise_cons.mpr ⟨hleft, hafter'⟩, ?_⟩
    intro r' hr' r'' hr''
    rcases List.mem_cons.mp hr'' with rfl | hr''
    · exact hpicked r' hr'
    · exact (hleft r'' hr'').trans (hpicked r' hr')

/-- Where a row stands in an answer: all rows with a greater key are before it, and those before it
have no smaller key. -/
theorem IsAnswer.countP_lt_and_lt (h : IsAnswer key rows answer) {before after : List ρ}
    (hsplit : answer = before ++ r :: after) :
    rows.countP (fun r' => key r < key r') ≤ before.length ∧
      before.length < rows.countP fun r' => key r ≤ key r' := by
  subst hsplit
  obtain ⟨-, hafter, hcross⟩ := List.pairwise_append.mp h.descending
  rw [← h.perm.countP_eq, ← h.perm.countP_eq, List.countP_append, List.countP_append]
  have hnone : (r :: after).countP (fun r' => key r < key r') = 0 := by
    refine List.countP_eq_zero.mpr fun r' hr' => ?_
    rcases List.mem_cons.mp hr' with rfl | hr'
    · simp
    · simpa using List.rel_of_pairwise_cons hafter hr'
  have hall : before.countP (fun r' => key r ≤ key r') = before.length := by
    refine List.countP_eq_length.mpr fun r' hr' => ?_
    simpa using hcross r' hr' r List.mem_cons_self
  have hself : 0 < (r :: after).countP fun r' => key r ≤ key r' :=
    List.countP_pos_iff.mpr ⟨r, List.mem_cons_self, by simp⟩
  rw [hnone, hall]
  exact ⟨List.countP_le_length, Nat.lt_add_of_pos_right hself⟩

/-! ## What the first rows of an answer are -/

/-- A row among the first `n` of an answer has fewer than `n` rows before it. -/
theorem exists_split_of_mem_take (h : r ∈ answer.take n) :
    ∃ before after, answer = before ++ r :: after ∧ before.length < n := by
  obtain ⟨before, after, hsplit⟩ := List.append_of_mem h
  refine ⟨before, after ++ answer.drop n, ?_, ?_⟩
  · rw [← List.cons_append, ← List.append_assoc, ← hsplit, List.take_append_drop]
  · have hlength : before.length + (after.length + 1) ≤ n := by
      rw [← List.length_cons, ← List.length_append, ← hsplit]
      exact List.length_take_le _ _
    omega

/-- A row with fewer than `n` rows before it is among the first `n`. -/
theorem mem_take_append_cons {before after : List ρ} (h : before.length < n) :
    r ∈ (before ++ r :: after).take n := by
  rw [List.take_append, List.mem_append]
  obtain ⟨k, hk⟩ := Nat.exists_eq_add_of_lt h
  have hlength : n - before.length = k + 1 := by omega
  rw [hlength, List.take_succ_cons]
  exact .inr List.mem_cons_self

/-- `MayTake` counts the rows with larger keys: a row can be among the first `n` of some answer
exactly if there are fewer than `n` of them. -/
theorem mayTake_iff :
    MayTake key rows n r ↔ ∃ answer, IsAnswer key rows answer ∧ r ∈ answer.take n := by
  classical
  refine ⟨fun ⟨hmem, hcount⟩ => ?_, fun ⟨answer, h, hr⟩ => ?_⟩
  · -- the rows with a greater key first, then `r` before the rows with the same key
    obtain ⟨before, after, h, hlength⟩ := exists_isAnswer_split key hmem
      (p := fun r' => key r < key r') (fun r' hr' => (of_decide_eq_true hr').le)
      fun r' hr' => not_lt.mp (of_decide_eq_false hr')
    refine ⟨_, h, mem_take_append_cons ?_⟩
    rw [hlength]
    exact (List.Sublist.countP_le List.erase_sublist).trans_lt hcount
  · obtain ⟨before, after, hsplit, hlength⟩ := exists_split_of_mem_take hr
    refine ⟨h.mem_iff.mp (List.mem_of_mem_take hr), ?_⟩
    exact (h.countP_lt_and_lt hsplit).1.trans_lt hlength

/-- A row that `MustTake` names is among the first `n` of every answer, in whatever order equal keys
come. -/
theorem MustTake.mem_take (hr : MustTake key rows n r) (h : IsAnswer key rows answer) :
    r ∈ answer.take n := by
  obtain ⟨before, after, hsplit⟩ := List.append_of_mem (h.mem_iff.mpr hr.1)
  rw [hsplit]
  exact mem_take_append_cons ((h.countP_lt_and_lt hsplit).2.trans_le hr.2)

/-- `MustTake` counts the rows with keys that are at least as large: so it is among the first `n` of
every answer. -/
theorem mustTake_iff (hnodup : rows.Nodup) :
    MustTake key rows n r ↔ ∀ answer, IsAnswer key rows answer → r ∈ answer.take n := by
  classical
  refine ⟨fun hr answer h => hr.mem_take h, fun hall => ?_⟩
  · have hstable := isAnswer_stable key rows
    have hmem : r ∈ rows := hstable.mem_iff.mp (List.mem_of_mem_take (hall _ hstable))
    refine ⟨hmem, ?_⟩
    -- `r` after all rows with the same key
    obtain ⟨before, after, h, hlength⟩ := exists_isAnswer_split key hmem
      (p := fun r' => key r ≤ key r') (fun r' hr' => of_decide_eq_true hr')
      fun r' hr' => (not_le.mp (of_decide_eq_false hr')).le
    have hcount : rows.countP (fun r' => key r ≤ key r') = before.length + 1 := by
      rw [(List.perm_cons_erase hmem).countP_eq, hlength]
      simp
    rw [hcount]
    by_contra hlt
    have hlt : n ≤ before.length := by omega
    have htake := hall _ h
    rw [List.take_append_of_le_length hlt] at htake
    have hdisjoint := List.nodup_append.mp (h.perm.nodup_iff.mpr hnodup)
    exact hdisjoint.2.2 r (List.mem_of_mem_take htake) r List.mem_cons_self rfl

/-- A row is in every answer among the first `m` but not the first `n` exactly if it must be among
the former and may not be among the latter. -/
theorem forall_mem_drop_take_iff (hnodup : rows.Nodup) {m : ℕ} (hnm : n ≤ m) :
    (∀ answer, IsAnswer key rows answer → r ∈ (answer.take m).drop n) ↔
      MustTake key rows m r ∧ ¬MayTake key rows n r := by
  have hdrop answer (h : IsAnswer key rows answer) :
      r ∈ (answer.take m).drop n ↔ r ∈ answer.take m ∧ r ∉ answer.take n := by
    have hsplit := List.take_append_drop n (answer.take m)
    rw [List.take_take, Nat.min_eq_left hnm] at hsplit
    have htaken : (answer.take m).Nodup :=
      (h.perm.nodup_iff.mpr hnodup).sublist (List.take_sublist _ _)
    rw [← hsplit] at htaken
    refine ⟨fun hr => ⟨List.mem_of_mem_drop hr, fun hr' => ?_⟩, fun ⟨hr, hr'⟩ => ?_⟩
    · exact (List.nodup_append.mp htaken).2.2 r hr' r hr rfl
    · rw [← hsplit] at hr
      exact (List.mem_append.mp hr).resolve_left hr'
  rw [mustTake_iff hnodup, mayTake_iff]
  refine ⟨fun hall => ⟨fun answer h => ((hdrop answer h).mp (hall answer h)).1, ?_⟩, ?_⟩
  · rintro ⟨answer, h, hr⟩
    exact ((hdrop answer h).mp (hall answer h)).2 hr
  · rintro ⟨hm, hn⟩ answer h
    exact (hdrop answer h).mpr ⟨hm answer h, fun hr => hn ⟨answer, h, hr⟩⟩

/-! ## Which rows are taken -/

/-- The first `n` rows have greater keys than the others. -/
def Separated (key : ρ → κ) (rows : List ρ) (n : ℕ) : Prop :=
  ∀ r ∈ rows.take n, ∀ r' ∈ rows.drop n, key r' < key r

instance (key : ρ → κ) (rows : List ρ) (n : ℕ) : Decidable (Separated key rows n) :=
  inferInstanceAs (Decidable (∀ r ∈ rows.take n, ∀ r' ∈ rows.drop n, key r' < key r))

variable {m : ℕ}

theorem MustTake.mono (hr : MustTake key rows n r) (hnm : n ≤ m) : MustTake key rows m r :=
  ⟨hr.1, hr.2.trans hnm⟩

namespace IsAnswer

theorem le_of_mem_drop (h : IsAnswer key rows answer) {r r' : ρ} (hr : r ∈ answer.take n)
    (hr' : r' ∈ answer.drop n) : key r' ≤ key r := by
  have hdesc := h.descending
  rw [← List.take_append_drop n answer] at hdesc
  exact (List.pairwise_append.mp hdesc).2.2 r hr r' hr'

theorem countP_eq (h : IsAnswer key rows answer) (n : ℕ) (p : ρ → Bool) :
    rows.countP p = (answer.take n).countP p + (answer.drop n).countP p := by
  rw [← List.countP_append, List.take_append_drop, h.perm.countP_eq]

/-- A row that `MustTake` names has a greater key than every row that an answer leaves over. -/
theorem lt_of_mustTake (h : IsAnswer key rows answer) {r r' : ρ} (hr : MustTake key rows n r)
    (hr' : r' ∈ answer.drop n) : key r' < key r := by
  by_contra hle
  rw [not_lt] at hle
  have hlength : n ≤ answer.length := by
    have hpos := List.length_pos_of_mem hr'
    rw [List.length_drop] at hpos
    omega
  -- otherwise none of the first `n` rows has a smaller key than the row, nor has the one left
  have hall : (answer.take n).countP (fun r'' => key r ≤ key r'') = n := by
    rw [List.countP_eq_length.mpr fun r'' hr'' => by
      simpa using hle.trans (h.le_of_mem_drop hr'' hr'), List.length_take_of_le hlength]
  have hpos : 0 < (answer.drop n).countP fun r'' => key r ≤ key r'' :=
    List.countP_pos_iff.mpr ⟨r', hr', by simpa using hle⟩
  have hcount := hr.2
  rw [h.countP_eq n, hall] at hcount
  omega

/-- If the keys on both sides of the cut differ, then the rows taken here have to be taken by every
answer. -/
theorem mustTake_of_separated (h : IsAnswer key rows answer) (hn : Separated key answer n)
    (hr : r ∈ answer.take n) : MustTake key rows n r := by
  refine ⟨h.mem_iff.mp (List.mem_of_mem_take hr), ?_⟩
  have hnone : (answer.drop n).countP (fun r' => key r ≤ key r') = 0 :=
    List.countP_eq_zero.mpr fun r' hr' => by simpa using hn r hr r' hr'
  rw [h.countP_eq n, hnone, Nat.add_zero]
  exact List.countP_le_length.trans (List.length_take_le _ _)

/-- If an answer is `Separated` at `n`, no answer takes a row that is left over in this one. -/
theorem not_mayTake_of_separated (h : IsAnswer key rows answer) (hn : Separated key answer n)
    (hlength : n ≤ answer.length) (hr : r ∈ answer.drop n) : ¬MayTake key rows n r := by
  rintro ⟨-, hcount⟩
  have hall : (answer.take n).countP (fun r' => key r < key r') = n := by
    rw [List.countP_eq_length.mpr fun _ hr' => by simpa using hn _ hr' _ hr,
      List.length_take_of_le hlength]
  rw [h.countP_eq n, hall] at hcount
  omega

/-- The first `n` rows of an answer are those of every answer if and only if they are separated from
the others. -/
theorem forall_mustTake_iff (h : IsAnswer key rows answer) :
    (∀ r ∈ answer.take n, MustTake key rows n r) ↔ Separated key answer n :=
  ⟨fun hall r hr _ hr' => h.lt_of_mustTake (hall r hr) hr', fun hn _ hr =>
    h.mustTake_of_separated hn hr⟩

/-- All of the first `m` rows of an answer are among the first `n` of every one exactly if these are
all rows, or `n` is `m` and the answer is `Separated` there. -/
theorem forall_mustTake_of_le_iff (h : IsAnswer key rows answer) (hnm : n ≤ m) :
    (∀ r ∈ answer.take m, MustTake key rows n r) ↔
      answer.length ≤ n ∨ (n = m ∧ Separated key answer m) := by
  refine ⟨fun hall => or_iff_not_imp_left.mpr fun hlength => ?_, ?_⟩
  · rcases hnm.eq_or_lt with rfl | hlt
    · exact ⟨rfl, h.forall_mustTake_iff.mp hall⟩
    · -- the row after the first `n` is among the first `m`, but would be greater than itself
      rw [not_le] at hlength
      have htake : answer[n] ∈ answer.take m :=
        List.mem_take_iff_getElem.mpr ⟨n, lt_min hlt hlength, rfl⟩
      have hdrop : answer[n] ∈ answer.drop n :=
        List.mem_drop_iff_getElem.mpr ⟨0, by omega, by simp⟩
      exact absurd (h.lt_of_mustTake (hall _ htake) hdrop) (lt_irrefl _)
  · rintro (hlength | ⟨rfl, hn⟩) r hr
    · refine ⟨h.mem_iff.mp (List.mem_of_mem_take hr), List.countP_le_length.trans ?_⟩
      rwa [← h.perm.length_eq]
    · exact h.mustTake_of_separated hn hr

/-- When all of the first `m` rows are either among the first `n` of every answer or among the
further ones up to the `m`th. -/
theorem forall_mustTake_or_iff (h : IsAnswer key rows answer) (hnm : n ≤ m)
    (hlength : m ≤ answer.length) :
    (∀ r ∈ answer.take m,
        MustTake key rows n r ∨ (MustTake key rows m r ∧ ¬MayTake key rows n r)) ↔
      Separated key answer n ∧ Separated key answer m := by
  refine ⟨fun hall => ⟨?_, ?_⟩, fun ⟨hn, hm⟩ r hr => ?_⟩
  · refine h.forall_mustTake_iff.mp fun r hr => ?_
    have hr' : r ∈ answer.take m := (List.take_subset_take_left answer hnm) hr
    exact (hall r hr').resolve_right fun hmust => hmust.2 (mayTake_iff.mpr ⟨answer, h, hr⟩)
  · refine h.forall_mustTake_iff.mp fun r hr => ?_
    exact (hall r hr).elim (fun hmust => hmust.mono hnm) And.left
  · by_cases hr' : r ∈ answer.take n
    · exact .inl (h.mustTake_of_separated hn hr')
    · have hdrop : r ∈ answer.drop n := by
        have hmem := List.mem_of_mem_take hr
        rw [← List.take_append_drop n answer, List.mem_append] at hmem
        exact hmem.resolve_left hr'
      exact .inr ⟨h.mustTake_of_separated hm hr,
        h.not_mayTake_of_separated hn (hnm.trans hlength) hdrop⟩

/-- One of the rows from the `n`th to the `m`th has a key below a bound exactly if fewer than `m`
rows reach the bound. -/
theorem exists_mem_drop_take_lt_iff (h : IsAnswer key rows answer) (hnm : n < m)
    (hlength : m ≤ answer.length) (k : κ) :
    (∃ r ∈ (answer.take m).drop n, key r < k) ↔ rows.countP (fun r => k ≤ key r) < m := by
  refine ⟨fun ⟨r, hr, hlt⟩ => ?_, fun hcount => ?_⟩
  · obtain ⟨before, after, hsplit, hbefore⟩ := exists_split_of_mem_take (List.mem_of_mem_drop hr)
    have hdesc := h.descending
    rw [hsplit, List.pairwise_append] at hdesc
    have hnone : (r :: after).countP (fun r => k ≤ key r) = 0 := by
      refine List.countP_eq_zero.mpr
        (List.forall_mem_cons.mpr ⟨by simpa using hlt, fun r' hr' => ?_⟩)
      simpa using (List.rel_of_pairwise_cons hdesc.2.1 hr').trans_lt hlt
    rw [← h.perm.countP_eq, hsplit, List.countP_append, hnone]
    exact List.countP_le_length.trans_lt hbefore
  · -- the last of the rows, or else there would be `m` rows that are not below the bound
    obtain ⟨m, rfl⟩ : ∃ m', m = m' + 1 := ⟨m - 1, by omega⟩
    have hdrop : answer[m] ∈ answer.drop m := List.mem_drop_iff_getElem.mpr ⟨0, by omega, by simp⟩
    refine ⟨answer[m], ?_, ?_⟩
    · refine List.mem_drop_iff_getElem.mpr ⟨m - n, ?_, ?_⟩
      · rw [List.length_take_of_le hlength]
        omega
      · simp only [List.getElem_take]
        congr 1
        omega
    · by_contra hle
      rw [not_lt] at hle
      have hall : (answer.take m).countP (fun r => k ≤ key r) = m := by
        rw [List.countP_eq_length.mpr fun r hr => by
          simpa using hle.trans (h.le_of_mem_drop hr hdrop), List.length_take_of_le (by omega)]
      have hpos : 0 < (answer.drop m).countP fun r => k ≤ key r :=
        List.countP_pos_iff.mpr ⟨_, hdrop, by simpa using hle⟩
      rw [h.countP_eq m, hall] at hcount
      omega

/-- One of the first rows of an answer has a key above a bound exactly if any row has: the greatest
keys come first. -/
theorem exists_mem_take_lt_iff (h : IsAnswer key rows answer) (hn : 0 < n) (k : κ) :
    (∃ r ∈ answer.take n, k < key r) ↔ ∃ r ∈ rows, k < key r := by
  refine ⟨fun ⟨r, hr, hlt⟩ => ⟨r, h.mem_iff.mp (List.mem_of_mem_take hr), hlt⟩,
    fun ⟨r, hr, hlt⟩ => ?_⟩
  obtain ⟨n, rfl⟩ := Nat.exists_eq_add_of_lt hn
  cases answer with
  | nil => exact absurd (h.mem_iff.mpr hr) List.not_mem_nil
  | cons first answer =>
    refine ⟨first, by simp, ?_⟩
    rcases List.mem_cons.mp (h.mem_iff.mpr hr) with rfl | hmem
    · exact hlt
    · exact hlt.trans_le (List.rel_of_pairwise_cons h.descending hmem)

end IsAnswer

/-- Among rows of increasing keys, those from one row on, and no others, reach its key. -/
theorem countP_le_of_increasing {before after : List ρ}
    (h : (before ++ r :: after).Pairwise fun r r' => key r < key r') :
    (before ++ r :: after).countP (fun r' => key r ≤ key r') = after.length + 1 := by
  obtain ⟨-, hrest, hcross⟩ := List.pairwise_append.mp h
  have hnone : before.countP (fun r' => key r ≤ key r') = 0 :=
    List.countP_eq_zero.mpr fun r' hr' => by simpa using hcross r' hr' r List.mem_cons_self
  have hall : after.countP (fun r' => key r ≤ key r') = after.length :=
    List.countP_eq_length.mpr fun r' hr' => by simpa using (List.rel_of_pairwise_cons hrest hr').le
  rw [List.countP_append, hnone, List.countP_cons_of_pos (by simp), hall, Nat.zero_add]

/-- Among rows of increasing keys, those behind a row, and no others, have greater keys. -/
theorem countP_lt_of_increasing {before after : List ρ}
    (h : (before ++ r :: after).Pairwise fun r r' => key r < key r') :
    (before ++ r :: after).countP (fun r' => key r < key r') = after.length := by
  obtain ⟨-, hrest, hcross⟩ := List.pairwise_append.mp h
  have hnone : before.countP (fun r' => key r < key r') = 0 :=
    List.countP_eq_zero.mpr fun r' hr' => by simpa using (hcross r' hr' r List.mem_cons_self).le
  have hall : after.countP (fun r' => key r < key r') = after.length :=
    List.countP_eq_length.mpr fun r' hr' => by simpa using List.rel_of_pairwise_cons hrest hr'
  rw [List.countP_append, hnone, List.countP_cons_of_neg (by simp), hall, Nat.zero_add]

/-! ## When the answer is determined -/

/-- If the keys of the first `n + 1` rows of an answer decrease, then all answers begin with the
same `n` rows. -/
theorem IsAnswer.take_eq {rows answer : List ρ} (h : IsAnswer key rows answer)
    (hrows : rows.Pairwise fun r r' => key r' ≤ key r) {n : ℕ}
    (hn : (rows.take (n + 1)).Pairwise fun r r' => key r' < key r) :
    answer.take n = rows.take n := by
  induction n generalizing rows answer with
  | zero => rw [List.take_zero, List.take_zero]
  | succ n ih =>
    cases rows with
    | nil => rw [List.perm_nil.mp h.perm]
    | cons r rows =>
      obtain ⟨hr, hrest⟩ := List.pairwise_cons.mp hrows
      rw [List.take_succ_cons] at hn
      obtain ⟨hr', hn'⟩ := List.pairwise_cons.mp hn
      -- the first row has the greatest key, and no other row has it
      have hgreatest : ∀ r' ∈ rows, key r' < key r := by
        intro r' hmem
        cases rows with
        | nil => exact absurd hmem List.not_mem_nil
        | cons r'' rows =>
          have hnext : key r'' < key r := hr' r'' List.mem_cons_self
          rcases List.mem_cons.mp hmem with rfl | hmem
          · exact hnext
          · exact (List.rel_of_pairwise_cons hrest hmem).trans_lt hnext
      cases answer with
      | nil => exact absurd h.perm.symm (List.cons_ne_nil _ _ ∘ List.perm_nil.mp)
      | cons a answer =>
        obtain rfl : a = r := by
          by_contra hne
          have ha : a ∈ rows :=
            (List.mem_cons.mp (h.mem_iff.mp List.mem_cons_self)).resolve_left hne
          have hmem : r ∈ answer :=
            (List.mem_cons.mp (h.mem_iff.mpr List.mem_cons_self)).resolve_left (Ne.symm hne)
          exact (hgreatest a ha).not_ge (List.rel_of_pairwise_cons h.descending hmem)
        have hanswer : IsAnswer key rows answer :=
          ⟨h.perm.cons_inv, (List.pairwise_cons.mp h.descending).2⟩
        rw [List.take_succ_cons, List.take_succ_cons, ih hanswer hrest hn']

/-- In an answer two neighbours of the same key may change places: this is the freedom that `ORDER
BY` leaves. -/
theorem isAnswer_swap {before after : List ρ} {r r' : ρ} (hkey : key r ≤ key r')
    (h : (before ++ r :: r' :: after).Pairwise fun r r' => key r' ≤ key r) :
    IsAnswer key (before ++ r :: r' :: after) (before ++ r' :: r :: after) := by
  refine ⟨(List.Perm.swap r r' after).append_left before, ?_⟩
  obtain ⟨hbefore, hrest, hcross⟩ := List.pairwise_append.mp h
  obtain ⟨hr, hrest⟩ := List.pairwise_cons.mp hrest
  obtain ⟨hr', hafter⟩ := List.pairwise_cons.mp hrest
  refine List.pairwise_append.mpr ⟨hbefore, ?_, fun a ha b hb => hcross a ha b ?_⟩
  · refine List.pairwise_cons.mpr ⟨List.forall_mem_cons.mpr ⟨hkey, hr'⟩, ?_⟩
    exact List.pairwise_cons.mpr ⟨fun b hb => hr b (List.mem_cons_of_mem _ hb), hafter⟩
  · exact (List.Perm.swap r r' after).mem_iff.mp hb

/-- All answers begin with the same `n` rows as rows in descending order if and only if the keys of
the first `n + 1` of these decrease. -/
theorem forall_take_eq_iff (hnodup : rows.Nodup)
    (hrows : rows.Pairwise fun r r' => key r' ≤ key r) (n : ℕ) :
    (∀ answer, IsAnswer key rows answer → answer.take n = rows.take n) ↔
      (rows.take (n + 1)).Pairwise fun r r' => key r' < key r := by
  refine ⟨fun hall => ?_, fun hn answer h => h.take_eq hrows hn⟩
  have htrans : IsTrans ρ fun r r' => key r' < key r := ⟨fun _ _ _ h h' => h'.trans h⟩
  refine List.isChain_iff_pairwise.mp (List.isChain_iff_forall_rel_of_append_cons_cons.mpr ?_)
  intro r r' before after hsplit
  by_contra hkey
  have hrows' : rows = before ++ r :: r' :: (after ++ rows.drop (n + 1)) := by
    rw [← List.cons_append, ← List.cons_append, ← List.append_assoc, ← hsplit,
      List.take_append_drop]
  have hlength : before.length < n := by
    have hle : before.length + (after.length + 1 + 1) ≤ n + 1 := by
      rw [← List.length_cons, ← List.length_cons, ← List.length_append, ← hsplit]
      exact List.length_take_le _ _
    omega
  -- the two rows may change places
  rw [hrows'] at hall hrows hnodup
  have hswap := hall _ (isAnswer_swap (not_lt.mp hkey) hrows)
  have hsame := congrArg (fun rows => rows[before.length]?) hswap
  simp only [List.getElem?_take_of_lt hlength, List.getElem?_append_right le_rfl, Nat.sub_self,
    List.getElem?_cons_zero] at hsame
  obtain rfl := Option.some.inj hsame
  have hrest := (List.nodup_append.mp hnodup).2.1
  exact (List.nodup_cons.mp hrest).1 List.mem_cons_self

end OrderBy
