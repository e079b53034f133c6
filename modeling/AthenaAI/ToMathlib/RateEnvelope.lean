import Mathlib.Algebra.BigOperators.Group.List.Basic
import Mathlib.Algebra.Order.Field.Basic
import Mathlib.Algebra.Order.Group.MinMax
import Mathlib.Tactic.Linarith
import Mathlib.Tactic.Positivity
import Mathlib.Tactic.Ring

/-!
# Rate envelopes

A history of grants, each an amount granted at a time, respects the envelope with burst `capacity`
and `rate` if from every grant on no more has been granted than `capacity` plus what accrues at
`rate` since that grant. The file develops the envelope over an ordered field:

* `RateEnvelope.Fits`: a further grant would respect the envelope;
* `RateEnvelope.room`: the largest amount that fits, a minimum over all earlier grants; a grant
  lowers it by its amount (`room_concat`), and as time passes it recovers at `rate` up to
  `capacity` (`room_later`). These two equations are those of a bucket filled at `rate`;
* `RateEnvelope.total_window_le`: in a history built from grants that fit, no window of length `d`
  holds more than `capacity + rate * d`.
-/

namespace RateEnvelope

variable {K : Type*} [Field K]

/-- An amount granted at a time. -/
structure Grant (K : Type*) where
  /-- When it was granted. -/
  time : K
  /-- How much was granted. -/
  amount : K

/-- The sum of the amounts. -/
def total (gs : List (Grant K)) : K := (gs.map Grant.amount).sum

@[simp]
theorem total_nil : total ([] : List (Grant K)) = 0 := rfl

@[simp]
theorem total_cons (g : Grant K) (gs : List (Grant K)) : total (g :: gs) = g.amount + total gs := by
  simp [total]

theorem total_append (gs hs : List (Grant K)) : total (gs ++ hs) = total gs + total hs := by
  simp [total]

variable [LinearOrder K] (capacity rate : K)

/-- Granting `amount` at `time` after the grants `gs` (oldest first) respects the envelope: it is
at most `capacity`, and so are, for each earlier grant, the amounts granted from that grant on with
this one, up to what has accrued since. -/
def Fits (gs : List (Grant K)) (time amount : K) : Prop :=
  amount ≤ capacity ∧ ∀ earlier g later, gs = earlier ++ g :: later →
    total (g :: later) + amount ≤ capacity + rate * (time - g.time)

/-- The largest amount that fits at `time` after the grants `gs`. -/
def room (time : K) : List (Grant K) → K
  | [] => capacity
  | g :: gs => min (capacity + rate * (time - g.time) - total (g :: gs)) (room time gs)

section Room

variable [IsStrictOrderedRing K] {capacity rate}

/-- An amount `Fits` the envelope at a time exactly if the `room` there covers it. -/
theorem fits_iff_le_room (gs : List (Grant K)) (time amount : K) :
    Fits capacity rate gs time amount ↔ amount ≤ room capacity rate time gs := by
  induction gs with
  | nil => simp [Fits, room]
  | cons g gs ih =>
    rw [room, le_min_iff, ← ih]
    constructor
    · rintro ⟨hcap, hall⟩
      refine ⟨?_, hcap, fun earlier g' later hgs => ?_⟩
      · have := hall [] g gs rfl
        linarith
      · exact hall (g :: earlier) g' later (by rw [hgs]; rfl)
    · rintro ⟨hfirst, hcap, hrest⟩
      refine ⟨hcap, fun earlier g' later hgs => ?_⟩
      -- the earlier grant is `g` itself or one of `gs`
      cases earlier with
      | nil =>
        obtain ⟨rfl, rfl⟩ := List.cons.inj hgs
        linarith
      | cons a earlier =>
        obtain ⟨-, htail⟩ := List.cons.inj hgs
        exact hrest earlier g' later htail

/-- A grant lowers the `room` by its amount, and time restores it at the rate, up to `capacity`. -/
theorem room_concat (gs : List (Grant K)) (g : Grant K) (time : K) :
    room capacity rate time (gs ++ [g]) =
      min capacity (room capacity rate g.time gs - g.amount + rate * (time - g.time)) := by
  induction gs with
  | nil =>
    simp only [List.nil_append, room, total_cons, total_nil]
    rw [min_comm]
    congr 1
    ring
  | cons g' gs ih =>
    -- the bound from `g'` on is lowered by the new amount, like all the others
    rw [List.cons_append, room, ih, room, ← min_sub_sub_right, ← min_add_add_right, ← min_assoc,
      min_comm _ capacity, min_assoc]
    congr 2
    simp only [total_cons, total_append, total_nil]
    ring

/-- Between two times without a grant the `room` grows at the rate, up to `capacity`. -/
theorem room_later (hrate : 0 ≤ rate) (gs : List (Grant K)) {s t : K} (hst : s ≤ t) :
    room capacity rate t gs = min capacity (room capacity rate s gs + rate * (t - s)) := by
  have haccrued : 0 ≤ rate * (t - s) := mul_nonneg hrate (sub_nonneg.mpr hst)
  -- every bound grows by what accrues, except `capacity`
  induction gs with
  | nil =>
    rw [room, room, min_eq_left]
    linarith
  | cons g gs ih =>
    rw [room, room, ih, ← min_add_add_right, ← min_assoc, min_comm _ capacity, min_assoc]
    congr 2
    ring

end Room

/-! ## Windows -/

/-- Every grant of the history fits the grants before it. -/
def Respects (gs : List (Grant K)) : Prop :=
  ∀ earlier g later, gs = earlier ++ g :: later → Fits capacity rate earlier g.time g.amount

variable {capacity rate}

/-- A further grant has to fit into every window that ends with it; those before it have respected
the envelope already. -/
theorem respects_concat_iff (gs : List (Grant K)) (g : Grant K) :
    Respects capacity rate (gs ++ [g]) ↔
      Respects capacity rate gs ∧ Fits capacity rate gs g.time g.amount := by
  constructor
  · intro h
    refine ⟨fun earlier g' later hgs => h earlier g' (later ++ [g]) (by simp [hgs]), ?_⟩
    exact h gs g [] rfl
  · rintro ⟨hgs, hg⟩ earlier g' later heq
    -- the grant in question is the last one, or one of the history
    rcases List.eq_nil_or_concat later with rfl | ⟨later, b, rfl⟩
    · obtain ⟨rfl, hlast⟩ := List.append_inj' heq rfl
      obtain ⟨rfl, -⟩ := List.cons.inj hlast
      exact hg
    · rw [List.concat_eq_append, ← List.cons_append, ← List.append_assoc] at heq
      exact hgs earlier g' later (List.append_inj' heq rfl).1

omit [Field K] in
/-- In a history in order of time, the grants from `a` on are the ones left after dropping the
earlier ones. -/
theorem filter_from_eq_dropWhile {gs : List (Grant K)}
    (hsorted : gs.Pairwise fun g g' => g.time ≤ g'.time) (a : K) :
    gs.filter (fun g => a ≤ g.time) = gs.dropWhile fun g => g.time < a := by
  induction gs with
  | nil => rfl
  | cons g gs ih =>
    rw [List.pairwise_cons] at hsorted
    by_cases hg : g.time < a
    · rw [List.filter_cons_of_neg (by simpa using hg),
        List.dropWhile_cons_of_pos (by simpa using hg), ih hsorted.2]
    · -- from the first grant that is not earlier on, none is
      rw [List.dropWhile_cons_of_neg (by simpa using hg), List.filter_eq_self]
      intro g' hg'
      rcases List.mem_cons.mp hg' with rfl | hg'
      · simpa using hg
      · simpa using (not_lt.mp hg).trans (hsorted.1 g' hg')

/-- No window of a history that respects the envelope holds more than `capacity` and what accrues
over its length. -/
theorem total_window_le [IsStrictOrderedRing K] (hcapacity : 0 ≤ capacity) (hrate : 0 ≤ rate)
    {gs : List (Grant K)} (hsorted : gs.Pairwise fun g g' => g.time ≤ g'.time)
    (h : Respects capacity rate gs) {a b : K} (hab : a ≤ b) :
    total (gs.filter fun g => a ≤ g.time ∧ g.time ≤ b) ≤ capacity + rate * (b - a) := by
  have hlength : 0 ≤ rate * (b - a) := mul_nonneg hrate (sub_nonneg.mpr hab)
  induction gs using List.reverseRecOn with
  | nil =>
    simp only [List.filter_nil, total_nil]
    linarith
  | append_singleton gs g ih =>
    obtain ⟨hsorted', -, hlast⟩ := List.pairwise_append.mp hsorted
    obtain ⟨hrespects, hcap, hfits⟩ := (respects_concat_iff gs g).mp h
    rw [List.filter_append, total_append]
    by_cases hg : a ≤ g.time ∧ g.time ≤ b
    · -- everything before `g` is in the window as soon as it is not before `a`
      have hbefore : gs.filter (fun g => a ≤ g.time ∧ g.time ≤ b) =
          gs.dropWhile fun g => g.time < a := by
        rw [← filter_from_eq_dropWhile hsorted' a]
        refine List.filter_congr fun g' hg' => ?_
        have : g'.time ≤ b := (hlast g' hg' g (List.mem_singleton_self g)).trans hg.2
        simp [this]
      rw [hbefore, List.filter_cons_of_pos (by simpa using hg), List.filter_nil, total_cons,
        total_nil, add_zero]
      cases hdrop : gs.dropWhile fun g => g.time < a with
      -- `g` is the only grant of the window
      | nil =>
        rw [total_nil]
        linarith
      -- `g` fits, from the first grant of the window on
      | cons first later =>
        have hsplit : gs = gs.takeWhile (fun g => g.time < a) ++ first :: later := by
          rw [← hdrop, List.takeWhile_append_dropWhile]
        have hfirst : a ≤ first.time := by
          have := List.head?_dropWhile_not (fun g : Grant K => decide (g.time < a)) gs
          rw [hdrop] at this
          simpa using this
        have hbound := hfits _ first later hsplit
        have hshorter : rate * (g.time - first.time) ≤ rate * (b - a) :=
          mul_le_mul_of_nonneg_left (by linarith [hg.2]) hrate
        linarith
    · -- `g` is outside the window
      rw [List.filter_cons_of_neg (by simpa using hg), List.filter_nil, total_nil, add_zero]
      exact ih hsorted' hrespects

end RateEnvelope
