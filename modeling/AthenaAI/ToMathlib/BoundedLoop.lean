import Mathlib.Order.Basic

/-!
# Bounded loops

A loop `for k in range(n)` whose body may leave it early, with a result or with an exception. Every
pass sends an output before it ends.

* `BoundedLoop.run`: the outputs of the loop and its outcome. `finish` makes the result of a loop
  that runs out of passes.
* `BoundedLoop.Reaches`: the states in which the passes begin.

The rules used for proofs about such a loop are

* `BoundedLoop.Reaches.invariant`: what every pass keeps holds whenever a pass begins;
* `BoundedLoop.run_ok_iff`: the loop returns exactly if every pass that it reaches meets its guard,
  when a pass from a good state does not raise exactly under that guard;
* `BoundedLoop.run_post`: what holds of every result made in a good state holds of the result;
* `BoundedLoop.run_spec`: the same about the outputs and the outcome together, with an invariant
  that may speak of the outputs so far.
-/

namespace BoundedLoop

variable {ω σ α ε : Type*}

/-- The body of a loop: from the number of the pass and the state, the output of the pass and how it
ends: with the next state, with a result, or with an exception. -/
abbrev Body (ω σ α ε : Type*) := ℕ → σ → ω × Except ε (σ ⊕ α)

variable (body : Body ω σ α ε) (finish : σ → Except ε α)

/-- The outputs and the outcome of the loop, with `left` passes to go before pass `k`. -/
def run : (left k : ℕ) → σ → List ω × Except ε α
  | 0, _, s => ([], finish s)
  | left + 1, k, s =>
    match body k s with
    | (out, .error e) => ([out], .error e)
    | (out, .ok (.inr a)) => ([out], .ok a)
    | (out, .ok (.inl s')) => (out :: (run left (k + 1) s').1, (run left (k + 1) s').2)

/-- Pass `k` begins in state `s`, when pass `k₀` begins in `s₀`. -/
inductive Reaches (k₀ : ℕ) (s₀ : σ) : ℕ → σ → Prop
  /-- The first pass begins in the initial state. -/
  | start : Reaches k₀ s₀ k₀ s₀
  /-- A pass begins in the state that the one before it has left. -/
  | next {k : ℕ} {s s' : σ} (hreach : Reaches k₀ s₀ k s) (hbody : (body k s).2 = .ok (.inl s')) :
      Reaches k₀ s₀ (k + 1) s'

namespace Reaches

variable {body} {k₀ k : ℕ} {s₀ s s' : σ}

/-- `Reaches` numbers the passes upwards, so no pass has a number below the first one. -/
theorem le (h : Reaches body k₀ s₀ k s) : k₀ ≤ k := by
  induction h with
  | start => exact Nat.le_refl _
  | next _ _ ih => exact Nat.le_succ_of_le ih

/-- The invariant rule: a property of the initial state that every pass which goes on keeps holds
whenever a pass begins. -/
theorem invariant {P : ℕ → σ → Prop} (h : Reaches body k₀ s₀ k s) (hstart : P k₀ s₀)
    (hkeep : ∀ k s s', P k s → (body k s).2 = .ok (.inl s') → P (k + 1) s') : P k s := by
  induction h with
  | start => exact hstart
  | next _ hbody ih => exact hkeep _ _ _ ih hbody

/-- What is reached from the second pass is reached from the first: `Reaches` grows at its end, and
this is its growth at the front. -/
theorem head (hbody : (body k₀ s₀).2 = .ok (.inl s')) (h : Reaches body (k₀ + 1) s' k s) :
    Reaches body k₀ s₀ k s := by
  induction h with
  | start => exact .next .start hbody
  | next _ hlast ih => exact .next ih hlast

/-- A pass that is reached is the first one, or it is reached from the second: case analysis at the
front. -/
theorem cases_head (h : Reaches body k₀ s₀ k s) :
    (k = k₀ ∧ s = s₀) ∨
      ∃ s', (body k₀ s₀).2 = .ok (.inl s') ∧ Reaches body (k₀ + 1) s' k s := by
  induction h with
  | start => exact Or.inl ⟨rfl, rfl⟩
  | next _ hbody ih =>
    rcases ih with ⟨rfl, rfl⟩ | ⟨s', hfirst, hrest⟩
    · exact Or.inr ⟨_, hbody, .start⟩
    · exact Or.inr ⟨s', hfirst, .next hrest hbody⟩

end Reaches

variable {body finish} {left k : ℕ} {s s' : σ} {a : α}

/-! ## One pass of a run -/

/-- A pass that raises ends `run` with its exception, however many passes are left. -/
theorem run_of_error {e : ε} (hbody : (body k s).2 = .error e) :
    (run body finish (left + 1) k s).2 = .error e := by
  rcases hpass : body k s with ⟨out, outcome⟩
  rw [hpass] at hbody
  obtain rfl : outcome = .error e := hbody
  rw [run, hpass]

/-- A pass with a result (`.inr`) ends `run` with it, and `finish` is not asked. -/
theorem run_of_inr (hbody : (body k s).2 = .ok (.inr a)) :
    (run body finish (left + 1) k s).2 = .ok a := by
  rcases hpass : body k s with ⟨out, outcome⟩
  rw [hpass] at hbody
  obtain rfl : outcome = .ok (.inr a) := hbody
  rw [run, hpass]

/-- A pass that goes on (`.inl`) is followed by the rest of the loop, from its state and with one
pass less. -/
theorem run_of_inl (hbody : (body k s).2 = .ok (.inl s')) :
    (run body finish (left + 1) k s).2 = (run body finish left (k + 1) s').2 := by
  rcases hpass : body k s with ⟨out, outcome⟩
  rw [hpass] at hbody
  obtain rfl : outcome = .ok (.inl s') := hbody
  rw [run, hpass]

/-! ## The outputs -/

/-- A loop that has passes to go makes the output of its first pass before any other. -/
theorem run_succ_outputs (left k : ℕ) (s : σ) :
    ∃ rest, (run body finish (left + 1) k s).1 = (body k s).1 :: rest := by
  rcases hpass : body k s with ⟨out, e | s' | a⟩ <;> exact ⟨_, by rw [run, hpass]⟩

/-- A loop makes a second output exactly if it has a second pass to go and its first one goes on. -/
theorem one_lt_length_run_iff :
    1 < (run body finish left k s).1.length ↔
      1 < left ∧ ∃ s', (body k s).2 = .ok (.inl s') := by
  rcases left with _ | left
  · simp [run]
  rcases hpass : body k s with ⟨out, e | s' | a⟩
  · simp [run, hpass]
  · rw [run, hpass]
    cases left with
    | zero => simp [run]
    | succ left =>
      obtain ⟨rest, hrest⟩ := @run_succ_outputs _ _ _ _ body finish left (k + 1) s'
      simp [hrest]
  · simp [run, hpass]

/-! ## Rules for the whole loop -/

/-- If a pass from a good state does not raise exactly when its guard holds, and leaves a good state
from which the loop can finish, then the loop returns exactly if every pass that it reaches meets
the guard. -/
theorem run_ok_iff {P G : ℕ → σ → Prop}
    (hbody : ∀ k s, P k s → ((∃ r, (body k s).2 = .ok r) ↔ G k s))
    (hkeep : ∀ k s s', P k s → (body k s).2 = .ok (.inl s') → P (k + 1) s')
    (hfinish : ∀ k s, P k s → ∃ a, finish s = .ok a) (hs : P k s) :
    (∃ a, (run body finish left k s).2 = .ok a) ↔
      ∀ j t, Reaches body k s j t → j < k + left → G j t := by
  -- by induction on the passes to go; the first one decides whether there is a rest
  induction left generalizing k s with
  | zero =>
    refine iff_of_true (hfinish k s hs) fun j t hreach hlt => absurd hreach.le ?_
    exact Nat.not_le_of_lt hlt
  | succ left ih =>
    have hfirst : (∀ j t, Reaches body k s j t → j < k + (left + 1) → G j t) → G k s :=
      fun hall => hall k s .start (Nat.lt_add_of_pos_right (Nat.succ_pos left))
    cases hpass : (body k s).2 with
    | error e =>
      rw [run_of_error hpass]
      refine iff_of_false (fun ⟨_, h⟩ => nomatch h) fun hall => ?_
      obtain ⟨r, hr⟩ := (hbody k s hs).mpr (hfirst hall)
      rw [hpass] at hr
      cases hr
    | ok r =>
      have hguard : G k s := (hbody k s hs).mp ⟨r, hpass⟩
      cases r with
      | inr a =>
        rw [run_of_inr hpass]
        refine iff_of_true ⟨a, rfl⟩ fun j t hreach _ => ?_
        -- the loop ends here, so no further pass is reached
        rcases hreach.cases_head with ⟨rfl, rfl⟩ | ⟨s', hnext, -⟩
        · exact hguard
        · rw [hpass] at hnext
          cases hnext
      | inl s' =>
        rw [run_of_inl hpass, ih (hkeep k s s' hs hpass)]
        have hcount : k + 1 + left = k + (left + 1) := by omega
        rw [hcount]
        constructor
        -- the passes reached from here are the first one and those of the rest
        · intro hrest j t hreach hlt
          rcases hreach.cases_head with ⟨rfl, rfl⟩ | ⟨s'', hnext, hreach⟩
          · exact hguard
          · rw [hpass] at hnext
            cases hnext
            exact hrest j t hreach hlt
        · exact fun hall j t hreach hlt => hall j t (hreach.head hpass) hlt

/-- What holds of every result that a pass or the end of the loop makes in a good state holds of the
result of the loop. -/
theorem run_post {P : ℕ → σ → Prop} {Q : α → Prop}
    (hkeep : ∀ k s s', P k s → (body k s).2 = .ok (.inl s') → P (k + 1) s')
    (hresult : ∀ k s a, P k s → (body k s).2 = .ok (.inr a) → Q a)
    (hfinish : ∀ k s a, P k s → finish s = .ok a → Q a) (hs : P k s)
    (hrun : (run body finish left k s).2 = .ok a) : Q a := by
  induction left generalizing k s with
  | zero => exact hfinish k s a hs hrun
  | succ left ih =>
    cases hpass : (body k s).2 with
    | error e =>
      rw [run_of_error hpass] at hrun
      cases hrun
    | ok r =>
      cases r with
      | inr b =>
        rw [run_of_inr hpass] at hrun
        obtain rfl := Except.ok.inj hrun
        exact hresult k s b hs hpass
      | inl s' =>
        rw [run_of_inl hpass] at hrun
        exact ih (hkeep k s s' hs hpass) hrun

/-- An invariant of the outputs so far and the state, from which the end of the loop gives a
relation between all the outputs and the outcome. -/
theorem run_spec {n : ℕ} {P : List ω → ℕ → σ → Prop} {Q : List ω → Except ε α → Prop}
    (hkeep : ∀ outs k s out s', k < n → P outs k s → body k s = (out, .ok (.inl s')) →
      P (outs ++ [out]) (k + 1) s')
    (hresult : ∀ outs k s out a, k < n → P outs k s → body k s = (out, .ok (.inr a)) →
      Q (outs ++ [out]) (.ok a))
    (herror : ∀ outs k s out e, k < n → P outs k s → body k s = (out, .error e) →
      Q (outs ++ [out]) (.error e))
    (hfinish : ∀ outs s, P outs n s → Q outs (finish s)) (hn : k + left = n) {outs : List ω}
    (hs : P outs k s) : Q (outs ++ (run body finish left k s).1) (run body finish left k s).2 := by
  induction left generalizing k s outs with
  | zero =>
    obtain rfl : k = n := hn
    rw [run, List.append_nil]
    exact hfinish outs s hs
  | succ left ih =>
    have hlt : k < n := by omega
    rcases hpass : body k s with ⟨out, e | s' | a⟩
    · rw [run, hpass]
      exact herror outs k s out e hlt hs hpass
    -- the output of this pass joins those so far
    · have hrest := ih (by omega) (hkeep outs k s out s' hlt hs hpass)
      rw [List.append_assoc] at hrest
      rw [run, hpass]
      exact hrest
    · rw [run, hpass]
      exact hresult outs k s out a hlt hs hpass

end BoundedLoop
