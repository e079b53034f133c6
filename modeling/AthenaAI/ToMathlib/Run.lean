import Mathlib.Data.List.DropRight
import Mathlib.Data.List.Infix
import Mathlib.Order.Basic

/-!
# Runs of a step function

A system that reacts to events is a step function `step : σ → ε → σ`. A run from a state `s` is a
finite list of events; this file names what a run reaches and what it passes through:

* `Run.after step s es`: the state after the events `es`;
* `Run.steps step s es`: the steps of the run, each with the state before and the state after it.

The rules used for proofs about runs are

* `Run.invariant`: a property that every step keeps holds after every run;
* `Run.invariant_of_guard`: a property that every step keeps under a guard holds throughout a run
  whose steps meet the guard;
* `Run.outputs_eq_of_alike`: runs of the same events from states that are alike have the same
  outputs, when steps from such states do and lead to such states;
* `Run.forall_prefix_iff`: a property holds in every state of a run iff every step of the run
  meets its guard, when a step from a good state reaches a good state exactly under that guard.

Two functions read a history from its latest entry backwards: `List.countSince` counts the entries
after the latest reset, `List.latest` returns the latest entry of a kind.
-/

/-! ## Reading a history backwards -/

namespace List

variable {α β : Type*}

/-- The number of entries satisfying `p` after the latest entry satisfying `reset`, or in the
whole history if there is none. -/
def countSince (reset p : α → Bool) (l : List α) : ℕ :=
  (l.rtakeWhile fun a => !reset a).countP p

@[simp]
theorem countSince_nil (reset p : α → Bool) : countSince reset p [] = 0 := rfl

/-- `countSince` of a list with one more entry: a reset restarts the count at zero, any other entry
adds one if it is counted. -/
theorem countSince_concat (reset p : α → Bool) (l : List α) (a : α) :
    countSince reset p (l ++ [a]) =
      if reset a then 0 else countSince reset p l + if p a then 1 else 0 := by
  unfold countSince
  rw [rtakeWhile_concat]
  by_cases h : reset a
  · simp [h]
  · by_cases hp : p a <;> simp [h, hp]

/-- The image under `f` of the latest entry on which `f` is defined. -/
def latest (f : α → Option β) (l : List α) : Option β :=
  l.reverse.findSome? f

@[simp]
theorem latest_nil (f : α → Option β) : latest f [] = none := rfl

/-- `latest` of a list with one more entry is the value there, if `f` is defined on it, and else the
one before. -/
theorem latest_concat (f : α → Option β) (l : List α) (a : α) :
    latest f (l ++ [a]) = (f a).or (latest f l) := by
  unfold latest
  rw [reverse_append, reverse_singleton, singleton_append, findSome?_cons]
  cases f a <;> rfl

end List

/-! ## Runs -/

namespace Run

variable {σ ε : Type*}

/-- One step of a run: the event, the state it was taken in and the state it led to. -/
structure Step (σ ε : Type*) where
  /-- The state the event found. -/
  before : σ
  /-- The event. -/
  event : ε
  /-- The state the event left. -/
  after : σ

variable (step : σ → ε → σ)

/-- The state after the events `es`, taken in order from `s`. -/
def after (s : σ) (es : List ε) : σ := es.foldl step s

/-- The steps of the run `es` from `s`, in order. -/
def steps (s : σ) : List ε → List (Step σ ε)
  | [] => []
  | e :: es => ⟨s, e, step s e⟩ :: steps (step s e) es

@[simp]
theorem after_nil (s : σ) : after step s [] = s := rfl

@[simp]
theorem after_cons (s : σ) (e : ε) (es : List ε) :
    after step s (e :: es) = after step (step s e) es := rfl

/-- `after` of two stretches of events runs the second one from the state after the first. -/
theorem after_append (s : σ) (es fs : List ε) :
    after step s (es ++ fs) = after step (after step s es) fs := by
  simp [after]

theorem after_concat (s : σ) (es : List ε) (e : ε) :
    after step s (es ++ [e]) = step (after step s es) e := by
  simp [after]

@[simp]
theorem steps_nil (s : σ) : steps step s [] = [] := rfl

@[simp]
theorem steps_cons (s : σ) (e : ε) (es : List ε) :
    steps step s (e :: es) = ⟨s, e, step s e⟩ :: steps step (step s e) es := rfl

/-- The steps of two stretches are those of each of them, the second from the state in which the
first one ends. -/
theorem steps_append (s : σ) (es fs : List ε) :
    steps step s (es ++ fs) = steps step s es ++ steps step (after step s es) fs := by
  induction es generalizing s with
  | nil => rfl
  | cons e es ih => simp [ih]

theorem steps_concat (s : σ) (es : List ε) (e : ε) :
    steps step s (es ++ [e]) =
      steps step s es ++ [⟨after step s es, e, step (after step s es) e⟩] := by
  rw [steps_append]
  rfl

/-- The events of `steps` are those of the run, in their order. -/
@[simp]
theorem steps_map_event (s : σ) (es : List ε) : (steps step s es).map Step.event = es := by
  induction es generalizing s with
  | nil => rfl
  | cons e es ih => simp [ih]

/-- The `steps` of a run are those taken after its proper prefixes, each with the state before and
after. -/
theorem mem_steps_iff {s : σ} {es : List ε} {t : Step σ ε} :
    t ∈ steps step s es ↔
      ∃ pre e post, es = pre ++ e :: post ∧
        t = ⟨after step s pre, e, step (after step s pre) e⟩ := by
  induction es generalizing s with
  | nil => simp
  | cons e es ih =>
    rw [steps_cons, List.mem_cons, ih]
    constructor
    · rintro (rfl | ⟨pre, e', post, rfl, rfl⟩)
      -- the first step comes after no event
      · exact ⟨[], e, es, rfl, rfl⟩
      · exact ⟨e :: pre, e', post, rfl, rfl⟩
    · rintro ⟨pre, e', post, hes, rfl⟩
      cases pre with
      | nil =>
        obtain ⟨rfl, rfl⟩ := List.cons.inj hes
        exact Or.inl rfl
      | cons a pre =>
        obtain ⟨rfl, rfl⟩ := List.cons.inj hes
        exact Or.inr ⟨pre, e', post, rfl, rfl⟩

variable {step}

/-- The invariant rule: a property that holds initially and that every step keeps holds `after`
every run. -/
theorem invariant {P : σ → Prop} (hstep : ∀ s e, P s → P (step s e)) {s : σ} (hs : P s)
    (es : List ε) : P (after step s es) := by
  induction es generalizing s with
  | nil => exact hs
  | cons e es ih => exact ih (hstep s e hs)

/-- A property that holds initially and that every step of the run keeps, if it meets the guard,
holds before every step and at the end of a run whose steps all meet the guard. -/
theorem invariant_of_guard {P : σ → Prop} {G : σ → ε → Prop}
    (hstep : ∀ s e, P s → G s e → P (step s e)) {s : σ} (hs : P s) {es : List ε}
    (hguard : ∀ t ∈ steps step s es, G t.before t.event) :
    (∀ t ∈ steps step s es, P t.before) ∧ P (after step s es) := by
  induction es generalizing s with
  | nil => exact ⟨fun t ht => absurd ht List.not_mem_nil, hs⟩
  | cons e es ih =>
    rw [steps_cons, List.forall_mem_cons] at hguard
    obtain ⟨hbefore, hafter⟩ := ih (hstep s e hs hguard.1) hguard.2
    exact ⟨List.forall_mem_cons.mpr ⟨hs, hbefore⟩, hafter⟩

/-- A relation between a history and the state it leads to: it holds of the empty history, and
each step extends the history by that step. -/
theorem history_invariant {P : List (Step σ ε) → σ → Prop} {s : σ} (hs : P [] s)
    (hstep : ∀ tr s e, P tr s → P (tr ++ [⟨s, e, step s e⟩]) (step s e)) (es : List ε) :
    P (steps step s es) (after step s es) := by
  -- by induction on the run from its end: the history grows there
  induction es using List.reverseRecOn with
  | nil => exact hs
  | append_singleton es e ih =>
    rw [steps_concat, after_concat]
    exact hstep _ _ _ ih

/-- If a step from a good state reaches a good state exactly when its guard holds, then all the
states of a run are good exactly when each of its steps meets the guard. -/
theorem forall_prefix_iff {P : σ → Prop} {G : σ → ε → Prop}
    (hstep : ∀ s e, P s → (P (step s e) ↔ G s e)) {s : σ} (hs : P s) (es : List ε) :
    (∀ pre, pre <+: es → P (after step s pre)) ↔
      ∀ t ∈ steps step s es, G t.before t.event := by
  induction es generalizing s with
  | nil => simp [hs]
  | cons e es ih =>
    rw [steps_cons, List.forall_mem_cons]
    constructor
    · intro hall
      -- the first step leads to a good state, so it met its guard
      have hone : P (step s e) := hall [e] ⟨es, rfl⟩
      refine ⟨(hstep s e hs).mp hone, (ih hone).mp fun pre hpre => ?_⟩
      exact hall (e :: pre) (List.cons_prefix_cons.mpr ⟨rfl, hpre⟩)
    · rintro ⟨hguard, hrest⟩ pre hpre
      have hone : P (step s e) := (hstep s e hs).mpr hguard
      -- a state of the run is the first one, or it is reached from the second
      cases pre with
      | nil => exact hs
      | cons a pre =>
        obtain ⟨rfl, htail⟩ := List.cons_prefix_cons.mp hpre
        exact (ih hone).mpr hrest pre htail

/-- What the steps of a run put out. -/
def outputs {ω : Type*} (step : σ → ε → σ) (output : σ → ε → Option ω) (s : σ) : List ε → List ω
  | [] => []
  | e :: es => (output s e).toList ++ outputs step output (step s e) es

/-- A relation between two states that every step keeps, and that outputs cannot tell apart, gives
the same outputs along a run. -/
theorem outputs_eq_of_alike {ω : Type*} {output : σ → ε → Option ω} {R : σ → σ → Prop}
    (hstep : ∀ s s' e, R s s' → R (step s e) (step s' e))
    (houtput : ∀ s s' e, R s s' → output s e = output s' e) {s s' : σ} (h : R s s')
    (es : List ε) : outputs step output s es = outputs step output s' es := by
  induction es generalizing s s' with
  | nil => rfl
  | cons e es ih => rw [outputs, outputs, houtput s s' e h, ih (hstep s s' e h)]

end Run
