import Mathlib.Data.List.Basic
import Mathlib.Tactic.ByContra

/-!
# Pools of interleaved clients

Several clients act on one shared state, one atomic step at a time, in an order given by a schedule:
the list of the clients that act.

* `Pool.step`, `Pool.run`: one step and a whole schedule, for any step function of a client. A
  client that has no step left cannot be scheduled.
* `Pool.Simulation` relates the clients of two such systems one by one. Its field `frame` says that
  the relation of a client survives the steps of the others.
* `Pool.Simulation.run`: every schedule of the first system is one of the second, and leads to
  related pools.
-/

/-- Clients with local states `C` around a shared state `S`. -/
structure Pool (C S : Type) where
  /-- The local states of the clients. -/
  clients : List C
  /-- The state they share. -/
  shared : S

namespace Pool

variable {C S A T : Type}

/-- The step of a simulation: the second system can make every step of the first, and the pools stay
`Related`. -/
def step (next : C → S → Option (C × S)) (p : Pool C S) (i : ℕ) : Option (Pool C S) := do
  let c ← p.clients[i]?
  let (c', s') ← next c p.shared
  some ⟨p.clients.set i c', s'⟩

/-- The run of a simulation: the second system can follow every schedule of the first, and ends in a
`Related` pool. -/
def run (next : C → S → Option (C × S)) : Pool C S → List ℕ → Option (Pool C S)
  | p, [] => some p
  -- a schedule that names a client without a step is no schedule of the pool
  | p, i :: schedule => (p.step next i).bind fun p' => run next p' schedule

variable {next : C → S → Option (C × S)}

/-- What `step` does, once for all proofs: one client moves on, and the shared state with it. -/
theorem step_eq_some_iff {p p' : Pool C S} {i : ℕ} :
    p.step next i = some p' ↔ ∃ c c' s', p.clients[i]? = some c ∧ next c p.shared = some (c', s') ∧
      p' = ⟨p.clients.set i c', s'⟩ := by
  unfold step
  constructor
  · intro hstep
    obtain ⟨c, hc, hstep⟩ := Option.bind_eq_some_iff.mp hstep
    obtain ⟨⟨c', s'⟩, hnext, hstep⟩ := Option.bind_eq_some_iff.mp hstep
    exact ⟨c, c', s', hc, hnext, (Option.some.inj hstep).symm⟩
  · rintro ⟨c, c', s', hc, hnext, rfl⟩
    rw [hc, Option.bind_eq_bind, Option.bind_some, hnext]
    rfl

/-- `run` of a schedule: its first step is possible, and the rest of it runs from there. -/
theorem run_cons_eq_some_iff {p p' : Pool C S} {i : ℕ} {schedule : List ℕ} :
    p.run next (i :: schedule) = some p' ↔
      ∃ q, p.step next i = some q ∧ q.run next schedule = some p' := by
  rw [run, Option.bind_eq_some_iff]

/-- The invariant rule: what every step of a client preserves, every schedule preserves. -/
theorem run_invariant {I : Pool C S → Prop}
    (hstep : ∀ p i p', I p → p.step next i = some p' → I p') {p p' : Pool C S}
    {schedule : List ℕ} (hrun : p.run next schedule = some p') (hp : I p) : I p' := by
  induction schedule generalizing p with
  | nil =>
    obtain rfl := Option.some.inj hrun
    exact hp
  | cons i schedule ih =>
    obtain ⟨q, hq, hrun⟩ := run_cons_eq_some_iff.mp hrun
    exact ih hrun (hstep p i q hp hq)

/-! ## Simulation -/

/-- The clients of one system follow those of another. `client i c a s` relates the local states of
client `i` in the two systems when the shared state of the first is `s`. -/
structure Simulation (next : C → S → Option (C × S)) (next' : A → T → Option (A × T)) where
  /-- The relation between the two states of one client. -/
  client : ℕ → C → A → S → Prop
  /-- The relation between the shared states. -/
  shared : S → T → Prop
  /-- A step of the first system is one of the second. -/
  local_step : ∀ {i c c' a s s' t}, client i c a s → shared s t → next c s = some (c', s') →
    ∃ a' t', next' a t = some (a', t') ∧ client i c' a' s' ∧ shared s' t'
  /-- The steps of a client do not disturb the others. -/
  frame : ∀ {i j c c' a d b s s'}, i ≠ j → client i c a s → next c s = some (c', s') →
    client j d b s → client j d b s'

namespace Simulation

variable {next' : A → T → Option (A × T)}

/-- Two pools are related: their shared states are, and their clients one by one. -/
def Related (sim : Simulation next next') (p : Pool C S) (q : Pool A T) : Prop :=
  sim.shared p.shared q.shared ∧ p.clients.length = q.clients.length ∧
    ∀ i c a, p.clients[i]? = some c → q.clients[i]? = some a → sim.client i c a p.shared

/-- The second system can make every step of the first, and the pools stay related. -/
theorem step (sim : Simulation next next') {p p' : Pool C S} {q : Pool A T} {i : ℕ}
    (hpq : sim.Related p q) (hstep : p.step next i = some p') :
    ∃ q', q.step next' i = some q' ∧ sim.Related p' q' := by
  obtain ⟨hshared, hlength, hclients⟩ := hpq
  obtain ⟨c, c', s', hc, hnext, rfl⟩ := step_eq_some_iff.mp hstep
  obtain ⟨a, ha⟩ : ∃ a, q.clients[i]? = some a := by
    have hi := (List.getElem?_eq_some_iff.mp hc).1
    exact ⟨_, List.getElem?_eq_getElem (hlength ▸ hi)⟩
  have hca := hclients i c a hc ha
  obtain ⟨a', t', hnext', hca', hshared'⟩ := sim.local_step hca hshared hnext
  refine ⟨⟨q.clients.set i a', t'⟩, step_eq_some_iff.mpr ⟨a, a', t', ha, hnext', rfl⟩, hshared',
    by simp [hlength], fun j d b hd hb => ?_⟩
  by_cases hij : i = j
  -- the client that has moved
  · obtain rfl := hij
    rw [List.getElem?_set_self (List.getElem?_eq_some_iff.mp hc).1] at hd
    rw [List.getElem?_set_self (List.getElem?_eq_some_iff.mp ha).1] at hb
    obtain rfl := Option.some.inj hd
    obtain rfl := Option.some.inj hb
    exact hca'
  -- the others, whose local states are as before
  · rw [List.getElem?_set_ne hij] at hd hb
    exact sim.frame hij hca hnext (hclients j d b hd hb)

/-- The second system can follow every schedule of the first, and ends in a related pool. -/
theorem run (sim : Simulation next next') {p p' : Pool C S} {q : Pool A T} {schedule : List ℕ}
    (hpq : sim.Related p q) (hrun : p.run next schedule = some p') :
    ∃ q', q.run next' schedule = some q' ∧ sim.Related p' q' := by
  induction schedule generalizing p q with
  | nil =>
    obtain rfl := Option.some.inj hrun
    exact ⟨q, rfl, hpq⟩
  | cons i schedule ih =>
    obtain ⟨p₁, hstep, hrun⟩ := run_cons_eq_some_iff.mp hrun
    obtain ⟨q₁, hstep', hrelated⟩ := sim.step hpq hstep
    obtain ⟨q', hrun', hrelated'⟩ := ih hrelated hrun
    exact ⟨q', run_cons_eq_some_iff.mpr ⟨q₁, hstep', hrun'⟩, hrelated'⟩

end Simulation

end Pool
