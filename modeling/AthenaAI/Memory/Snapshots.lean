import AthenaAI.Memory.Working
import AthenaAI.ToMathlib.Except
import Mathlib.Data.List.Nodup

/-!
# What snapshots share

`from_snapshot` does not copy the lists and the dict of the snapshot, so a state that is restored
refers to the objects that the snapshot refers to.

* `Process.Apart` says that nothing is shared but by snapshots that have been restored. Every
  operation keeps it, unless it restores a snapshot again (`Process.Apart.step`).
* `Process.view_run_eq`: as long as no snapshot is restored twice, states are as if they shared
  nothing, and snapshots that are not restored stay as they were taken.
* `Process.alike_of_restored_twice`: two states that are restored from one snapshot have the same
  steps, tool results and metadata from then on, whatever is done to either.
-/

namespace Process

/-! ## Who holds an object -/

/-- A state or a snapshot, by its number. -/
abbrev Holder := ℕ ⊕ ℕ

/-- What states and snapshots hold in one of their attributes. A snapshot that has been restored no
longer counts. -/
def held {σ τ β : Type} (states : List σ) (snapshots : List τ) (restored : List ℕ) (p : σ → β)
    (q : τ → Option β) : Holder → Option β
  | .inl i => states[i]?.map p
  | .inr j => if j ∈ restored then none else snapshots[j]?.bind q

section Held

variable {σ τ β : Type} {states : List σ} {snapshots : List τ} {restored : List ℕ} {p : σ → β}
  {q : τ → Option β}

theorem held_state (i : ℕ) : held states snapshots restored p q (.inl i) = states[i]?.map p := rfl

/-- What the state `i` holds is the value `p` of that state. -/
theorem held_of_state {i : ℕ} {s : σ} (hs : states[i]? = some s) :
    held states snapshots restored p q (.inl i) = some (p s) := by
  rw [held_state, hs, Option.map_some]

/-- What a snapshot holds that was not restored is its value; a restored one is shared with the
state, and does not count here. -/
theorem held_snapshot {j : ℕ} (hj : j ∉ restored) :
    held states snapshots restored p q (.inr j) = snapshots[j]?.bind q := if_neg hj

/-- A state that is yet to come holds nothing. -/
theorem held_new_state : held states snapshots restored p q (.inl states.length) = none := by
  rw [held_state, List.getElem?_eq_none le_rfl, Option.map_none]

/-- A snapshot that is yet to come holds nothing. -/
theorem held_new_snapshot : held states snapshots restored p q (.inr snapshots.length) = none := by
  by_cases hmem : snapshots.length ∈ restored
  · exact if_pos hmem
  · rw [held_snapshot hmem, List.getElem?_eq_none le_rfl, Option.bind_none]

theorem held_concat_state (s : σ) :
    held (states ++ [s]) snapshots restored p q =
      Function.update (held states snapshots restored p q) (.inl states.length) (some (p s)) := by
  funext k
  rcases k with i | j
  · rcases Nat.lt_trichotomy i states.length with hlt | rfl | hgt
    · rw [Function.update_of_ne (by simp; omega), held_state, held_state,
        List.getElem?_append_left hlt]
    · rw [Function.update_self, held_state, List.getElem?_concat_length, Option.map_some]
    · rw [Function.update_of_ne (by simp; omega), held_state, held_state,
        List.getElem?_eq_none (by simp; omega), List.getElem?_eq_none (by omega)]
  · rw [Function.update_of_ne (by simp)]
    rfl

theorem held_concat_snapshot (hrestored : ∀ j ∈ restored, j < snapshots.length) (c : τ) :
    held states (snapshots ++ [c]) restored p q =
      Function.update (held states snapshots restored p q) (.inr snapshots.length) (q c) := by
  have hnew : snapshots.length ∉ restored := fun hmem => absurd (hrestored _ hmem) (lt_irrefl _)
  funext k
  rcases k with i | j
  · rw [Function.update_of_ne (by simp)]
    rfl
  · rcases Nat.lt_trichotomy j snapshots.length with hlt | rfl | hgt
    · rw [Function.update_of_ne (by simp; omega), held, held, List.getElem?_append_left hlt]
    · rw [Function.update_self, held_snapshot hnew, List.getElem?_concat_length, Option.bind_some]
    · rw [Function.update_of_ne (by simp; omega), held, held,
        List.getElem?_eq_none (by simp; omega), List.getElem?_eq_none (by omega)]

/-- A snapshot that is restored no longer counts as a holder of what it has. -/
theorem held_cons_restored (j : ℕ) :
    held states snapshots (j :: restored) p q =
      Function.update (held states snapshots restored p q) (.inr j) none := by
  funext k
  rcases k with i | j'
  · rw [Function.update_of_ne (by simp)]
    rfl
  · by_cases hj : j' = j
    · subst hj
      rw [Function.update_self]
      exact if_pos List.mem_cons_self
    · rw [Function.update_of_ne (by simpa using hj), held, held]
      simp [hj]

/-- A snapshot is restored to a new state, which is the holder in its place. -/
theorem held_restored_state (s : σ) (j : ℕ) :
    held (states ++ [s]) snapshots (j :: restored) p q =
      Function.update (Function.update (held states snapshots restored p q) (.inr j) none)
        (.inl states.length) (some (p s)) := by
  rw [held_concat_state, held_cons_restored]

/-- A change of the attribute `p` of one state changes what this state holds, and no other
holder. -/
theorem held_modify_state {f : σ → σ} {g : β → β} {i : ℕ}
    (hf : ∀ s, states[i]? = some s → p (f s) = g (p s)) :
    held (states.modify i f) snapshots restored p q =
      Function.update (held states snapshots restored p q) (.inl i)
        ((held states snapshots restored p q (.inl i)).map g) := by
  funext k
  rcases k with i' | j
  · by_cases hi : i' = i
    · subst hi
      rw [Function.update_self, held_state, held_state, List.getElem?_modify_eq]
      cases hs : states[i']? with
      | none => rfl
      | some s => exact congrArg some (hf s hs)
    · rw [Function.update_of_ne (by simpa using hi), held_state, held_state,
        List.getElem?_modify_ne f _ (Ne.symm hi)]
  · rw [Function.update_of_ne (by simp)]
    rfl

/-- A change of one state that does not concern the attribute `p` changes no holder of it. -/
theorem held_modify_state_of_eq {f : σ → σ} (hf : ∀ s, p (f s) = p s) (i : ℕ) :
    held (states.modify i f) snapshots restored p q = held states snapshots restored p q := by
  rw [held_modify_state (g := id) fun s _ => hf s, Option.map_id, id, Function.update_eq_self]

end Held

/-! ## States that share nothing -/

/-- What a state holds besides its lists and its dict. -/
def bare {S T M : Type} (state : AgentState S T M) : AgentState Unit Unit Unit :=
  { state with steps := (), toolResults := (), metadata := () }

/-- What a snapshot holds besides its lists and its dict. -/
def bareSnapshot {S T M : Type} (data : Snapshot S T M) : Snapshot Unit Unit Unit :=
  { data with steps := none, toolResults := none, metadata := none }

/-- The bare states after a change of one of them that does not concern what is bare. -/
theorem map_bare_modify {S T M : Type} {states : List (AgentState S T M)}
    {f : AgentState S T M → AgentState S T M} (hf : ∀ s, bare (f s) = bare s) (i : ℕ) :
    (states.modify i f).map bare = states.map bare := by
  refine List.ext_getElem? fun j => ?_
  rw [List.getElem?_map, List.getElem?_map, List.getElem?_modify]
  cases states[j]? with
  | none => rfl
  | some s =>
    refine congrArg some ?_
    split_ifs
    · exact hf s
    · rfl

/-- Nothing is shared, but by snapshots that have been restored: every state and every other
snapshot has objects of its own, which have the values that they would have without any sharing. -/
structure Apart (restored : List ℕ) (p : Process) (v : Values) : Prop where
  /-- The lists of steps. -/
  steps : p.objects.steps.Owns
    (held p.states p.snapshots restored AgentState.steps Snapshot.steps)
    (held v.states v.snapshots restored AgentState.steps Snapshot.steps)
  /-- The lists of tool results. -/
  toolResults : p.objects.toolResults.Owns
    (held p.states p.snapshots restored AgentState.toolResults Snapshot.toolResults)
    (held v.states v.snapshots restored AgentState.toolResults Snapshot.toolResults)
  /-- The dicts of metadata. -/
  metadata : p.objects.metadata.Owns
    (held p.states p.snapshots restored AgentState.metadata Snapshot.metadata)
    (held v.states v.snapshots restored AgentState.metadata Snapshot.metadata)
  /-- The other attributes of the states. -/
  states : p.states.map bare = v.states.map bare
  /-- The other keys of the snapshots. -/
  snapshots : p.snapshots.map bareSnapshot = v.snapshots.map bareSnapshot
  /-- The snapshots that have been restored are there. -/
  restored : ∀ j ∈ restored, j < p.snapshots.length

theorem apart_start : Apart [] start ⟨[], []⟩ := by
  have hnone {σ τ β : Type} (p : σ → β) (q : τ → Option β) (k : Holder) :
      held [] [] [] p q k = none := by
    rcases k with i | j <;> rfl
  exact ⟨.of_forall_eq_none (hnone _ _) (hnone _ _), .of_forall_eq_none (hnone _ _) (hnone _ _),
    .of_forall_eq_none (hnone _ _) (hnone _ _), rfl, rfl, fun _ h => absurd h List.not_mem_nil⟩

namespace Apart

variable {restored : List ℕ} {p : Process} {v : Values}

theorem length_states (h : Apart restored p v) : p.states.length = v.states.length := by
  rw [← List.length_map bare, h.states, List.length_map]

theorem length_snapshots (h : Apart restored p v) : p.snapshots.length = v.snapshots.length := by
  rw [← List.length_map bareSnapshot, h.snapshots, List.length_map]

/-- Under `Apart` a state reads, through the heap, as it does in the model of values: nothing that
it holds is shared. -/
theorem view_state (h : Apart restored p v) (i : ℕ) :
    p.states[i]?.map (fun s => s.view p.objects) = v.states[i]? := by
  have hbare : p.states[i]?.map bare = v.states[i]?.map bare := by
    rw [← List.getElem?_map, h.states, List.getElem?_map]
  have hsteps := h.steps.get_eq (.inl i)
  have htoolResults := h.toolResults.get_eq (.inl i)
  have hmetadata := h.metadata.get_eq (.inl i)
  rw [held_state, held_state] at hsteps htoolResults hmetadata
  cases hp : p.states[i]? with
  | none =>
    rw [hp] at hbare
    exact (Option.map_eq_none_iff.mp hbare.symm).symm
  | some s =>
    rw [hp] at hbare hsteps htoolResults hmetadata
    obtain ⟨s', hs', hsame⟩ := Option.map_eq_some_iff.mp hbare.symm
    rw [hs'] at hsteps htoolResults hmetadata ⊢
    obtain ⟨task, sessionId, steps, toolResults, status, iteration, metadata⟩ := s
    obtain ⟨task', sessionId', steps', toolResults', status', iteration', metadata'⟩ := s'
    obtain ⟨rfl, rfl, -, -, rfl, rfl, -⟩ := AgentState.mk.inj hsame
    obtain rfl : p.objects.steps.get steps = steps' := Option.some.inj hsteps
    obtain rfl : p.objects.toolResults.get toolResults = toolResults' :=
      Option.some.inj htoolResults
    obtain rfl : p.objects.metadata.get metadata = metadata' := Option.some.inj hmetadata
    rfl

/-- Under `Apart` a snapshot that has not been restored reads, through the heap, as it does in the
model of values. -/
theorem view_snapshot (h : Apart restored p v) {j : ℕ} (hj : j ∉ restored) :
    p.snapshots[j]?.map (fun c => c.view p.objects) = v.snapshots[j]? := by
  have hbare : p.snapshots[j]?.map bareSnapshot = v.snapshots[j]?.map bareSnapshot := by
    rw [← List.getElem?_map, h.snapshots, List.getElem?_map]
  have hsteps := h.steps.get_eq (.inr j)
  have htoolResults := h.toolResults.get_eq (.inr j)
  have hmetadata := h.metadata.get_eq (.inr j)
  rw [held_snapshot hj, held_snapshot hj] at hsteps htoolResults hmetadata
  cases hp : p.snapshots[j]? with
  | none =>
    rw [hp] at hbare
    exact (Option.map_eq_none_iff.mp hbare.symm).symm
  | some c =>
    rw [hp] at hbare hsteps htoolResults hmetadata
    obtain ⟨c', hc', hsame⟩ := Option.map_eq_some_iff.mp hbare.symm
    rw [hc'] at hsteps htoolResults hmetadata ⊢
    obtain ⟨task, sessionId, steps, toolResults, status, iteration, metadata⟩ := c
    obtain ⟨task', sessionId', steps', toolResults', status', iteration', metadata'⟩ := c'
    obtain ⟨rfl, rfl, -, -, rfl, rfl, -⟩ := Snapshot.mk.inj hsame
    obtain rfl : Option.map p.objects.steps.get steps = steps' := hsteps
    obtain rfl : Option.map p.objects.toolResults.get toolResults = toolResults' := htoolResults
    obtain rfl : Option.map p.objects.metadata.get metadata = metadata' := hmetadata
    rfl

/-! ### Steps -/

variable (h : Apart restored p v)
include h

/-- `Apart` is kept by the creation of a state: it gets objects that nobody else has. -/
theorem create (task sessionId : PyStr) :
    Apart restored (p.step (.create task sessionId)) (v.step (.create task sessionId)) where
  steps := by
    rw [step, Values.step, held_concat_state, held_concat_state, ← h.length_states]
    exact h.steps.alloc [] held_new_state
  toolResults := by
    rw [step, Values.step, held_concat_state, held_concat_state, ← h.length_states]
    exact h.toolResults.alloc [] held_new_state
  metadata := by
    rw [step, Values.step, held_concat_state, held_concat_state, ← h.length_states]
    exact h.metadata.alloc [] held_new_state
  states := by
    rw [step, Values.step, List.map_append, List.map_append, h.states]
    rfl
  snapshots := h.snapshots
  restored := h.restored

theorem load (data : SnapshotValue) :
    Apart restored (p.step (.load data)) (v.step (.load data)) where
  steps := by
    rw [step, Values.step, held_concat_snapshot h.restored,
      held_concat_snapshot (h.length_snapshots ▸ h.restored), ← h.length_snapshots]
    exact h.steps.allocOption data.steps held_new_snapshot
  toolResults := by
    rw [step, Values.step, held_concat_snapshot h.restored,
      held_concat_snapshot (h.length_snapshots ▸ h.restored), ← h.length_snapshots]
    exact h.toolResults.allocOption data.toolResults held_new_snapshot
  metadata := by
    rw [step, Values.step, held_concat_snapshot h.restored,
      held_concat_snapshot (h.length_snapshots ▸ h.restored), ← h.length_snapshots]
    exact h.metadata.allocOption data.metadata held_new_snapshot
  states := h.states
  snapshots := by
    rw [step, Values.step, List.map_append, List.map_append, h.snapshots]
    rfl
  restored j hj := (h.restored j hj).trans_le (by simp [step])

/-- Appending to the steps of a state changes one object, which only that state holds. -/
theorem modify_steps {i : ℕ} {s : StateObject} (hs : p.states[i]? = some s)
    (f : List PyStr → List PyStr) :
    Apart restored
      { p with objects := { p.objects with steps := p.objects.steps.modify s.steps f } }
      { v with states := v.states.modify i fun s => { s with steps := f s.steps } } where
  steps := by
    rw [held_modify_state (g := f) ?_]
    · exact h.steps.modify (held_of_state hs) f
    · exact fun _ _ => rfl
  toolResults := by
    rw [held_modify_state_of_eq ?_]
    · exact h.toolResults
    · exact fun _ => rfl
  metadata := by
    rw [held_modify_state_of_eq ?_]
    · exact h.metadata
    · exact fun _ => rfl
  states := by
    refine h.states.trans (map_bare_modify ?_ i).symm
    exact fun _ => rfl
  snapshots := h.snapshots
  restored := h.restored

theorem modify_metadata {i : ℕ} {s : StateObject} (hs : p.states[i]? = some s)
    (f : PyDict → PyDict) :
    Apart restored
      { p with objects := { p.objects with metadata := p.objects.metadata.modify s.metadata f } }
      { v with states := v.states.modify i fun s => { s with metadata := f s.metadata } } where
  steps := by
    rw [held_modify_state_of_eq ?_]
    · exact h.steps
    · exact fun _ => rfl
  toolResults := by
    rw [held_modify_state_of_eq ?_]
    · exact h.toolResults
    · exact fun _ => rfl
  metadata := by
    rw [held_modify_state (g := f) ?_]
    · exact h.metadata.modify (held_of_state hs) f
    · exact fun _ _ => rfl
  states := by
    refine h.states.trans (map_bare_modify ?_ i).symm
    exact fun _ => rfl
  snapshots := h.snapshots
  restored := h.restored

/-- `Apart` is kept when a tool result is appended: the entry names the iteration, on which the
state and its value agree. -/
theorem addToolResult_of_some {i : ℕ} {s : StateObject} (hs : p.states[i]? = some s) (tool : PyStr)
    (result : PyValue) (error : Option PyStr) :
    Apart restored { p with objects := s.addToolResult p.objects tool result error }
      (v.step (.addToolResult i tool result error)) where
  steps := by
    rw [Values.step, held_modify_state_of_eq ?_]
    · exact h.steps
    · exact fun _ => rfl
  toolResults := by
    rw [Values.step, held_modify_state (g := fun results =>
      results ++ [s.toolResult tool result error]) ?_]
    · exact h.toolResults.modify (held_of_state hs) _
    · intro s' hs'
      have hview := h.view_state i
      rw [hs, hs', Option.map_some] at hview
      obtain rfl := Option.some.inj hview
      rfl
  metadata := by
    rw [Values.step, held_modify_state_of_eq ?_]
    · exact h.metadata
    · exact fun _ => rfl
  states := by
    refine h.states.trans (map_bare_modify ?_ i).symm
    exact fun _ => rfl
  snapshots := h.snapshots
  restored := h.restored

/-- A change of an attribute that is no object, such as the status, is one of the state alone, and
keeps `Apart`. -/
theorem modify_bare {f : StateObject → StateObject} {f' : StateValue → StateValue}
    (hbare : ∀ s s', bare s = bare s' → bare (f s) = bare (f' s'))
    (hf : ∀ s, (f s).steps = s.steps ∧ (f s).toolResults = s.toolResults ∧
      (f s).metadata = s.metadata)
    (hf' : ∀ s, (f' s).steps = s.steps ∧ (f' s).toolResults = s.toolResults ∧
      (f' s).metadata = s.metadata) (i : ℕ) :
    Apart restored { p with states := p.states.modify i f }
      { v with states := v.states.modify i f' } where
  steps := by
    rw [held_modify_state_of_eq fun s => (hf s).1, held_modify_state_of_eq fun s => (hf' s).1]
    exact h.steps
  toolResults := by
    rw [held_modify_state_of_eq fun s => (hf s).2.1, held_modify_state_of_eq fun s => (hf' s).2.1]
    exact h.toolResults
  metadata := by
    rw [held_modify_state_of_eq fun s => (hf s).2.2, held_modify_state_of_eq fun s => (hf' s).2.2]
    exact h.metadata
  states := by
    refine List.ext_getElem? fun j => ?_
    have hj : p.states[j]?.map bare = v.states[j]?.map bare := by
      rw [← List.getElem?_map, h.states, List.getElem?_map]
    rw [List.getElem?_map, List.getElem?_map, List.getElem?_modify, List.getElem?_modify]
    cases hs : p.states[j]? with
    | none =>
      rw [hs] at hj
      rw [Option.map_eq_none_iff.mp hj.symm]
      rfl
    | some s =>
      rw [hs] at hj
      obtain ⟨s', hs', hsame⟩ := Option.map_eq_some_iff.mp hj.symm
      rw [hs']
      refine congrArg some ?_
      split_ifs
      · exact hbare s s' hsame.symm
      · exact hsame.symm
  snapshots := h.snapshots
  restored := h.restored

/-- A snapshot copies the lists and the `dict` of its state into new objects, which nobody else
holds, so it keeps `Apart`. -/
theorem snapshot_of_some {i : ℕ} {s : StateObject} {s' : StateValue} (hs : p.states[i]? = some s)
    (hs' : v.states[i]? = some s') :
    Apart restored
      { p with
        snapshots := p.snapshots ++ [(s.snapshot p.objects).1]
        objects := (s.snapshot p.objects).2 }
      { v with
        snapshots := v.snapshots ++ [s'.toSnapshot s'.steps s'.toolResults s'.metadata] } := by
  -- it is as if its value were read back from storage
  have hview := h.view_state i
  rw [hs, hs', Option.map_some] at hview
  obtain rfl := Option.some.inj hview
  exact h.load ((s.view p.objects).toSnapshot (p.objects.steps.get s.steps)
    (p.objects.toolResults.get s.toolResults) (p.objects.metadata.get s.metadata))

/-- A state that is restored gets the objects of the snapshot, not copies; it keeps `Apart` if the
snapshot has not been restored before, and counts as restored from then on. -/
theorem fromSnapshot_of_some {j : ℕ} {data : SnapshotObject} {data' : SnapshotValue}
    (hj : j ∉ restored) (hdata : p.snapshots[j]? = some data)
    (hdata' : v.snapshots[j]? = some data') {s : StateObject} {o : WorkingObjects}
    (hs : AgentState.fromSnapshot p.objects data = .ok (s, o)) :
    ∃ s', data'.restore (data'.steps.getD []) (data'.toolResults.getD [])
        (data'.metadata.getD []) = .ok s' ∧
      Apart (j :: restored) { p with states := p.states ++ [s], objects := o }
        { v with states := v.states ++ [s'] } := by
  have hview := h.view_snapshot hj
  rw [hdata, hdata', Option.map_some] at hview
  obtain rfl := Option.some.inj hview
  obtain ⟨state, hstate, hpair⟩ := Except.bind_eq_ok_iff.mp hs
  obtain ⟨rfl, rfl⟩ := Prod.mk.inj (Except.ok.inj hpair)
  obtain ⟨task, sessionId, htask, hsession, rfl⟩ := Snapshot.restore_eq_ok_iff.mp hstate
  refine ⟨_, Snapshot.restore_eq_ok_iff.mpr ⟨task, sessionId, htask, hsession, rfl⟩, ?_⟩
  -- the objects pass from the snapshot to the state
  refine ⟨?_, ?_, ?_, ?_, h.snapshots, ?_⟩
  · have hmove := h.steps.getOrAlloc [] (.inr j) held_new_state
    rw [held_snapshot hj, held_snapshot hj, hdata, hdata', Option.bind_some,
      Option.bind_some] at hmove
    rw [held_restored_state, held_restored_state, ← h.length_states]
    exact hmove
  · have hmove := h.toolResults.getOrAlloc [] (.inr j) held_new_state
    rw [held_snapshot hj, held_snapshot hj, hdata, hdata', Option.bind_some,
      Option.bind_some] at hmove
    rw [held_restored_state, held_restored_state, ← h.length_states]
    exact hmove
  · have hmove := h.metadata.getOrAlloc [] (.inr j) held_new_state
    rw [held_snapshot hj, held_snapshot hj, hdata, hdata', Option.bind_some,
      Option.bind_some] at hmove
    rw [held_restored_state, held_restored_state, ← h.length_states]
    exact hmove
  · rw [List.map_append, List.map_append, h.states]
    rfl
  · refine List.forall_mem_cons.mpr ⟨?_, h.restored⟩
    exact (List.getElem?_eq_some_iff.mp hdata).1

/-- Every operation keeps states and snapshots `Apart`, unless it restores a snapshot that was
restored before. -/
theorem step {op : WorkingOp} (hop : ∀ j ∈ restored, op ≠ .fromSnapshot j) :
    ∃ restored', restored' ⊆ restores [op] ++ restored ∧
      Apart restored' (p.step op) (v.step op) := by
  have hold {p' : Process} {v' : Values} (h' : Apart restored p' v') :
      ∃ restored', restored' ⊆ restores [op] ++ restored ∧ Apart restored' p' v' :=
    ⟨restored, List.subset_append_right _ _, h'⟩
  cases op with
  | create task sessionId => exact hold (h.create task sessionId)
  | load data => exact hold (h.load data)
  | addStep i description =>
    refine hold ?_
    rw [Process.step, Values.step]
    cases hs : p.states[i]? with
    | none =>
      rw [List.modify_eq_self (h.length_states ▸ List.getElem?_eq_none_iff.mp hs)]
      exact h
    | some s => exact h.modify_steps hs fun steps => steps ++ [description]
  | addToolResult i tool result error =>
    refine hold ?_
    rw [Process.step]
    cases hs : p.states[i]? with
    | none =>
      rw [Values.step, List.modify_eq_self (h.length_states ▸ List.getElem?_eq_none_iff.mp hs)]
      exact h
    | some s => exact h.addToolResult_of_some hs tool result error
  | setStatus i status =>
    refine hold (h.modify_bare ?_ ?_ ?_ i)
    · exact fun _ _ hsame => congrArg (fun s => { s with status }) hsame
    · exact fun _ => ⟨rfl, rfl, rfl⟩
    · exact fun _ => ⟨rfl, rfl, rfl⟩
  | setIteration i iteration =>
    refine hold (h.modify_bare ?_ ?_ ?_ i)
    · exact fun _ _ hsame => congrArg (fun s => { s with iteration }) hsame
    · exact fun _ => ⟨rfl, rfl, rfl⟩
    · exact fun _ => ⟨rfl, rfl, rfl⟩
  | setMetadata i key value =>
    refine hold ?_
    rw [Process.step, Values.step]
    cases hs : p.states[i]? with
    | none =>
      rw [List.modify_eq_self (h.length_states ▸ List.getElem?_eq_none_iff.mp hs)]
      exact h
    | some s => exact h.modify_metadata hs fun d => d.set key value
  | snapshot i =>
    refine hold ?_
    have hview := h.view_state i
    rw [Process.step, Values.step]
    cases hs : p.states[i]? with
    | none =>
      rw [hs] at hview
      rw [← hview]
      exact h
    | some s =>
      rw [hs] at hview
      rw [← hview]
      exact h.snapshot_of_some hs hview.symm
  | fromSnapshot j =>
    have hj : j ∉ restored := fun hmem => hop j hmem rfl
    have hview := h.view_snapshot hj
    rw [Process.step, Values.step]
    cases hdata : p.snapshots[j]? with
    | none =>
      rw [hdata] at hview
      rw [← hview]
      exact hold h
    | some data =>
      rw [hdata] at hview
      rw [← hview]
      cases hs : AgentState.fromSnapshot p.objects data with
      | ok restoredState =>
        obtain ⟨s', hs', hrestored⟩ := h.fromSnapshot_of_some hj hdata hview.symm hs
        refine ⟨j :: restored, List.Subset.refl _, ?_⟩
        simp only [Option.map_some, hs, hs']
        exact hrestored
      | error e =>
        refine hold ?_
        cases hs' : (data.view p.objects).restore ((data.view p.objects).steps.getD [])
            ((data.view p.objects).toolResults.getD [])
            ((data.view p.objects).metadata.getD []) with
        | ok s' =>
          -- both need the same two keys
          obtain ⟨task, sessionId, htask, hsession, -⟩ := Snapshot.restore_eq_ok_iff.mp hs'
          have hok : data.restore (p.objects.steps.getOrAlloc data.steps []).2
              (p.objects.toolResults.getOrAlloc data.toolResults []).2
              (p.objects.metadata.getOrAlloc data.metadata []).2 = .ok _ :=
            Snapshot.restore_eq_ok_iff.mpr ⟨task, sessionId, htask, hsession, rfl⟩
          rw [AgentState.fromSnapshot, hok] at hs
          exact absurd hs nofun
        | error e' =>
          simp only [Option.map_some, hs, hs']
          exact h

end Apart

/-! ## Runs -/

/-- In a run that restores no snapshot twice, nothing is shared but by snapshots that have been
restored. -/
theorem apart_run {ops : List WorkingOp} (h : (restores ops).Nodup) :
    ∃ restored, restored ⊆ restores ops ∧ Apart restored (run ops) (Values.run ops) := by
  induction ops using List.reverseRecOn with
  | nil => exact ⟨[], List.nil_subset _, apart_start⟩
  | append_singleton ops op ih =>
    have happend : restores (ops ++ [op]) = restores ops ++ restores [op] := List.filterMap_append
    rw [happend] at h ⊢
    obtain ⟨restored, hsub, hapart⟩ := ih (List.nodup_append.mp h).1
    have hop : ∀ j ∈ restored, op ≠ .fromSnapshot j := by
      rintro j hj rfl
      exact List.disjoint_of_nodup_append h (hsub hj) (List.mem_singleton_self j)
    obtain ⟨restored', hsub', hapart'⟩ := hapart.step hop
    refine ⟨restored', fun j hj => ?_, ?_⟩
    · rcases List.mem_append.mp (hsub' hj) with hj | hj
      · exact List.mem_append_right _ hj
      · exact List.mem_append_left _ (hsub hj)
    · rw [run, Values.run, Run.after_concat, Run.after_concat]
      exact hapart'

/-- As long as no snapshot is restored twice, every state is as if `from_snapshot` made copies
(`Values.run`, the same operations on values without a heap), and every snapshot that is not
restored stays as it was taken, whatever is done to the states. -/
theorem view_run_eq {ops : List WorkingOp} (h : (restores ops).Nodup) :
    (run ops).view.states = (Values.run ops).states ∧
      ∀ j ∉ restores ops, (run ops).view.snapshots[j]? = (Values.run ops).snapshots[j]? := by
  obtain ⟨restored, hsub, hapart⟩ := apart_run h
  refine ⟨List.ext_getElem? fun i => ?_, fun j hj => ?_⟩
  · rw [view, List.getElem?_map]
    exact hapart.view_state i
  · rw [view, List.getElem?_map]
    exact hapart.view_snapshot fun hmem => hj (hsub hmem)

/-- A state that is restored once, and goes on. -/
def resumed : List WorkingOp :=
  [.create "compute 2+2".toList "s1".toList, .addStep 0 "call calculator".toList, .snapshot 0,
    .fromSnapshot 0, .addStep 0 "give up".toList,
    .addToolResult 1 "calculator".toList (.int 4) none]

/-- `view_run_eq` for a state that goes on after a snapshot was taken and another one that is
restored from it: what either of the two does is not seen in the other. -/
theorem view_run_resumed :
    (run resumed).view.states = (Values.run resumed).states ∧
      ∀ j ∉ restores resumed,
        (run resumed).view.snapshots[j]? = (Values.run resumed).snapshots[j]? :=
  view_run_eq (List.nodup_singleton 0)

/-! ## Sharing -/

/-- The states refer to the same objects. -/
structure SameObjects (s t : StateObject) : Prop where
  /-- The same list of steps. -/
  steps : s.steps = t.steps
  /-- The same list of tool results. -/
  toolResults : s.toolResults = t.toolResults
  /-- The same dict of metadata. -/
  metadata : s.metadata = t.metadata

/-- A snapshot with all the keys that a restored state takes objects or its name from, as those are
that `snapshot` returns. -/
structure Complete (data : SnapshotObject) : Prop where
  /-- There is a task. -/
  task : data.task.isSome
  /-- There is a session. -/
  sessionId : data.sessionId.isSome
  /-- There are steps. -/
  steps : data.steps.isSome
  /-- There are tool results. -/
  toolResults : data.toolResults.isSome
  /-- There is metadata. -/
  metadata : data.metadata.isSome

/-- A state refers to the same objects (`SameObjects`) after any operation: an attribute is never
assigned another list. -/
theorem states_step {p : Process} {i : ℕ} {s : StateObject} (hs : p.states[i]? = some s)
    (op : WorkingOp) : ∃ t, (p.step op).states[i]? = some t ∧ SameObjects s t := by
  have hsame : SameObjects s s := ⟨rfl, rfl, rfl⟩
  have hconcat (new : StateObject) : (p.states ++ [new])[i]? = some s := by
    rw [List.getElem?_append_left (List.getElem?_eq_some_iff.mp hs).1, hs]
  have hmodify {f : StateObject → StateObject} (hf : SameObjects s (f s)) (i' : ℕ) :
      ∃ t, (p.states.modify i' f)[i]? = some t ∧ SameObjects s t := by
    rw [List.getElem?_modify, hs]
    split_ifs
    · exact ⟨_, rfl, hf⟩
    · exact ⟨_, rfl, hsame⟩
  cases op with
  | create task sessionId => exact ⟨s, hconcat _, hsame⟩
  | load data => exact ⟨s, hs, hsame⟩
  | setStatus i' status => exact hmodify ⟨rfl, rfl, rfl⟩ i'
  | setIteration i' iteration => exact hmodify ⟨rfl, rfl, rfl⟩ i'
  | addStep i' _ | addToolResult i' _ _ _ | setMetadata i' _ _ | snapshot i' =>
    rw [step]
    split <;> exact ⟨s, hs, hsame⟩
  | fromSnapshot j =>
    rw [step]
    split
    · split
      · exact ⟨s, hconcat _, hsame⟩
      · exact ⟨s, hs, hsame⟩
    · exact ⟨s, hs, hsame⟩

/-- A snapshot keeps the objects that it was made with, whatever the operation. -/
theorem snapshots_step {p : Process} {j : ℕ} {data : SnapshotObject}
    (hdata : p.snapshots[j]? = some data) (op : WorkingOp) :
    (p.step op).snapshots[j]? = some data := by
  have hconcat (new : SnapshotObject) : (p.snapshots ++ [new])[j]? = some data := by
    rw [List.getElem?_append_left (List.getElem?_eq_some_iff.mp hdata).1, hdata]
  cases op with
  | create | setStatus | setIteration => exact hdata
  | load loaded => exact hconcat _
  | addStep i _ | addToolResult i _ _ _ | setMetadata i _ _ =>
    rw [step]
    split <;> exact hdata
  | snapshot i =>
    rw [step]
    split
    · exact hconcat _
    · exact hdata
  | fromSnapshot j' =>
    rw [step]
    split
    · split <;> exact hdata
    · exact hdata

/-- A state keeps the objects it was created with: operations change what is in them, and never
which they are (`SameObjects`). -/
theorem states_after {p : Process} {i : ℕ} {s : StateObject} (hs : p.states[i]? = some s)
    (ops : List WorkingOp) :
    ∃ t, (Run.after step p ops).states[i]? = some t ∧ SameObjects s t := by
  refine Run.invariant (P := fun p : Process => ∃ t, p.states[i]? = some t ∧ SameObjects s t)
    (fun p op hp => ?_) ⟨s, hs, rfl, rfl, rfl⟩ ops
  obtain ⟨t, ht, hst⟩ := hp
  obtain ⟨u, hu, htu⟩ := states_step ht op
  exact ⟨u, hu, hst.steps.trans htu.steps, hst.toolResults.trans htu.toolResults,
    hst.metadata.trans htu.metadata⟩

/-- A snapshot stays as it is, also if what its lists hold is changed through a state. -/
theorem snapshots_after {p : Process} {j : ℕ} {data : SnapshotObject}
    (hdata : p.snapshots[j]? = some data) (ops : List WorkingOp) :
    (Run.after step p ops).snapshots[j]? = some data :=
  Run.invariant (P := fun p : Process => p.snapshots[j]? = some data)
    (fun _ op hp => snapshots_step hp op) hdata ops

/-- A state that is restored from a `Complete` snapshot refers to the objects of the snapshot, its
lists and its `dict`. -/
theorem states_fromSnapshot {p : Process} {j : ℕ} {data : SnapshotObject}
    (hdata : p.snapshots[j]? = some data) (hcomplete : Complete data) :
    ∃ s, (p.step (.fromSnapshot j)).states[p.states.length]? = some s ∧
      data.steps = some s.steps ∧ data.toolResults = some s.toolResults ∧
      data.metadata = some s.metadata := by
  obtain ⟨htask, hsessionId, hsteps, htoolResults, hmetadata⟩ := hcomplete
  obtain ⟨task, sessionId, steps, toolResults, status, iteration, metadata⟩ := data
  obtain ⟨task, rfl⟩ := Option.isSome_iff_exists.mp htask
  obtain ⟨sessionId, rfl⟩ := Option.isSome_iff_exists.mp hsessionId
  obtain ⟨steps, rfl⟩ := Option.isSome_iff_exists.mp hsteps
  obtain ⟨toolResults, rfl⟩ := Option.isSome_iff_exists.mp htoolResults
  obtain ⟨metadata, rfl⟩ := Option.isSome_iff_exists.mp hmetadata
  rw [step, hdata]
  exact ⟨_, List.getElem?_concat_length, rfl, rfl, rfl⟩

/-- States that refer to the same objects (`SameObjects`) read alike in every heap. -/
theorem SameObjects.view {s t : StateObject} (h : SameObjects s t) (o : WorkingObjects) :
    (s.view o).steps = (t.view o).steps ∧ (s.view o).toolResults = (t.view o).toolResults ∧
      (s.view o).metadata = (t.view o).metadata :=
  ⟨congrArg o.steps.get h.steps, congrArg o.toolResults.get h.toolResults,
    congrArg o.metadata.get h.metadata⟩

/-- Two states that are restored from one snapshot, if it is `Complete`, have the same steps, tool
results and metadata from then on, whatever is done to either of them: `from_snapshot` hands out the
lists and the `dict` of the snapshot, and both states hold them. -/
theorem alike_of_restored_twice {first second third : List WorkingOp} {j : ℕ}
    {data : SnapshotObject} (hdata : (run first).snapshots[j]? = some data)
    (hcomplete : Complete data) :
    ∃ s t : StateValue,
      (run (first ++ .fromSnapshot j :: (second ++ .fromSnapshot j :: third))).view.states[
          (run first).states.length]? = some s ∧
        (run (first ++ .fromSnapshot j :: (second ++ .fromSnapshot j :: third))).view.states[
          (run (first ++ .fromSnapshot j :: second)).states.length]? = some t ∧
        s.steps = t.steps ∧ s.toolResults = t.toolResults ∧ s.metadata = t.metadata := by
  have hrun (ops ops' : List WorkingOp) :
      run (ops ++ .fromSnapshot j :: ops') =
        Run.after step ((run ops).step (.fromSnapshot j)) ops' := by
    rw [run, Run.after_append, Run.after_cons]
    rfl
  rw [← List.cons_append, ← List.append_assoc, hrun, hrun]
  -- the state that is restored first, and then both of them
  obtain ⟨s, hs, hsteps, htoolResults, hmetadata⟩ := states_fromSnapshot hdata hcomplete
  have hdata' := snapshots_after (snapshots_step hdata (.fromSnapshot j)) second
  obtain ⟨t, ht, hsteps', htoolResults', hmetadata'⟩ := states_fromSnapshot hdata' hcomplete
  obtain ⟨s₁, hs₁, hsame₁⟩ := states_after hs (second ++ .fromSnapshot j :: third)
  obtain ⟨t₁, ht₁, hsame₂⟩ := states_after ht third
  rw [Run.after_append, Run.after_cons] at hs₁
  have hsame : SameObjects s₁ t₁ := by
    refine ⟨?_, ?_, ?_⟩
    · rw [← hsame₁.steps, ← hsame₂.steps]
      exact Option.some.inj (hsteps.symm.trans hsteps')
    · rw [← hsame₁.toolResults, ← hsame₂.toolResults]
      exact Option.some.inj (htoolResults.symm.trans htoolResults')
    · rw [← hsame₁.metadata, ← hsame₂.metadata]
      exact Option.some.inj (hmetadata.symm.trans hmetadata')
  rw [view, List.getElem?_map, List.getElem?_map, hs₁, ht₁]
  exact ⟨_, _, rfl, rfl, hsame.view _⟩

/-- A snapshot of a state, restored twice. -/
def restoredTwice : List WorkingOp :=
  [.create "compute 2+2".toList "s1".toList, .snapshot 0]

/-- `alike_of_restored_twice` for a snapshot that is restored twice: the step that the one state
takes is a step that the other has taken. -/
theorem alike_restoredTwice :
    ∃ s t : StateValue,
      (run (restoredTwice ++ .fromSnapshot 0 :: ([] ++ .fromSnapshot 0 ::
          [.addStep 1 "call calculator".toList]))).view.states[1]? = some s ∧
        (run (restoredTwice ++ .fromSnapshot 0 :: ([] ++ .fromSnapshot 0 ::
          [.addStep 1 "call calculator".toList]))).view.states[2]? = some t ∧
        s.steps = t.steps ∧ s.toolResults = t.toolResults ∧ s.metadata = t.metadata :=
  @alike_of_restored_twice restoredTwice [] _ 0 _ rfl ⟨rfl, rfl, rfl, rfl, rfl⟩

end Process
