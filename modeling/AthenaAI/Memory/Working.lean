import AthenaAI.Python.Value
import AthenaAI.ToMathlib.Heap
import AthenaAI.ToMathlib.Run

/-!
# Working memory

`athenai.memory.working`. The state of an agent run, its snapshots, and what a process makes of
them.

* An `AgentState` refers to two lists and a dict, and so does the dict that `snapshot` returns. They
  are cells of `WorkingObjects`: the methods that change a state change the cells it refers to.
* `Process` are the states and the snapshots there are, `Process.run` is what operations make of
  them. `load` is a snapshot that is read back from storage, which need not have all the keys.
* `Values` are states and snapshots that share nothing, with what the operations would make of
  those.
-/

/-- An `AgentState`, with its lists and its dict as `S`, `T` and `M`: addresses or values. -/
structure AgentState (S T M : Type) where
  /-- The task. -/
  task : PyStr
  /-- The session. -/
  sessionId : PyStr
  /-- The steps taken so far. -/
  steps : S
  /-- The results of the tool calls so far. -/
  toolResults : T
  /-- The status. -/
  status : PyStr
  /-- The iteration. -/
  iteration : ℤ
  /-- Further data. -/
  metadata : M

/-- A dict of the form that `AgentState.snapshot` returns; a key that it lacks is `none`. -/
structure Snapshot (S T M : Type) where
  /-- The task. -/
  task : Option PyStr
  /-- The session. -/
  sessionId : Option PyStr
  /-- The steps. -/
  steps : Option S
  /-- The results of the tool calls. -/
  toolResults : Option T
  /-- The status. -/
  status : Option PyStr
  /-- The iteration. -/
  iteration : Option ℤ
  /-- Further data. -/
  metadata : Option M

/-- The objects that states and snapshots refer to. -/
structure WorkingObjects where
  /-- The lists of steps. -/
  steps : Heap (List PyStr)
  /-- The lists of tool results. -/
  toolResults : Heap (List PyDict)
  /-- The dicts of metadata. -/
  metadata : Heap PyDict

/-- A state whose lists and dict are objects. -/
abbrev StateObject := AgentState ℕ ℕ ℕ

/-- A snapshot whose lists and dict are objects. -/
abbrev SnapshotObject := Snapshot ℕ ℕ ℕ

/-- A state whose lists and dict are values. -/
abbrev StateValue := AgentState (List PyStr) (List PyDict) PyDict

/-- A snapshot whose lists and dict are values. -/
abbrev SnapshotValue := Snapshot (List PyStr) (List PyDict) PyDict

/-- `AgentState.from_snapshot`, with what `data.get` makes of the keys of the lists and the dict: a
`KeyError` if the task or the session is missing. -/
def Snapshot.restore {S T M S' T' M' : Type} (data : Snapshot S T M) (steps : S')
    (toolResults : T') (metadata : M') : Except PyExc (AgentState S' T' M') :=
  match data.task, data.sessionId with
  | none, _ => .error (.keyError "task".toList)
  | some _, none => .error (.keyError "session_id".toList)
  | some task, some sessionId =>
    .ok {
      task
      sessionId
      steps
      toolResults
      status := data.status.getD "CREATED".toList
      iteration := data.iteration.getD 0
      metadata }

/-- What `from_snapshot` restores, from a snapshot that has the keys `task` and `session_id`;
without one of them it raises a `KeyError`. -/
theorem Snapshot.restore_eq_ok_iff {S T M S' T' M' : Type} {data : Snapshot S T M} {steps : S'}
    {toolResults : T'} {metadata : M'} {state : AgentState S' T' M'} :
    data.restore steps toolResults metadata = .ok state ↔
      ∃ task sessionId, data.task = some task ∧ data.sessionId = some sessionId ∧
        state = ⟨task, sessionId, steps, toolResults, data.status.getD "CREATED".toList,
          data.iteration.getD 0, metadata⟩ := by
  unfold restore
  cases data.task <;> cases data.sessionId <;> simp [eq_comm]

namespace AgentState

/-- `AgentState(task, session_id)`, with lists and a dict that are empty. -/
def init {S T M : Type} (task sessionId : PyStr) (steps : S) (toolResults : T) (metadata : M) :
    AgentState S T M where
  task
  sessionId
  steps
  toolResults
  status := "CREATED".toList
  iteration := 0
  metadata

/-- The entry that `add_tool_result` appends. -/
def toolResult {S T M : Type} (state : AgentState S T M) (tool : PyStr) (result : PyValue)
    (error : Option PyStr) : PyDict :=
  [(.str "tool".toList, .str tool), (.str "result".toList, result),
    (.str "error".toList, (error.map PyValue.str).getD .none),
    (.str "iteration".toList, .int state.iteration)]

/-- The keys and values of `AgentState.snapshot`, with copies of the lists and of the dict. -/
def toSnapshot {S T M S' T' M' : Type} (state : AgentState S T M) (steps : S') (toolResults : T')
    (metadata : M') : Snapshot S' T' M' where
  task := some state.task
  sessionId := some state.sessionId
  steps := some steps
  toolResults := some toolResults
  status := some state.status
  iteration := some state.iteration
  metadata := some metadata

/-! ## The methods on objects -/

variable (state : StateObject) (o : WorkingObjects)

/-- `AgentState(task, session_id)`: each list and dict is a new one. -/
def new (task sessionId : PyStr) : StateObject × WorkingObjects :=
  (init task sessionId (o.steps.alloc []).2 (o.toolResults.alloc []).2 (o.metadata.alloc []).2,
    ⟨(o.steps.alloc []).1, (o.toolResults.alloc []).1, (o.metadata.alloc []).1⟩)

/-- `AgentState.add_step`. -/
def addStep (description : PyStr) : WorkingObjects :=
  { o with steps := o.steps.modify state.steps fun steps => steps ++ [description] }

/-- `AgentState.add_tool_result`. -/
def addToolResult (tool : PyStr) (result : PyValue) (error : Option PyStr) : WorkingObjects :=
  { o with
    toolResults := o.toolResults.modify state.toolResults fun results =>
      results ++ [state.toolResult tool result error] }

/-- `state.metadata[key] = value`. -/
def setMetadata (key : PyStr) (value : PyValue) : WorkingObjects :=
  { o with metadata := o.metadata.modify state.metadata fun d => d.set key value }

/-- `AgentState.snapshot`: `list(..)` and `dict(..)` make new objects. -/
def snapshot : SnapshotObject × WorkingObjects :=
  let steps := o.steps.alloc (o.steps.get state.steps)
  let toolResults := o.toolResults.alloc (o.toolResults.get state.toolResults)
  let metadata := o.metadata.alloc (o.metadata.get state.metadata)
  (state.toSnapshot steps.2 toolResults.2 metadata.2, ⟨steps.1, toolResults.1, metadata.1⟩)

/-- `AgentState.from_snapshot`: what the snapshot refers to is not copied. -/
def fromSnapshot (data : SnapshotObject) : Except PyExc (StateObject × WorkingObjects) := do
  let steps := o.steps.getOrAlloc data.steps []
  let toolResults := o.toolResults.getOrAlloc data.toolResults []
  let metadata := o.metadata.getOrAlloc data.metadata []
  let state ← data.restore steps.2 toolResults.2 metadata.2
  return (state, ⟨steps.1, toolResults.1, metadata.1⟩)

/-- A state with the values of its objects. -/
def view : StateValue :=
  { state with
    steps := o.steps.get state.steps
    toolResults := o.toolResults.get state.toolResults
    metadata := o.metadata.get state.metadata }

end AgentState

namespace Snapshot

/-- A snapshot that is read back from storage: all its objects are new. -/
def load (data : SnapshotValue) (o : WorkingObjects) : SnapshotObject × WorkingObjects :=
  let steps := o.steps.allocOption data.steps
  let toolResults := o.toolResults.allocOption data.toolResults
  let metadata := o.metadata.allocOption data.metadata
  ({ data with steps := steps.2, toolResults := toolResults.2, metadata := metadata.2 },
    ⟨steps.1, toolResults.1, metadata.1⟩)

/-- A snapshot with the values of its objects. -/
def view (data : SnapshotObject) (o : WorkingObjects) : SnapshotValue :=
  { data with
    steps := data.steps.map o.steps.get
    toolResults := data.toolResults.map o.toolResults.get
    metadata := data.metadata.map o.metadata.get }

end Snapshot

/-! ## Processes -/

/-- What a process does. States and snapshots are numbered in the order in which they come up. -/
inductive WorkingOp where
  /-- `AgentState(task, session_id)`. -/
  | create (task sessionId : PyStr)
  /-- A snapshot is read back from storage. -/
  | load (data : SnapshotValue)
  /-- `state.add_step(description)`. -/
  | addStep (state : ℕ) (description : PyStr)
  /-- `state.add_tool_result(tool, result, error)`. -/
  | addToolResult (state : ℕ) (tool : PyStr) (result : PyValue) (error : Option PyStr)
  /-- `state.status = status`. -/
  | setStatus (state : ℕ) (status : PyStr)
  /-- `state.iteration = iteration`. -/
  | setIteration (state : ℕ) (iteration : ℤ)
  /-- `state.metadata[key] = value`. -/
  | setMetadata (state : ℕ) (key : PyStr) (value : PyValue)
  /-- `state.snapshot()`. -/
  | snapshot (state : ℕ)
  /-- `AgentState.from_snapshot(snapshot)`. -/
  | fromSnapshot (snapshot : ℕ)

/-- The states and the snapshots that there are. -/
structure Process where
  /-- The states. -/
  states : List StateObject
  /-- The snapshots. -/
  snapshots : List SnapshotObject
  /-- What they refer to. -/
  objects : WorkingObjects

/-- States and snapshots that share nothing. -/
structure Values where
  /-- The states. -/
  states : List StateValue
  /-- The snapshots. -/
  snapshots : List SnapshotValue

namespace Process

/-- A process at its start. -/
def start : Process := ⟨[], [], ⟨.empty, .empty, .empty⟩⟩

/-- One operation. One that names no state or snapshot, or that raises, changes nothing. -/
def step (p : Process) : WorkingOp → Process
  | .create task sessionId =>
    let new := AgentState.new p.objects task sessionId
    { p with states := p.states ++ [new.1], objects := new.2 }
  | .load data =>
    let loaded := data.load p.objects
    { p with snapshots := p.snapshots ++ [loaded.1], objects := loaded.2 }
  | .addStep i description =>
    match p.states[i]? with
    | some state => { p with objects := state.addStep p.objects description }
    | none => p
  | .addToolResult i tool result error =>
    match p.states[i]? with
    | some state => { p with objects := state.addToolResult p.objects tool result error }
    | none => p
  | .setStatus i status => { p with states := p.states.modify i fun s => { s with status } }
  | .setIteration i iteration =>
    { p with states := p.states.modify i fun s => { s with iteration } }
  | .setMetadata i key value =>
    match p.states[i]? with
    | some state => { p with objects := state.setMetadata p.objects key value }
    | none => p
  | .snapshot i =>
    match p.states[i]? with
    | some state =>
      let taken := state.snapshot p.objects
      { p with snapshots := p.snapshots ++ [taken.1], objects := taken.2 }
    | none => p
  | .fromSnapshot j =>
    match p.snapshots[j]? with
    | some data =>
      match AgentState.fromSnapshot p.objects data with
      | .ok restored => { p with states := p.states ++ [restored.1], objects := restored.2 }
      | .error _ => p
    | none => p

/-- The process after some operations. -/
def run (ops : List WorkingOp) : Process := Run.after step start ops

/-- The states and the snapshots as they read. -/
def view (p : Process) : Values where
  states := p.states.map fun state => state.view p.objects
  snapshots := p.snapshots.map fun data => data.view p.objects

end Process

namespace Values

/-- What an operation makes of states and snapshots that share nothing. -/
def step (v : Values) : WorkingOp → Values
  | .create task sessionId => { v with states := v.states ++ [.init task sessionId [] [] []] }
  | .load data => { v with snapshots := v.snapshots ++ [data] }
  | .addStep i description =>
    { v with states := v.states.modify i fun s => { s with steps := s.steps ++ [description] } }
  | .addToolResult i tool result error =>
    { v with
      states := v.states.modify i fun s =>
        { s with toolResults := s.toolResults ++ [s.toolResult tool result error] } }
  | .setStatus i status => { v with states := v.states.modify i fun s => { s with status } }
  | .setIteration i iteration =>
    { v with states := v.states.modify i fun s => { s with iteration } }
  | .setMetadata i key value =>
    { v with states := v.states.modify i fun s => { s with metadata := s.metadata.set key value } }
  | .snapshot i =>
    match v.states[i]? with
    | some s =>
      { v with snapshots := v.snapshots ++ [s.toSnapshot s.steps s.toolResults s.metadata] }
    | none => v
  | .fromSnapshot j =>
    match v.snapshots[j]? with
    | some data =>
      match data.restore (data.steps.getD []) (data.toolResults.getD [])
          (data.metadata.getD []) with
      | .ok s => { v with states := v.states ++ [s] }
      | .error _ => v
    | none => v

/-- The states and the snapshots after some operations. -/
def run (ops : List WorkingOp) : Values := Run.after step ⟨[], []⟩ ops

end Values

/-- The snapshots that are restored. -/
def restores (ops : List WorkingOp) : List ℕ :=
  ops.filterMap fun
    | .fromSnapshot j => some j
    | _ => none
