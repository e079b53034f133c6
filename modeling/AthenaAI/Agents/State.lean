import AthenaAI.Python.Value

/-!
# Agent states

`athenai.agents.state`. The states of an agent run, the legal transitions between them, and the
trace a run leaves.

* `AgentStatus` are the states, with their texts (`AgentStatus.value`). `AgentStatus.transitions` is
  the table of the source, in which the two terminal states lead nowhere.
* `AgentStatus.transition` goes to a state that the table lists and raises a `ValueError` for any
  other one. `AgentStatus.transition_of_mem` is the case that the loop of the executor relies on.
* `AgentStep` and `AgentResult` are what a run records of an iteration and what it returns.
-/

/-- `AgentStatus`. -/
inductive AgentStatus where
  | CREATED
  | RUNNING
  | AWAITING_TOOL
  | COMPLETED
  | FAILED
  deriving DecidableEq, Repr

namespace AgentStatus

/-- The text of a status. -/
def value : AgentStatus → PyStr
  | CREATED => "created".toList
  | RUNNING => "running".toList
  | AWAITING_TOOL => "awaiting_tool".toList
  | COMPLETED => "completed".toList
  | FAILED => "failed".toList

/-- `_TRANSITIONS`. A terminal status has none. -/
def transitions : AgentStatus → List AgentStatus
  | CREATED => [RUNNING]
  | RUNNING => [AWAITING_TOOL, COMPLETED, FAILED]
  | AWAITING_TOOL => [RUNNING, FAILED]
  | COMPLETED => []
  | FAILED => []

/-- `transition`. -/
def transition (current target : AgentStatus) : Except PyExc AgentStatus :=
  if target ∈ transitions current then .ok target
  -- the f-string shows the values of the two members
  else
    .error (.of .ValueError
      ("illegal transition: ".toList ++ current.value ++ " → ".toList ++ target.value))

/-- A transition that is listed in `transitions` leads to its target; every other one raises. -/
theorem transition_of_mem {current target : AgentStatus} (h : target ∈ transitions current) :
    transition current target = .ok target := if_pos h

end AgentStatus

/-- One iteration of the agent loop: a response of the model and the tool calls in it. -/
structure AgentStep where
  /-- The number of the iteration. -/
  iteration : ℕ
  /-- The text of the response. -/
  modelResponse : PyStr
  /-- The tool calls in the response. -/
  toolCalls : List PyValue := []
  /-- What the tool calls came to. -/
  toolResults : List PyDict := []

/-- What an agent run returns. -/
structure AgentResult where
  /-- The answer. -/
  finalAnswer : PyStr
  /-- The iterations. -/
  steps : List AgentStep
  /-- How many iterations there were. -/
  totalIterations : ℕ
  /-- The status at the end. -/
  status : AgentStatus
