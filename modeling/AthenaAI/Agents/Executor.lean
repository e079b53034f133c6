import AthenaAI.Agents.State
import AthenaAI.Agents.ToolCalls
import AthenaAI.Python.Json
import AthenaAI.ToMathlib.BoundedLoop
import AthenaAI.Tools.Registry

/-!
# The agent loop

`athenai.agents.executor`. `run` asks the model, executes the tool calls in its response, tells it
the results, and goes on until a response has no tool calls or the iterations are used up.

* `iteration` is the body of the loop from the response of the model on, and `body` all of it.
* The calls of a response run concurrently. `gather` has their outcomes in the order of the calls,
  with exceptions returned as values; `record` is what the loop then makes of each of them.
* `run` returns the requests that were sent to the model along with its outcome.
* `iteration_eq_ok_iff` says what an iteration can do.
-/

/-- The executor. The model is reached through its answers. -/
structure AgentExecutor where
  /-- The tools. -/
  registry : ToolRegistry
  /-- The number of iterations after which a run gives up. -/
  maxIterations : ℕ := 10

namespace AgentExecutor

/-- The state of the loop between two iterations. -/
structure LoopState where
  /-- The status. -/
  status : AgentStatus
  /-- The trace so far. -/
  steps : List AgentStep
  /-- The conversation so far. -/
  messages : List Message

variable (executor : AgentExecutor) (lim : Json.Limits) (loads : Loads)

/-- `AgentExecutor._build_system_prompt`. -/
def buildSystemPrompt : Except PyExc PyStr :=
  let schemas := executor.registry.getSchemas
  -- without tools the model is not told about the protocol
  if schemas.isEmpty then .ok "You are a helpful AI assistant.".toList
  else do
    let toolsJson ← Json.dumpsIndent lim 2 (.list (schemas.map .dict))
    return "You are a helpful AI assistant with access to the following tools:\n\n".toList ++
      toolsJson ++ "\n\n".toList ++
      "To use a tool, include EXACTLY this format (one tool call per line):\n".toList ++
      "TOOL_CALL: \x7b\"name\": \"tool_name\", \"arguments\": \x7b...\x7d\x7d\n\n".toList ++
      "When you have computed the final answer, respond with plain text only ".toList ++
      "(no TOOL_CALL prefix). Execute multiple tools on separate lines when needed.".toList

/-- `AgentExecutor._execute_tool`, for the call at a position of an iteration. -/
def executeTool (k position : ℕ) (toolCall : PyValue) : Except PyExc PyValue := do
  let tool ← executor.registry.get (← toolCall.getItem "name".toList)
  tool.execute k position (← toolCall.getItem "arguments".toList)

/-- An outcome as `asyncio.gather` returns it, with `return_exceptions=True`. -/
def returned : Except PyExc PyValue → PyValue
  | .ok result => result
  | .error e => .exception e

/-- `asyncio.gather` on the calls of an iteration. -/
def gather (k : ℕ) (toolCalls : List PyValue) : List PyValue :=
  toolCalls.mapIdx fun position toolCall => returned (executor.executeTool k position toolCall)

/-- The content of the message about a result: a string as it is, any other value as JSON. -/
def payload : PyValue → Except PyExc PyStr
  | .str s => .ok s
  | result => Json.dumps lim result

/-- What the loop over the results makes of the result of a call: an entry of `tool_results` and a
message to the model. Nothing here is inside a `try`. -/
def record (toolCall result : PyValue) : Except PyExc (PyDict × Message) :=
  match result with
  -- a tool that returns an exception is treated like one that raises it
  | .exception e => do
    let text ← e.str
    let payload ← Json.dumps lim (.dict [("error".toList, .str text)])
    let name ← toolCall.getItem "name".toList
    return ([("name".toList, name), ("error".toList, .str text)],
      ⟨"tool".toList, payload, some name⟩)
  | result => do
    let payload ← payload lim result
    let name ← toolCall.getItem "name".toList
    return ([("name".toList, name), ("result".toList, result)],
      ⟨"tool".toList, payload, some name⟩)

/-- Iteration `k`, from the response of the model on: the state it leaves, or the result of the
run. -/
def iteration (k : ℕ) (response : ModelResponse) (s : LoopState) :
    Except PyExc (LoopState ⊕ AgentResult) := do
  let toolCalls ← toolCalls loads response
  -- no tool calls: the response is the final answer
  if toolCalls.isEmpty then
    let steps := s.steps ++ [⟨k, response.content, toolCalls, []⟩]
    let status ← s.status.transition .COMPLETED
    return .inr ⟨response.content, steps, k + 1, status⟩
  else
    let status ← s.status.transition .AWAITING_TOOL
    let results := executor.gather k toolCalls
    let recorded ← (toolCalls.zip results).mapM fun (toolCall, result) =>
      record lim toolCall result
    let steps := s.steps ++ [⟨k, response.content, toolCalls, recorded.map Prod.fst⟩]
    -- the tool messages come before the turn of the assistant that asked for them
    let messages := s.messages ++ recorded.map Prod.snd ++
      [⟨"assistant".toList, response.content, none⟩]
    let status ← status.transition .RUNNING
    return .inl ⟨status, steps, messages⟩

/-- The request that an iteration sends. -/
def request (system : PyStr) (s : LoopState) : ModelRequest where
  messages := s.messages
  modelName := "agent".toList
  system := system

/-- The body of the loop. `generate k` is the answer of the model in iteration `k`. -/
def body (generate : ℕ → ModelRequest → ModelResponse) (system : PyStr) :
    BoundedLoop.Body ModelRequest LoopState AgentResult PyExc := fun k s =>
  (request system s, executor.iteration lim loads k (generate k (request system s)) s)

/-- The end of a run that has used up its iterations. -/
def giveUp (s : LoopState) : Except PyExc AgentResult := do
  let status ← s.status.transition .FAILED
  -- `steps[-1].model_response if steps`
  let lastResponse := match s.steps.getLast? with
    | some step => step.modelResponse
    | none => "max iterations reached".toList
  return ⟨lastResponse, s.steps, executor.maxIterations, status⟩

/-- The state in which the first iteration begins. -/
def start (status : AgentStatus) (task : PyStr) : LoopState :=
  ⟨status, [], [⟨"user".toList, task, none⟩]⟩

/-- `AgentExecutor.run`: the requests that are sent to the model and the outcome. -/
def run (generate : ℕ → ModelRequest → ModelResponse) (task : PyStr) :
    List ModelRequest × Except PyExc AgentResult :=
  match executor.buildSystemPrompt lim with
  -- a schema that is not JSON ends the run before it has asked the model anything
  | .error e => ([], .error e)
  | .ok system =>
    match AgentStatus.CREATED.transition .RUNNING with
    | .error e => ([], .error e)
    | .ok status =>
      BoundedLoop.run (executor.body lim loads generate system) executor.giveUp
        executor.maxIterations 0 (start status task)

/-- Nothing catches what the prompt raises: the run ends with the exception, and no request has been
made. -/
theorem run_of_prompt_error {generate : ℕ → ModelRequest → ModelResponse} {task : PyStr} {e : PyExc}
    (h : executor.buildSystemPrompt lim = .error e) :
    executor.run lim loads generate task = ([], .error e) := by
  unfold run
  rw [h]

/-- A run that has its prompt is the loop: `BoundedLoop.run` of the `body`, which makes a request
and an iteration on the response, and of `giveUp` after the last one. -/
theorem run_of_prompt {generate : ℕ → ModelRequest → ModelResponse} {task system : PyStr}
    (h : executor.buildSystemPrompt lim = .ok system) :
    executor.run lim loads generate task =
      BoundedLoop.run (executor.body lim loads generate system) executor.giveUp
        executor.maxIterations 0 (start .RUNNING task) := by
  have hrunning : AgentStatus.CREATED.transition .RUNNING = .ok .RUNNING :=
    AgentStatus.transition_of_mem (by decide)
  unfold run
  rw [h, hrunning]

/-! ## What an iteration does -/

/-- Entry `j` of `recorded` is what the loop makes of the outcome of call `j` of iteration `k`. -/
def Recorded (k : ℕ) (toolCalls : List PyValue) (recorded : List (PyDict × Message)) : Prop :=
  recorded.length = toolCalls.length ∧ ∀ j toolCall, toolCalls[j]? = some toolCall →
    ∃ entry, recorded[j]? = some entry ∧
      record lim toolCall (returned (executor.executeTool k j toolCall)) = .ok entry

/-- What iteration `k` does with the tool calls in a response. -/
inductive IterationCase (k : ℕ) (response : ModelResponse) (s : LoopState) :
    List PyValue → LoopState ⊕ AgentResult → Prop
  /-- A response without tool calls is the final answer. -/
  | final :
    IterationCase k response s []
      (.inr ⟨response.content, s.steps ++ [⟨k, response.content, [], []⟩], k + 1, .COMPLETED⟩)
  /-- The results of the tool calls go into the trace and into the conversation. -/
  | tools (toolCalls : List PyValue) (recorded : List (PyDict × Message)) (hcalls : toolCalls ≠ [])
      (hrecorded : executor.Recorded lim k toolCalls recorded) :
    IterationCase k response s toolCalls
      (.inl ⟨.RUNNING,
        s.steps ++ [⟨k, response.content, toolCalls, recorded.map Prod.fst⟩],
        s.messages ++ recorded.map Prod.snd ++ [⟨"assistant".toList, response.content, none⟩]⟩)

variable {executor lim loads} {k : ℕ} {response : ModelResponse} {s : LoopState}
  {r : LoopState ⊕ AgentResult}

/-- `zip` pairs every call with its own outcome, since `gather` returns the outcomes in the order of
the calls. -/
theorem zip_gather (k : ℕ) (toolCalls : List PyValue) :
    toolCalls.zip (executor.gather k toolCalls) =
      toolCalls.mapIdx fun j tc => (tc, returned (executor.executeTool k j tc)) := by
  symm
  rw [List.mapIdx_eq_iff]
  intro j
  rw [gather, List.zip, List.getElem?_zipWith, List.getElem?_mapIdx]
  cases toolCalls[j]? <;> rfl

/-- The loop over the results returns what `record` makes of each of them, in the order of the calls
(`Recorded`). -/
theorem mapM_record_eq_ok_iff {toolCalls : List PyValue} {recorded : List (PyDict × Message)} :
    ((toolCalls.zip (executor.gather k toolCalls)).mapM fun p => record lim p.1 p.2) =
        .ok recorded ↔ executor.Recorded lim k toolCalls recorded := by
  rw [zip_gather, Except.mapM_eq_ok_iff, List.forall₂_iff_getElem?, List.length_mapIdx]
  simp only [List.getElem?_mapIdx, Option.map_eq_some_iff]
  constructor
  · rintro ⟨hlength, hall⟩
    exact ⟨hlength, fun j tc hcall => hall j _ ⟨tc, hcall, rfl⟩⟩
  · rintro ⟨hlength, hall⟩
    refine ⟨hlength, ?_⟩
    rintro j _ ⟨tc, hcall, rfl⟩
    exact hall j tc hcall

/-- The loop over the results returns exactly if `record` does so for each of them; one that fails
ends the run. -/
theorem exists_recorded_iff {toolCalls : List PyValue} :
    (∃ recorded, executor.Recorded lim k toolCalls recorded) ↔
      ∀ j tc, toolCalls[j]? = some tc →
        ∃ entry, record lim tc (returned (executor.executeTool k j tc)) = .ok entry := by
  simp only [← mapM_record_eq_ok_iff, Except.exists_mapM_eq_ok_iff, zip_gather, List.mem_mapIdx]
  constructor
  · intro hall j tc hcall
    obtain ⟨hlt, hget⟩ := List.getElem?_eq_some_iff.mp hcall
    exact hall _ ⟨j, hlt, by rw [hget]⟩
  · rintro hall _ ⟨j, hlt, rfl⟩
    exact hall j _ (List.getElem?_eq_getElem hlt)

/-- In a running agent, what an iteration returns: the response has to be `Readable`, and
`IterationCase` tells the cases apart, with and without tool calls. -/
theorem iteration_eq_ok_iff (hstatus : s.status = .RUNNING) :
    executor.iteration lim loads k response s = .ok r ↔
      Readable loads response ∧
        executor.IterationCase lim k response s (callsOf loads response) r := by
  have hcompleted : s.status.transition .COMPLETED = .ok .COMPLETED :=
    AgentStatus.transition_of_mem (by rw [hstatus]; decide)
  have hawaiting : s.status.transition .AWAITING_TOOL = .ok .AWAITING_TOOL :=
    AgentStatus.transition_of_mem (by rw [hstatus]; decide)
  have hrunning : AgentStatus.AWAITING_TOOL.transition .RUNNING = .ok .RUNNING :=
    AgentStatus.transition_of_mem (by decide)
  unfold iteration
  rw [Except.bind_eq_ok_iff]
  simp only [toolCalls_eq_ok_iff, and_assoc, exists_and_left, exists_eq_left]
  refine and_congr_right fun _ => ?_
  -- all the transitions are legal, so only the calls decide how the iteration ends
  rw [hcompleted, hawaiting]
  cases hcalls : callsOf loads response with
  | nil =>
    rw [if_pos List.isEmpty_nil]
    constructor
    · intro hok
      obtain rfl := Except.ok.inj hok
      exact .final
    · rintro (_ | ⟨_, _, hne, _⟩)
      · rfl
      · exact absurd rfl hne
  | cons call calls =>
    rw [if_neg (by simp)]
    constructor
    · intro hok
      obtain ⟨_, hstatus, hok⟩ := Except.bind_eq_ok_iff.mp hok
      obtain rfl := Except.ok.inj hstatus
      obtain ⟨recorded, hrecorded, hok⟩ := Except.bind_eq_ok_iff.mp hok
      rw [hrunning] at hok
      obtain rfl := Except.ok.inj hok
      exact .tools _ recorded (List.cons_ne_nil _ _) (mapM_record_eq_ok_iff.mp hrecorded)
    · rintro (_ | ⟨_, recorded, _, hrecorded⟩)
      refine Except.bind_eq_ok_iff.mpr ⟨_, rfl, Except.bind_eq_ok_iff.mpr ?_⟩
      exact ⟨recorded, mapM_record_eq_ok_iff.mpr hrecorded, by rw [hrunning]; rfl⟩

end AgentExecutor
