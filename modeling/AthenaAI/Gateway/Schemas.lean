import AthenaAI.Agents.State

/-!
# Schemas of the HTTP API

`athenai.gateway.schemas`. A request that does not fit its schema is answered before a handler sees
it, so what a schema demands is part of the type.

* `ChatRequest` has a message at least, and `AgentRunRequest` between 1 and 25 iterations. A
  `ChatMessage` may have any text for a role: whether it is one is found out in the handler.
* `ChatResponse`, `AgentRunResponse` and `AgentStepSchema` are the answers.
* The calls in the steps of an agent are what the model wrote, so the response model of an agent run
  can fail: `asDict` is the validation of a call, and `AgentStepSchema.ofStep` that of a step.
-/

/-- `ChatMessage`. -/
structure ChatMessage where
  /-- Who speaks. Any string fits the schema. -/
  role : PyStr := "user".toList
  /-- What is said. -/
  content : PyStr

/-- `ChatRequest`. -/
structure ChatRequest where
  /-- The conversation. -/
  messages : List ChatMessage
  /-- `min_length=1`. -/
  messages_ne_nil : messages ≠ []
  /-- The model that is asked for. -/
  model : PyStr := "default".toList
  /-- Whether the answer is to be streamed. -/
  stream : Bool := false
  /-- The user. -/
  userId : PyStr := "default".toList
  /-- The session. -/
  sessionId : PyStr := "default".toList

/-- `UsageStats`. -/
structure UsageStats where
  /-- The length of the prompt. -/
  inputTokens : ℤ
  /-- The length of the text. -/
  outputTokens : ℤ
  /-- Both together. -/
  totalTokens : ℤ

/-- `ChatResponse`. -/
structure ChatResponse where
  /-- The text. -/
  content : PyStr
  /-- The name of the model. -/
  model : PyStr
  /-- The id under which the request is traced. -/
  traceId : PyStr
  /-- The lengths. -/
  usage : UsageStats
  /-- The id of the request. -/
  requestId : PyStr

/-- `AgentRunRequest`. -/
structure AgentRunRequest where
  /-- The task. -/
  task : PyStr
  /-- The tools. No handler reads them. -/
  tools : List PyStr := []
  /-- The iterations. No handler reads them. -/
  maxIterations : ℕ := 10
  /-- `ge=1, le=25`. -/
  maxIterations_mem : 1 ≤ maxIterations ∧ maxIterations ≤ 25 := by decide
  /-- The user. -/
  userId : PyStr := "default".toList

/-- `AgentStepSchema`. -/
structure AgentStepSchema where
  /-- The number of the iteration. -/
  iteration : ℕ
  /-- The text of the response. -/
  modelResponse : PyStr
  /-- The tool calls in the response. -/
  toolCalls : List PyDict := []
  /-- What the tool calls came to. -/
  toolResults : List PyDict := []

/-- `AgentRunResponse`. -/
structure AgentRunResponse where
  /-- The answer. -/
  finalAnswer : PyStr
  /-- The iterations. -/
  steps : List AgentStepSchema
  /-- How many iterations there were. -/
  totalIterations : ℕ
  /-- The text of the status. -/
  status : PyStr

/-- A value as a `dict[str, Any]`. `invalid` is what the validation raises for any other value. -/
def asDict (invalid : PyValue → PyExc) : PyValue → Except PyExc PyDict
  | .dict items =>
    if items.all fun item => item.1 matches .str _ then .ok items
    else .error (invalid (.dict items))
  | v => .error (invalid v)

/-- The entry of a step in a response. -/
def AgentStepSchema.ofStep (invalid : PyValue → PyExc) (s : AgentStep) :
    Except PyExc AgentStepSchema := do
  let toolCalls ← s.toolCalls.mapM (asDict invalid)
  return ⟨s.iteration, s.modelResponse, toolCalls, s.toolResults⟩
