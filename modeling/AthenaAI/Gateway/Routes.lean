import AthenaAI.Agents.Stepwise
import AthenaAI.Gateway.Schemas
import AthenaAI.Runtime.Pipeline

/-!
# Route handlers

`athenai.gateway.routes`: the handlers of `/v1/chat`, `/v1/chat/stream` and `/v1/agents/run`, and
what `athenai.gateway.app` wires them to.

* `Application` is what the lifespan builds: the agent and the cap on concurrent model calls. The
  model itself is reached through `AppOp`, by the agent as by the runtime.
* `chat`, `eventStream`, `chatStream` and `agentRun` are the handlers. A `try` is a `Coro.attempt`
  with what its `except` and `finally` clauses do afterwards.
* `uuid4` stands for the ids that a request draws, in order.
-/

/-- What the lifespan of the application builds. -/
structure Application where
  /-- `app.state.agent`. -/
  agent : AgentExecutor
  /-- The `max_concurrent` of `app.state.runtime`. -/
  maxConcurrent : ℕ := 20
  /-- The limits of the JSON encoder. -/
  lim : Json.Limits
  /-- `json.loads`. -/
  loads : Loads
  /-- What the schema of a response raises for a tool call that is no dict with string keys. -/
  invalid : PyValue → PyExc

namespace Gateway

/-- `HTTPException(status_code=500, detail=detail)`. -/
def serverError (detail : PyStr) : PyExc :=
  .of (.other "HTTPException".toList) ("500: ".toList ++ detail)

/-- `Message(role=MessageRole(m.role), content=m.content)`. -/
def message (m : ChatMessage) : Except PyExc Core.Message := do
  return ⟨← MessageRole.ofValue m.role, m.content, none, none⟩

/-- The `AIRequest` of a chat. -/
def aiRequest (uuid4 : ℕ → PyStr) (stream : Bool) (body : ChatRequest) :
    Except PyExc AIRequest := do
  let ⟨messages, hne⟩ ← AIRequest.checked (← body.messages.mapM message)
  return {
    messages
    messages_ne_nil := hne
    userId := body.userId
    sessionId := body.sessionId
    requestId := uuid4 0
    traceId := uuid4 1
    modelRole := body.model
    stream }

/-- `requests_total.labels(endpoint=endpoint, status="success").inc()`. -/
def countSuccess (endpoint : PyStr) : App Unit := App.perform (.count endpoint "success".toList)

/-- `requests_total.labels(endpoint=endpoint, status="error").inc()`. -/
def countError (endpoint : PyStr) : App Unit := App.perform (.count endpoint "error".toList)

/-- `POST /v1/chat`. -/
def chat (uuid4 : ℕ → PyStr) (body : ChatRequest) : App ChatResponse := do
  let request ← Coro.ofExcept (aiRequest uuid4 false body)
  let outcome ← Coro.attempt do
    let response ← AthenaRuntime.execute (fun k => uuid4 (k + 2)) request
    countSuccess "/v1/chat".toList
    return response
  match outcome with
  | .ok response =>
    return {
      content := response.content
      model := response.model
      traceId := response.traceId
      usage := ⟨response.usage.inputTokens, response.usage.outputTokens, response.usage.totalTokens⟩
      requestId := response.requestId }
  | .error exc =>
    countError "/v1/chat".toList
    Coro.raise (serverError (← Coro.ofExcept exc.str))

/-- `f"data: {data}\n\n"`. -/
def dataChunk (data : PyStr) : PyStr := "data: ".toList ++ data ++ "\n\n".toList

/-- The `try` of `event_stream` with its `except`. -/
def streamTokens (request : AIRequest) : App Unit := do
  let outcome ← Coro.attempt do
    AthenaRuntime.stream request fun token => App.perform (.send (dataChunk token))
    countSuccess "/v1/chat/stream".toList
  match outcome with
  | .ok () => return
  | .error exc =>
    countError "/v1/chat/stream".toList
    App.perform (.send (dataChunk ("[ERROR] ".toList ++ (← Coro.ofExcept exc.str))))

/-- `event_stream`. -/
def eventStream (request : AIRequest) : App Unit := do
  let outcome ← (streamTokens request).attempt
  -- `finally`
  App.perform (.send (dataChunk "[DONE]".toList))
  Coro.ofExcept outcome

/-- `POST /v1/chat/stream`: the request is built before the response begins, and its body comes from
`event_stream`. -/
def chatStream (uuid4 : ℕ → PyStr) (body : ChatRequest) : App Unit := do
  eventStream (← Coro.ofExcept (aiRequest uuid4 true body))

/-- `POST /v1/agents/run`. -/
def agentRun (app : Application) (body : AgentRunRequest) : App AgentRunResponse := do
  let outcome ← Coro.attempt do
    let result ← app.agent.runStepwise app.lim app.loads body.task
    countSuccess "/v1/agents/run".toList
    App.perform (.countIterations result.totalIterations)
    return result
  match outcome with
  | .ok result =>
    return {
      finalAnswer := result.finalAnswer
      steps := ← Coro.ofExcept (result.steps.mapM (AgentStepSchema.ofStep app.invalid))
      totalIterations := result.totalIterations
      status := result.status.value }
  | .error exc =>
    countError "/v1/agents/run".toList
    Coro.raise (serverError (← Coro.ofExcept exc.str))

end Gateway

/-- A request to one of the three endpoints, with the ids that it draws. -/
inductive Request where
  | chat (uuid4 : ℕ → PyStr) (body : ChatRequest)
  | chatStream (uuid4 : ℕ → PyStr) (body : ChatRequest)
  | agentRun (body : AgentRunRequest)

/-- What a handler returns. -/
inductive Response where
  | chat (response : ChatResponse)
  /-- The body of the response has been sent. -/
  | chatStream
  | agentRun (response : AgentRunResponse)

/-- The handler of a request. -/
def Application.handle (app : Application) : Request → App Response
  | .chat uuid4 body => do return .chat (← Gateway.chat uuid4 body)
  | .chatStream uuid4 body => do
    Gateway.chatStream uuid4 body
    return .chatStream
  | .agentRun body => do return .agentRun (← Gateway.agentRun app body)
