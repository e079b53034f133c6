import AthenaAI.Core.Types
import AthenaAI.Models.Base
import AthenaAI.ToMathlib.Coro

/-!
# The runtime

`athenai.runtime.pipeline`, and what the handling of a request awaits. The requests of all clients
share one model, one semaphore and the metrics. `AthenaRuntime` makes the model calls of single-turn
chats, with the semaphore around each of them.

* `AppOp` are the operations on what the requests share and on the connection to the client, and
  `App` are the coroutines of these operations. A call of the model has two operations, its begin
  and its end, for others may act in between. A streaming call is answered with the tokens that it
  yields until it ends.
* `App.withSemaphore` and `App.callModel` are the two ways in which the operations are used.
* `AthenaRuntime.execute` and `AthenaRuntime.stream` are the methods. `uuid4` stands for the ids
  that the handling of a request draws, in the order in which it draws them.
-/

/-! ## What a request awaits -/

/-- An operation that a handler awaits, or by which it acts on what the requests share. -/
inductive AppOp where
  /-- `Semaphore.acquire`. -/
  | acquire
  /-- `Semaphore.release`. -/
  | release
  /-- A call `model.generate(request)` begins. -/
  | generate (request : ModelRequest)
  /-- It ends. -/
  | response
  /-- A call `model.stream(request)` begins. -/
  | stream (request : ModelRequest)
  /-- It ends. -/
  | streamEnd
  /-- `asyncio.gather` on the tools of the calls of an iteration. -/
  | gather (iteration : ℕ) (toolCalls : List PyValue)
  /-- A part of the response body. -/
  | send (chunk : PyStr)
  /-- `requests_total.labels(endpoint=…, status=…).inc()`. -/
  | count (endpoint status : PyStr)
  /-- `agent_iterations_total.inc(n)`. -/
  | countIterations (n : ℕ)

namespace AppOp

/-- What an operation answers. -/
abbrev Resp : AppOp → Type
  | response => ModelResponse
  | stream _ => List PyStr
  -- the outcome of the tool of the call at a position
  | gather _ _ => ℕ → Except PyExc PyValue
  | _ => Unit

end AppOp

/-- The handling of a request, or a part of it. -/
abbrev App (α : Type) : Type := Coro AppOp AppOp.Resp PyExc α

namespace App

variable {α : Type}

/-- One operation. -/
abbrev perform (op : AppOp) : App op.Resp := Coro.perform op

/-- `async with self._semaphore`. -/
def withSemaphore (body : App α) : App α := do
  perform .acquire
  let outcome ← body.attempt
  -- the permit is given back whatever has happened
  perform .release
  Coro.ofExcept outcome

/-- `await model.generate(request)`. -/
def callModel (request : ModelRequest) : App ModelResponse := do
  perform (.generate request)
  perform .response

end App

/-! ## The methods -/

namespace AthenaRuntime

/-- The request to the model. -/
def modelRequest (request : AIRequest) : ModelRequest where
  messages := request.messages.map fun m => ⟨m.role.value, m.content, none⟩
  modelName := request.modelRole.orElse "default".toList

/-- `AthenaRuntime.execute`. -/
def execute (uuid4 : ℕ → PyStr) (request : AIRequest) : App AIResponse := do
  let response ← App.withSemaphore (App.callModel (modelRequest request))
  return {
    content := response.content
    model := response.modelName
    traceId := request.traceId.orElse (uuid4 0)
    usage := ⟨response.inputTokens, response.outputTokens,
      response.inputTokens + response.outputTokens⟩
    requestId := request.requestId.orElse (uuid4 1)
    finishReason := response.finishReason }

/-- `AthenaRuntime.stream`. `onToken` is what the caller does with a token. -/
def stream (request : AIRequest) (onToken : PyStr → App Unit) : App Unit :=
  App.withSemaphore do
    let tokens ← App.perform (.stream (modelRequest request))
    List.forM tokens onToken
    App.perform .streamEnd

end AthenaRuntime
