import AthenaAI.Python.Value
import Mathlib.Algebra.GroupWithZero.Nat

/-!
# Models

`athenai.models.base` and `athenai.models.mock`: the dataclasses that pass between the callers of a
model and its adapter, and the adapter that the gateway takes if it is configured for no other.

* `ModelRequest` and `ModelResponse` are what an adapter is asked and what it answers. A request has
  the messages of a conversation (`Message`), a system prompt and the settings of the generation.
* `MockModel` echoes the last message of the user (`MockModel.lastUserMsg`). `MockModel.generate`
  answers at once, `MockModel.stream` character by character. Neither raises, so the adapter has no
  error path.
-/

/-! ## Requests and responses -/

/-- A message of a conversation: a dict with a role, a content and, for a tool message, the name of
the tool. -/
structure Message where
  /-- Who speaks. -/
  role : PyStr
  /-- What is said. -/
  content : PyStr
  /-- The name of the tool, if the message has one. -/
  name : Option PyValue := none

/-- What a model adapter is asked. -/
structure ModelRequest where
  /-- The conversation so far. -/
  messages : List Message
  /-- The name of the model. -/
  modelName : PyStr
  /-- The bound on the length of the response. -/
  maxTokens : ℤ := 4096
  /-- The `repr` of the temperature. -/
  temperature : PyStr := "0.7".toList
  /-- The system prompt. -/
  system : PyStr := []
  /-- Further data. -/
  metadata : PyDict := []

/-- What a model adapter answers. -/
structure ModelResponse where
  /-- The text. -/
  content : PyStr
  /-- The name of the model. -/
  modelName : PyStr
  /-- The length of the prompt. -/
  inputTokens : ℤ
  /-- The length of the text. -/
  outputTokens : ℤ
  /-- Why the text ends. -/
  finishReason : PyStr := "stop".toList
  /-- Further data. -/
  metadata : PyDict := []

/-! ## The mock model -/

/-- `MockModel`. -/
structure MockModel where
  /-- The name. -/
  name : PyStr := "mock".toList

namespace MockModel

/-- The content of the last message with the role `user`, empty if there is none. -/
def lastUserMsg (request : ModelRequest) : PyStr :=
  match request.messages.reverse.find? fun m => m.role = "user".toList with
  | some m => m.content
  | none => []

/-- `MockModel.generate`. -/
def generate (model : MockModel) (request : ModelRequest) : ModelResponse :=
  let content := ['['] ++ model.name ++ "] Echo: ".toList ++ lastUserMsg request
  let inputTokens : ℕ := (request.messages.map fun m => m.content.length / 4).sum
  let outputTokens : ℕ := content.length / 4
  { content
    modelName := model.name
    inputTokens := (max 1 inputTokens : ℕ)
    outputTokens := (max 1 outputTokens : ℕ) }

/-- `MockModel.stream`: the characters of the echo, one at a time. -/
def stream (model : MockModel) (request : ModelRequest) : List PyStr :=
  (model.generate request).content.map fun c => [c]

end MockModel
