import AthenaAI.Python.Value

/-!
# Core types

`athenai.core.types`. The values that pass between the gateway and the runtime.

* `MessageRole` are the roles. `MessageRole.ofValue` is the constructor of the enumeration, which
  raises a `ValueError` for a text that is no role; `MessageRole.ofValue_eq_ok_iff` says what it
  accepts.
* `AIRequest` is a request for the runtime. That it has a message, which `__post_init__` checks, is
  a field, and `AIRequest.checked` is the check.
* `AIResponse` and `TokenUsage` are what the runtime answers. The lengths are Python integers, and
  nothing but the runtime says how they are related.
-/

/-- `MessageRole`. -/
inductive MessageRole where
  | SYSTEM
  | USER
  | ASSISTANT
  | TOOL
  deriving DecidableEq, Repr

namespace MessageRole

/-- The text of a role. -/
def value : MessageRole → PyStr
  | SYSTEM => "system".toList
  | USER => "user".toList
  | ASSISTANT => "assistant".toList
  | TOOL => "tool".toList

/-- `MessageRole(value)`. -/
def ofValue (value : PyStr) : Except PyExc MessageRole :=
  match [SYSTEM, USER, ASSISTANT, TOOL].find? fun role => role.value = value with
  | some role => .ok role
  | none => .error (.of .ValueError (value.repr ++ " is not a valid MessageRole".toList))

/-- Every role is found by its text. -/
@[simp]
theorem ofValue_value (role : MessageRole) : ofValue role.value = .ok role := by
  cases role <;> rfl

/-- What is found has the text that has been looked for. -/
theorem ofValue_eq_ok_iff {text : PyStr} {role : MessageRole} :
    ofValue text = .ok role ↔ text = role.value := by
  refine ⟨fun h => ?_, fun h => h ▸ ofValue_value role⟩
  unfold ofValue at h
  split at h
  · next role' hfind =>
    obtain rfl := Except.ok.inj h
    have hvalue := List.find?_some hfind
    exact (of_decide_eq_true hvalue).symm
  · exact nomatch h

end MessageRole

/-- `athenai.core.types.Message`, a turn of a conversation. -/
structure Core.Message where
  /-- Who speaks. -/
  role : MessageRole
  /-- What is said. -/
  content : PyStr
  /-- The call that a tool message answers. -/
  toolCallId : Option PyStr := none
  /-- The tool of a tool message. -/
  name : Option PyStr := none

/-- `TokenUsage`. -/
structure TokenUsage where
  /-- The length of the prompt. -/
  inputTokens : ℤ
  /-- The length of the text. -/
  outputTokens : ℤ
  /-- Both together. -/
  totalTokens : ℤ

/-- `AIRequest`. -/
structure AIRequest where
  /-- The conversation. -/
  messages : List Core.Message
  /-- There is something to answer. -/
  messages_ne_nil : messages ≠ []
  /-- The user. -/
  userId : PyStr
  /-- The session. -/
  sessionId : PyStr
  /-- The id of the request, empty if it has none. -/
  requestId : PyStr := []
  /-- The id under which it is traced, empty if it has none. -/
  traceId : PyStr := []
  /-- The model that is asked for. -/
  modelRole : PyStr := "default".toList
  /-- Whether the answer is to be streamed. -/
  stream : Bool := false
  /-- Further data. -/
  metadata : PyDict := []

/-- `AIRequest.__post_init__`: the messages, if there are any. -/
def AIRequest.checked (messages : List Core.Message) :
    Except PyExc { messages : List Core.Message // messages ≠ [] } :=
  if h : messages = [] then
    .error (.of .ValueError "AIRequest requires at least one message".toList)
  else .ok ⟨messages, h⟩

/-- `AIResponse`. -/
structure AIResponse where
  /-- The text. -/
  content : PyStr
  /-- The name of the model. -/
  model : PyStr
  /-- The id under which the request is traced. -/
  traceId : PyStr
  /-- The lengths. -/
  usage : TokenUsage
  /-- The id of the request. -/
  requestId : PyStr := []
  /-- Why the text ends. -/
  finishReason : PyStr := "stop".toList
  /-- Further data. -/
  metadata : PyDict := []
