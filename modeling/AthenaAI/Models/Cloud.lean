import AthenaAI.Agents.History
import AthenaAI.Agents.Stepwise
import AthenaAI.Runtime.Pipeline

/-!
# The cloud model

`athenai.models.cloud`. The adapter of the Anthropic Messages API, and what reaches it through the
runtime and through the agent loop.

* `CloudModel.payload` is the body that `CloudModel.generate` posts; `Conforms` says what the API
  asks of it.
* `CloudModel.environment` is the environment of one request whose model is the adapter. The state
  are the bodies posted so far, so `postedByChat` and `postedByRun` are those of a chat and of an
  agent run.
* `conforms_posted_iff`: the body of a chat conforms exactly if the adapter happens to be configured
  with the name `default` and all roles are `user` or `assistant`; a body of an agent run conforms
  exactly if the configured name is `agent` and it is the first one of its run.
-/

/-- What the adapter reads of the body of a response. -/
structure MessagesReply where
  /-- `data["content"][0]["text"] if data.get("content") else ""`. -/
  content : PyStr
  /-- `data.get("model")`. -/
  model : Option PyStr := none
  /-- `usage.get("input_tokens")`. -/
  inputTokens : Option ℤ := none
  /-- `usage.get("output_tokens")`. -/
  outputTokens : Option ℤ := none
  /-- `data.get("stop_reason")`. -/
  stopReason : Option PyStr := none

/-- A response of the API. -/
structure MessagesResponse where
  /-- The status code. -/
  statusCode : ℕ
  /-- The body. -/
  text : PyStr
  /-- What the body says, or what reading it raises. -/
  data : Except PyExc MessagesReply

/-- How a request of the HTTP client fails. -/
inductive HttpxFailure where
  | timeout (text : PyStr)
  /-- Any other `httpx.RequestError`. -/
  | request (text : PyStr)
  /-- An exception of another kind: the body is not JSON. -/
  | other (exc : PyExc)

/-- The adapter. -/
structure CloudModel where
  /-- The name of the model it is configured with. -/
  modelName : PyStr := "claude-sonnet-4-6".toList
  /-- The URL of the API. -/
  baseUrl : PyStr := "https://api.anthropic.com/v1/messages".toList

/-- A message as a dict. -/
def Message.toDict (m : Message) : PyDict :=
  [(.str "role".toList, .str m.role), (.str "content".toList, .str m.content)] ++
    match m.name with
    | some name => [(.str "name".toList, name)]
    | none => []

namespace CloudModel

variable (model : CloudModel)

/-- The body that `CloudModel.generate` posts. -/
def payload (request : ModelRequest) : PyDict :=
  [(.str "model".toList, .str (request.modelName.orElse model.modelName)),
    (.str "max_tokens".toList, .int request.maxTokens),
    (.str "messages".toList, .list (request.messages.map fun m => .dict m.toDict))] ++
  -- `if request.system`
  if request.system.isEmpty then [] else [(.str "system".toList, .str request.system)]

/-- `ModelUnavailableError(message)`. -/
def unavailable (message : PyStr) : PyExc :=
  .of (.other "ModelUnavailableError".toList) message

/-- What `CloudModel.generate` makes of the outcome of its request. -/
def reply : Except HttpxFailure MessagesResponse → Except PyExc ModelResponse
  | .error (.timeout text) => .error (unavailable ("Anthropic API timeout: ".toList ++ text))
  | .error (.request text) => .error (unavailable ("Anthropic API network error: ".toList ++ text))
  | .error (.other exc) => .error exc
  | .ok resp => do
    let code := PyStr.ofInt resp.statusCode
    if resp.statusCode = 429 then
      throw (.of .RateLimitError "Anthropic rate limit exceeded (429)".toList)
    if resp.statusCode = 401 ∨ resp.statusCode = 403 then
      throw (unavailable ("Anthropic auth error (".toList ++ code ++ ")".toList))
    if 500 ≤ resp.statusCode then
      throw (unavailable
        ("Anthropic server error (".toList ++ code ++ "): ".toList ++ resp.text.take 200))
    if 400 ≤ resp.statusCode then
      throw (unavailable
        ("Anthropic API error (".toList ++ code ++ "): ".toList ++ resp.text.take 200))
    let data ← resp.data
    return {
      content := data.content
      modelName := data.model.getD model.modelName
      inputTokens := data.inputTokens.getD 0
      outputTokens := data.outputTokens.getD 0
      finishReason := data.stopReason.getD "stop".toList }

/-- `CloudModel.generate`, with the `post` of the HTTP client. -/
def generate (post : (url : PyStr) → (json : PyDict) → Except HttpxFailure MessagesResponse)
    (request : ModelRequest) : Except PyExc ModelResponse :=
  model.reply (post model.baseUrl (model.payload request))

/-! ## What the API accepts -/

/-- The roles that the API accepts in `messages`. -/
def acceptedRoles : List PyStr := ["user".toList, "assistant".toList]

/-- A body names the configured model, and its messages are in roles that the API accepts. -/
structure Conforms (body : PyDict) : Prop where
  /-- `model` is the configured name. -/
  model_eq : body.get "model".toList = some (.str model.modelName)
  /-- The messages are those of the user and of the assistant. -/
  roles : ∃ messages, body.get "messages".toList = some (.list messages) ∧
    ∀ m ∈ messages, ∃ role ∈ acceptedRoles, m.getItem "role".toList = .ok (.str role)

/-! ## The adapter in use -/

/-- What the API answers to the last of the bodies that have been posted to a URL so far. -/
abbrev MessagesApi := (url : PyStr) → (posted : List PyDict) → Except HttpxFailure MessagesResponse

/-- What the tools of the calls of an iteration come to. -/
abbrev ToolOutcomes := (iteration : ℕ) → (toolCalls : List PyValue) → ℕ → Except PyExc PyValue

/-- The environment of one request whose model is the adapter. The state are the bodies posted so
far. -/
def environment (api : MessagesApi) (tools : ToolOutcomes) :
    Handler AppOp AppOp.Resp PyExc (List PyDict)
  | .generate request, posted => (.ok (), posted ++ [model.payload request])
  | .response, posted => (model.reply (api model.baseUrl posted), posted)
  | .gather k calls, posted => (.ok (tools k calls), posted)
  -- the adapter does not stream
  | .stream _, posted =>
    (.error (.of (.other "AttributeError".toList)
      "'CloudModel' object has no attribute 'stream'".toList), posted)
  | .acquire, posted | .release, posted | .streamEnd, posted | .send _, posted
  | .count _ _, posted | .countIterations _, posted => (.ok (), posted)

/-- The bodies that are posted for a chat. -/
def postedByChat (api : MessagesApi) (tools : ToolOutcomes) (uuid4 : ℕ → PyStr)
    (request : AIRequest) : List PyDict :=
  ((AthenaRuntime.execute uuid4 request).run (model.environment api tools) []).2

/-- The bodies that are posted in an agent run. -/
def postedByRun (api : MessagesApi) (tools : ToolOutcomes) (executor : AgentExecutor)
    (lim : Json.Limits) (loads : Loads) (task : PyStr) : List PyDict :=
  ((executor.runStepwise lim loads task).run (model.environment api tools) []).2

variable {model} {api : MessagesApi} {tools : ToolOutcomes} {request : ModelRequest}

/-! ## One body -/

/-- A body conforms if the request names the configured model, or none, and speaks in accepted
roles. -/
theorem conforms_payload_iff :
    model.Conforms (model.payload request) ↔
      request.modelName.orElse model.modelName = model.modelName ∧
        ∀ m ∈ request.messages, m.role ∈ acceptedRoles := by
  have hmodel : PyDict.get (model.payload request) "model".toList =
      some (.str (request.modelName.orElse model.modelName)) := rfl
  have hmessages : PyDict.get (model.payload request) "messages".toList =
      some (.list (request.messages.map fun m => .dict m.toDict)) := rfl
  have hrole (m : Message) :
      (PyValue.dict m.toDict).getItem "role".toList = .ok (.str m.role) := rfl
  constructor
  · rintro ⟨hname, messages, hlist, hroles⟩
    rw [hmodel] at hname
    rw [hmessages] at hlist
    refine ⟨PyValue.str.inj (Option.some.inj hname), fun m hm => ?_⟩
    obtain rfl := PyValue.list.inj (Option.some.inj hlist)
    obtain ⟨role, haccepted, heq⟩ := hroles _ (List.mem_map_of_mem hm)
    rw [hrole] at heq
    exact PyValue.str.inj (Except.ok.inj heq) ▸ haccepted
  · rintro ⟨hname, hroles⟩
    refine ⟨by rw [hmodel, hname], _, hmessages, List.forall_mem_map.mpr fun m hm => ?_⟩
    exact ⟨m.role, hroles m hm, hrole m⟩

/-- The body of a request that names a model conforms exactly if this is the configured one, and all
roles are accepted by the API. -/
theorem conforms_payload_iff_of_ne_nil (hname : request.modelName ≠ []) :
    model.Conforms (model.payload request) ↔
      model.modelName = request.modelName ∧ ∀ m ∈ request.messages, m.role ∈ acceptedRoles := by
  have horElse : request.modelName.orElse model.modelName = request.modelName := by
    rw [PyStr.orElse, List.isEmpty_eq_false_iff.mpr hname]
    rfl
  rw [conforms_payload_iff, horElse, eq_comm]

/-- A call of the model posts its `payload`, and its answer is what `CloudModel.generate` makes of
that of the API. -/
theorem run_callModel_environment (request : ModelRequest) (posted : List PyDict) :
    (App.callModel request).run (model.environment api tools) posted =
      (model.generate (fun url body => api url (posted ++ [body])) request,
        posted ++ [model.payload request]) := by
  unfold App.callModel
  rw [Coro.run_bind_of_ok _ (Coro.run_perform (model.environment api tools) (.generate request)
    posted), Coro.run_perform]
  rfl

/-! ## A chat -/

/-- The semaphore does not change what is posted, nor what comes of it. -/
theorem run_withSemaphore_environment {α : Type} (body : App α) (posted : List PyDict) :
    (App.withSemaphore body).run (model.environment api tools) posted =
      body.run (model.environment api tools) posted := by
  unfold App.withSemaphore
  show Coro.run _ (Coro.attempt body >>= _) posted = _
  rw [Coro.run_attempt_bind]
  show Coro.run _ (Coro.ofExcept _) _ = _
  rw [Coro.run_ofExcept]
  rfl

/-- A chat posts one body, the `payload` of its request to the model. -/
theorem postedByChat_eq (uuid4 : ℕ → PyStr) (request : AIRequest) :
    model.postedByChat api tools uuid4 request =
      [model.payload (AthenaRuntime.modelRequest request)] := by
  have hcall : (App.withSemaphore (App.callModel (AthenaRuntime.modelRequest request))).run
      (model.environment api tools) [] =
        (model.generate (fun url body => api url [body]) (AthenaRuntime.modelRequest request),
          [model.payload (AthenaRuntime.modelRequest request)]) := by
    rw [run_withSemaphore_environment, run_callModel_environment]
    rfl
  unfold postedByChat AthenaRuntime.execute
  rw [Coro.run_bind, hcall]
  cases model.generate (fun url body => api url [body]) (AthenaRuntime.modelRequest request) <;> rfl

/-- Of the roles that a message can have, those of the user and of the assistant are accepted. -/
theorem value_mem_acceptedRoles_iff (role : MessageRole) :
    role.value ∈ acceptedRoles ↔ role = .USER ∨ role = .ASSISTANT := by
  cases role <;> decide

/-- The body of a chat that names no model has the model name `default`, and conforms exactly if
that is configured, and the roles are accepted. -/
theorem conforms_chat_iff {request : AIRequest} (hrole : request.modelRole = "default".toList) :
    model.Conforms (model.payload (AthenaRuntime.modelRequest request)) ↔
      model.modelName = "default".toList ∧
        ∀ m ∈ request.messages, m.role = .USER ∨ m.role = .ASSISTANT := by
  have hname : (AthenaRuntime.modelRequest request).modelName = "default".toList := by
    rw [AthenaRuntime.modelRequest, hrole]
    rfl
  have hne : (AthenaRuntime.modelRequest request).modelName ≠ [] := by
    rw [hname]
    decide
  rw [conforms_payload_iff_of_ne_nil hne, hname]
  refine and_congr_right fun _ => List.forall_mem_map.trans ?_
  exact forall₂_congr fun m _ => value_mem_acceptedRoles_iff m.role

/-! ## An agent run -/

open AgentExecutor

variable {executor : AgentExecutor} {lim : Json.Limits} {loads : Loads} {task system : PyStr}
  {k : ℕ} {s s' : LoopState} {posted : List PyDict} {response : ModelResponse}

/-- Only the first of the bodies conforms, and only if the configured name is that of the agent. -/
def FirstOnly (model : CloudModel) (posted : List PyDict) : Prop :=
  ∀ j body, posted[j]? = some body →
    (model.Conforms body ↔ model.modelName = "agent".toList ∧ j = 0)

/-- Before iteration `k` of a run: only before the first one all roles are accepted. -/
structure Underway (model : CloudModel) (k : ℕ) (s : LoopState) (posted : List PyDict) : Prop where
  /-- The agent is running. -/
  running : s.status = .RUNNING
  /-- One body has been posted in each iteration. -/
  length_eq : posted.length = k
  /-- In later iterations there are messages of tools. -/
  accepted_iff : (∀ m ∈ s.messages, m.role ∈ acceptedRoles) ↔ k = 0
  /-- The bodies so far. -/
  firstOnly : model.FirstOnly posted

/-- Before the first iteration the agent has the system prompt and the task, and has called no
model. -/
theorem underway_start (model : CloudModel) (task : PyStr) :
    model.Underway 0 (start .RUNNING task) [] where
  running := rfl
  length_eq := rfl
  accepted_iff := by
    refine iff_of_true (fun m hm => ?_) rfl
    rw [List.mem_singleton.mp hm]
    exact List.mem_cons_self
  firstOnly j body hj := by simp at hj

/-- The body of an iteration joins those before it, and they are still `FirstOnly`: after the first
iteration there are messages of tools, whose role is not accepted. -/
theorem Underway.firstOnly_concat (h : model.Underway k s posted) (system : PyStr) :
    model.FirstOnly (posted ++ [model.payload (AgentExecutor.request system s)]) := by
  intro j body hj
  rcases List.getElem?_concat_eq_some_iff.mp hj with hold | ⟨rfl, rfl⟩
  · exact h.firstOnly j body hold
  · have hne : (AgentExecutor.request system s).modelName ≠ [] := List.cons_ne_nil _ _
    rw [conforms_payload_iff_of_ne_nil hne, h.length_eq]
    exact and_congr_right fun _ => h.accepted_iff

/-- An iteration that goes on leaves messages of tools, so no later request of the run is without
one. -/
theorem Underway.next (h : model.Underway k s posted)
    (hnext : executor.iteration lim loads k response s = .ok (.inl s')) :
    model.Underway (k + 1) s' (posted ++ [model.payload (AgentExecutor.request system s)]) where
  running := (exists_toolMessages_of_inl h.running hnext).1
  length_eq := by rw [List.length_append, h.length_eq, List.length_singleton]
  accepted_iff := by
    obtain ⟨-, tools, htools, hmessages⟩ := exists_toolMessages_of_inl h.running hnext
    obtain ⟨-, hcalls⟩ := (exists_iteration_inl_iff h.running).mp ⟨s', hnext⟩
    obtain ⟨m, hm⟩ := List.exists_mem_of_ne_nil tools (htools.ne_nil hcalls)
    have hmem : m ∈ s'.messages := by
      rw [hmessages]
      exact List.mem_append_right _ (List.mem_append_left _ hm)
    refine iff_of_false (fun hall => ?_) (Nat.succ_ne_zero k)
    have haccepted := hall m hmem
    rw [role_of_toolMessages htools m hm] at haccepted
    exact absurd haccepted (by decide)
  firstOnly := h.firstOnly_concat system

/-- Waiting for the tools of an iteration posts nothing, whatever they come to. -/
theorem exists_run_awaitTools_environment (model : CloudModel) (api : MessagesApi)
    (tools : ToolOutcomes) (k : ℕ) (calls : List PyValue) (posted : List PyDict) :
    ∃ outcomes, (awaitTools k calls).run (model.environment api tools) posted =
      (.ok outcomes, posted) := by
  cases calls with
  | nil => exact ⟨_, rfl⟩
  | cons call calls => exact ⟨_, Coro.run_perform _ _ _⟩

/-- From any iteration on, what the loop posts is `FirstOnly`, if what was posted before is. By
induction on the iterations that are left. -/
theorem firstOnly_loopStepwise (left : ℕ) (h : model.Underway k s posted) :
    model.FirstOnly ((executor.loopStepwise lim loads system left k s).run
      (model.environment api tools) posted).2 := by
  induction left generalizing k s posted with
  | zero =>
    rw [loopStepwise, Coro.run_ofExcept]
    exact h.firstOnly
  | succ left ih =>
    have hposted := h.firstOnly_concat system
    have hcall : (App.callModel (AgentExecutor.request system s)).run
        (model.environment api tools) posted = _ := run_callModel_environment _ posted
    rw [loopStepwise]
    -- the run may end with the response, with its tool calls or with their results
    cases hresponse : model.generate (fun url body => api url (posted ++ [body]))
        (AgentExecutor.request system s) with
    | error e =>
      rw [hresponse] at hcall
      rw [Coro.run_bind_of_error _ hcall]
      exact hposted
    | ok response =>
      rw [hresponse] at hcall
      rw [Coro.run_bind_of_ok _ hcall]
      cases hcalls : toolCalls loads response with
      | error e => exact hposted
      | ok calls =>
        obtain ⟨outcomes, hawait⟩ := exists_run_awaitTools_environment model api tools k calls
          (posted ++ [model.payload (AgentExecutor.request system s)])
        show model.FirstOnly (Coro.run _ (awaitTools k calls >>= _) _).2
        rw [Coro.run_bind_of_ok _ hawait]
        cases hiteration : (executor.answering outcomes).iteration lim loads k response s with
        | error e => exact hposted
        | ok r =>
          cases r with
          | inr result => exact hposted
          | inl s' => exact ih (h.next hiteration)

/-- Of all the bodies that a run posts, only the first one conforms, and only if the configured name
is that of the agent (`FirstOnly`). -/
theorem firstOnly_postedByRun :
    model.FirstOnly (model.postedByRun api tools executor lim loads task) := by
  have hnone : model.FirstOnly [] := fun j body hj => by simp at hj
  unfold postedByRun runStepwise
  cases executor.buildSystemPrompt lim with
  | error e => exact hnone
  | ok system =>
    have hrunning : AgentStatus.CREATED.transition .RUNNING = .ok .RUNNING :=
      AgentStatus.transition_of_mem (by decide)
    rw [hrunning]
    exact firstOnly_loopStepwise executor.maxIterations (underway_start model task)

/-! ## What reaches the API -/

/-- The bodies that are posted for the gateway's requests, and which of them the Messages API
accepts (`Conforms`). The body of a chat that names no model does exactly if the configured name is
`default`, which is posted in place of it, and the messages are those of the user and of the
assistant; a body of an agent run does exactly if the configured name is `agent` and it is the first
one of its run, since the later ones have tool messages. -/
theorem conforms_posted_iff (model : CloudModel) (api : MessagesApi) (tools : ToolOutcomes) :
    (∀ (uuid4 : ℕ → PyStr) (request : AIRequest), request.modelRole = "default".toList →
      ∀ body ∈ model.postedByChat api tools uuid4 request,
        (model.Conforms body ↔ model.modelName = "default".toList ∧
          ∀ m ∈ request.messages, m.role = .USER ∨ m.role = .ASSISTANT)) ∧
    ∀ (executor : AgentExecutor) (lim : Json.Limits) (loads : Loads) (task : PyStr) (k : ℕ)
      (body : PyDict), (model.postedByRun api tools executor lim loads task)[k]? = some body →
        (model.Conforms body ↔ model.modelName = "agent".toList ∧ k = 0) := by
  refine ⟨fun uuid4 request hrole body hbody => ?_, fun executor lim loads task => ?_⟩
  · rw [postedByChat_eq] at hbody
    rw [List.mem_singleton.mp hbody]
    exact conforms_chat_iff hrole
  · exact firstOnly_postedByRun

/-- A chat in which the user says `hi`. -/
def hi : AIRequest where
  messages := [⟨.USER, "hi".toList, none, none⟩]
  messages_ne_nil := List.cons_ne_nil _ _
  userId := "default".toList
  sessionId := "default".toList

/-- An API that knows no model of the name it is given. -/
def unknownModel : MessagesApi := fun _ _ =>
  .ok ⟨404, "not_found_error".toList, .ok { content := [] }⟩

/-- No tools. -/
def noTools : ToolOutcomes := fun _ _ _ => .ok .none

/-- `conforms_posted_iff` for a chat of one message over an adapter that is configured with the name
`default`: its body conforms. -/
theorem conforms_hi :
    ∀ body ∈ ({ modelName := "default".toList } : CloudModel).postedByChat unknownModel noTools
      (fun _ => []) hi, ({ modelName := "default".toList } : CloudModel).Conforms body := by
  intro body hbody
  refine ((conforms_posted_iff _ _ _).1 _ hi rfl body hbody).mpr ⟨rfl, fun m hm => ?_⟩
  rw [List.mem_singleton.mp hm]
  exact .inl rfl

/-- With the name that the adapter has by default, neither the body of a chat nor the first one of
an agent run conforms: they are posted with the model names `default` and `agent`. -/
theorem hi_not_conforms :
    (∃ body ∈ ({} : CloudModel).postedByChat unknownModel noTools (fun _ => []) hi,
      ¬({} : CloudModel).Conforms body) ∧
    ∃ body ∈ ({} : CloudModel).postedByRun unknownModel noTools ⟨.empty, 10⟩
      .thousand (fun _ => .ok .none) "hi".toList,
      ¬({} : CloudModel).Conforms body := by
  have hdefault : ({} : CloudModel).modelName ≠ "default".toList := by decide
  have hagent : ({} : CloudModel).modelName ≠ "agent".toList := by decide
  have hrun : ({} : CloudModel).postedByRun unknownModel noTools ⟨.empty, 10⟩
      .thousand (fun _ => .ok .none) "hi".toList =
        [({} : CloudModel).payload (AgentExecutor.request "You are a helpful AI assistant.".toList
          (AgentExecutor.start .RUNNING "hi".toList))] := rfl
  rw [postedByChat_eq, hrun]
  simp only [List.mem_singleton, exists_eq_left]
  constructor
  · intro hconforms
    exact hdefault ((conforms_chat_iff rfl).mp hconforms).1
  · intro hconforms
    exact hagent ((conforms_payload_iff_of_ne_nil (List.cons_ne_nil _ _)).mp hconforms).1

end CloudModel
