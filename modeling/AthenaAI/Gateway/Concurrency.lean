import AthenaAI.Gateway.Routes
import AthenaAI.ToMathlib.Semaphore

/-!
# Concurrent model calls

Requests to the three endpoints, handled at the same time by one application.

* `protocol` says which operations of a handler begin and end a model call, and which have to do
  with the semaphore.
* `ReachesModel` is the condition under which a request gets to call the model. A chat calls it
  inside the semaphore of the runtime, an agent run calls it directly.
* `inFlight_le_iff`: in every interleaving there are at most `max_concurrent` model calls in flight,
  if and only if no agent run reaches the model or no more than `max_concurrent` requests do.
-/

namespace Gateway

open Semaphore

/-- What an operation of a handler has to do with the semaphore and with the model. -/
def kind : AppOp → Kind
  | .acquire => .acquire
  | .release => .release
  | .generate _ | .stream _ => .enter
  | .response | .streamEnd => .leave
  | .gather _ _ | .send _ | .count _ _ | .countIterations _ => .other

/-- How an operation may end. -/
def Possible : (op : AppOp) → Except PyExc op.Resp → Prop
  -- a model call may raise at its begin and at its end
  | .generate _, _ | .response, _ | .stream _, _ | .streamEnd, _ => True
  -- the exceptions of tools are among the answers of `gather`
  | .gather _ _, r => r.isOk
  | .acquire, r | .release, r | .send _, r | .count _ _, r | .countIterations _, r => r.isOk

/-- The operations of the handlers, around the semaphore of the runtime and the model. -/
def protocol : Protocol AppOp AppOp.Resp PyExc := ⟨kind, Possible⟩

variable {access : Access} {place : Place} {α : Type}

/-! ## The handlers take the permits and the calls in turn -/

/-- `App.withSemaphore` takes a coroutine from outside to where its permit is held, and back, if its
body is `Neutral` there. An exception of the body gives the permit back as well. -/
theorem neutral_withSemaphore {body : App α} (hbody : protocol.Neutral access .holding body) :
    protocol.Neutral access .outside (App.withSemaphore body) := by
  rintro (e | ⟨⟩) hacquire
  · exact absurd hacquire Bool.false_ne_true
  refine ⟨.holding, .acquire, ?_⟩
  show protocol.Disciplined access (body.attempt >>= _) .holding _
  refine Protocol.Disciplined.attempt_bind (Protocol.Disciplined.mono hbody ?_)
  rintro outcome place rfl
  rintro (e | ⟨⟩) hrelease
  · exact absurd hrelease Bool.false_ne_true
  exact ⟨.outside, .release _, Protocol.Neutral.ofExcept outcome⟩

/-- A model call begins and ends where the permit is held (`Access.guarded`). -/
theorem neutral_callModel_guarded (request : ModelRequest) :
    protocol.Neutral .guarded .holding (App.callModel request) := by
  rintro (e | ⟨⟩) _
  · exact ⟨.holding, .notEntered rfl, rfl⟩
  refine ⟨.guarded, .enter rfl, ?_⟩
  rintro (e | response) _
  · exact ⟨.holding, .leave _, rfl⟩
  · exact ⟨.holding, .leave _, rfl⟩

/-- A call of the model without the semaphore begins and ends once, and holds no permit. -/
theorem neutral_callModel_free (request : ModelRequest) :
    protocol.Neutral .free .outside (App.callModel request) := by
  rintro (e | ⟨⟩) _
  · exact ⟨.outside, .notEnteredFree rfl, rfl⟩
  refine ⟨.free, .enterFree rfl, ?_⟩
  rintro (e | response) _
  · exact ⟨.outside, .leaveFree _, rfl⟩
  · exact ⟨.outside, .leaveFree _, rfl⟩

/-- A part of the response body, or a metric. -/
theorem neutral_other {op : AppOp} (hkind : kind op = .other) :
    protocol.Neutral access place (App.perform op) := Protocol.Neutral.perform hkind

/-- `AthenaRuntime.execute` calls the model with a permit in hand (`Access.guarded`), and has given
it back at its end. -/
theorem neutral_execute (uuid4 : ℕ → PyStr) (request : AIRequest) :
    protocol.Neutral .guarded .outside (AthenaRuntime.execute uuid4 request) :=
  Protocol.Neutral.bind (neutral_withSemaphore (neutral_callModel_guarded _)) fun _ => rfl

/-- What is done with a token does not raise, and stays within the call. -/
def StaysInCall (c : App Unit) : Prop :=
  protocol.Disciplined .guarded c .guarded fun r place => r.isOk ∧ place = .guarded

/-- What is done with all tokens of a stream happens within the call of the model if what is done
with each of them does. -/
theorem staysInCall_forM (tokens : List PyStr) {onToken : PyStr → App Unit}
    (honToken : ∀ token, StaysInCall (onToken token)) :
    StaysInCall (List.forM tokens onToken) := by
  induction tokens with
  | nil => exact ⟨rfl, rfl⟩
  | cons token tokens ih =>
    refine Protocol.Disciplined.bind (Protocol.Disciplined.mono (honToken token) ?_)
    rintro (e | ⟨⟩) place ⟨hok, rfl⟩
    · exact absurd hok Bool.false_ne_true
    · exact ih

/-- `AthenaRuntime.stream` streams with a permit in hand, and has given it back at its end, if what
is done with a token stays within the call. -/
theorem neutral_stream (request : AIRequest) {onToken : PyStr → App Unit}
    (honToken : ∀ token, StaysInCall (onToken token)) :
    protocol.Neutral .guarded .outside (AthenaRuntime.stream request onToken) := by
  apply neutral_withSemaphore
  rintro (e | tokens) _
  · exact ⟨.holding, .notEntered rfl, rfl⟩
  refine ⟨.guarded, .enter rfl, ?_⟩
  show protocol.Disciplined _ (List.forM tokens onToken >>= _) _ _
  refine Protocol.Disciplined.bind (Protocol.Disciplined.mono (staysInCall_forM tokens honToken) ?_)
  rintro (e | ⟨⟩) place ⟨hok, rfl⟩
  · exact absurd hok Bool.false_ne_true
  -- the call ends, and only then the permit is given back
  · exact Protocol.Disciplined.perform fun r _ => ⟨.holding, .leave _, rfl⟩

/-- A part of the response body is sent within the call of the model, which goes on meanwhile
(`StaysInCall`). -/
theorem staysInCall_send (chunk : PyStr) : StaysInCall (App.perform (.send chunk)) := by
  rintro (e | ⟨⟩) hsend
  · exact absurd hsend Bool.false_ne_true
  · exact ⟨.guarded, .other _ _, rfl, rfl⟩

/-- The handler of `/v1/chat` calls the model with a permit in hand, and holds none at its end,
whether it returns or raises. -/
theorem neutral_chat (uuid4 : ℕ → PyStr) (body : ChatRequest) :
    protocol.Neutral .guarded .outside (chat uuid4 body) := by
  refine Protocol.Neutral.bind (Protocol.Neutral.ofExcept _) fun request => ?_
  refine Protocol.Neutral.attempt_bind ?_ fun outcome => ?_
  · exact Protocol.Neutral.bind (neutral_execute _ request) fun response =>
      Protocol.Neutral.bind (neutral_other rfl) fun _ => rfl
  · cases outcome with
    | ok response => rfl
    | error exc =>
      exact Protocol.Neutral.bind (neutral_other rfl) fun _ =>
        Protocol.Neutral.bind (Protocol.Neutral.ofExcept _) fun _ => rfl

/-- The part of the handler of `/v1/chat/stream` that sends the tokens is `Neutral`: its call of the
model is within the semaphore. -/
theorem neutral_streamTokens (request : AIRequest) :
    protocol.Neutral .guarded .outside (streamTokens request) := by
  refine Protocol.Neutral.attempt_bind ?_ fun outcome => ?_
  · exact Protocol.Neutral.bind (neutral_stream request fun token => staysInCall_send _) fun _ =>
      neutral_other rfl
  · cases outcome with
    | ok _ => rfl
    | error exc =>
      exact Protocol.Neutral.bind (neutral_other rfl) fun _ =>
        Protocol.Neutral.bind (Protocol.Neutral.ofExcept _) fun _ => neutral_other rfl

/-- The whole handler of `/v1/chat/stream` is `Neutral`, however the model ends. -/
theorem neutral_chatStream (uuid4 : ℕ → PyStr) (body : ChatRequest) :
    protocol.Neutral .guarded .outside (chatStream uuid4 body) := by
  refine Protocol.Neutral.bind (Protocol.Neutral.ofExcept _) fun request => ?_
  refine Protocol.Neutral.attempt_bind (neutral_streamTokens request) fun outcome => ?_
  exact Protocol.Neutral.bind (neutral_other rfl) fun _ => Protocol.Neutral.ofExcept _

/-- The calls of an agent run are not within the semaphore: its loop is `Neutral` with
`Access.free`, from whichever iteration on. -/
theorem neutral_loopStepwise (executor : AgentExecutor) (lim : Json.Limits) (loads : Loads)
    (system : PyStr) (left k : ℕ) (s : AgentExecutor.LoopState) :
    protocol.Neutral .free .outside (executor.loopStepwise lim loads system left k s) := by
  induction left generalizing k s with
  | zero => exact Protocol.Neutral.ofExcept _
  | succ left ih =>
    refine Protocol.Neutral.bind (neutral_callModel_free _) fun response => ?_
    refine Protocol.Neutral.bind (Protocol.Neutral.ofExcept _) fun calls => ?_
    refine Protocol.Neutral.bind ?_ fun outcomes => ?_
    · unfold AgentExecutor.awaitTools
      split_ifs
      · rfl
      · exact neutral_other rfl
    · refine Protocol.Neutral.bind (Protocol.Neutral.ofExcept _) fun r => ?_
      cases r with
      | inl s' => exact ih (k + 1) s'
      | inr result => rfl

/-- An agent run calls the model without asking for a permit (`Access.free`). -/
theorem neutral_runStepwise (executor : AgentExecutor) (lim : Json.Limits) (loads : Loads)
    (task : PyStr) : protocol.Neutral .free .outside (executor.runStepwise lim loads task) :=
  Protocol.Neutral.bind (Protocol.Neutral.ofExcept _) fun _ =>
    Protocol.Neutral.bind (Protocol.Neutral.ofExcept _) fun _ => neutral_loopStepwise _ _ _ _ _ _ _

/-- The handler of `/v1/agents/run` calls the model as the agent run does: what it counts before and
after that touches neither the semaphore nor the model. -/
theorem neutral_agentRun (app : Application) (body : AgentRunRequest) {access : Access}
    (hrun : protocol.Neutral access .outside (app.agent.runStepwise app.lim app.loads body.task)) :
    protocol.Neutral access .outside (agentRun app body) := by
  refine Protocol.Neutral.attempt_bind ?_ fun outcome => ?_
  · exact Protocol.Neutral.bind hrun fun result =>
      Protocol.Neutral.bind (neutral_other rfl) fun _ =>
      Protocol.Neutral.bind (neutral_other rfl) fun _ => rfl
  · cases outcome with
    | ok result => exact Protocol.Neutral.bind (Protocol.Neutral.ofExcept _) fun _ => rfl
    | error exc =>
      exact Protocol.Neutral.bind (neutral_other rfl) fun _ =>
        Protocol.Neutral.bind (Protocol.Neutral.ofExcept _) fun _ => rfl

/-! ## Which requests get to the model -/

/-- A call without the semaphore can begin where no permit is left (`CanEnter 0`): this is what
exceeds the cap. -/
theorem canEnter_callModel (request : ModelRequest) :
    protocol.CanEnter 0 (App.callModel request) := .enter (a := ()) rfl trivial

/-- A call behind the semaphore needs one permit more than its body. -/
theorem canEnter_withSemaphore {m : ℕ} {body : App α} (h : protocol.CanEnter m body) :
    protocol.CanEnter (m + 1) (App.withSemaphore body) :=
  .acquire (a := ()) rfl rfl (.attempt_bind h _)

/-- The handler of a chat whose request is built comes to its call of the model if a permit is left
(`CanEnter 1`). -/
theorem canEnter_chat {uuid4 : ℕ → PyStr} {body : ChatRequest} {request : AIRequest}
    (hrequest : aiRequest uuid4 false body = .ok request) :
    protocol.CanEnter 1 (chat uuid4 body) := by
  unfold chat
  rw [hrequest]
  refine .attempt_bind (.bind ?_ _) _
  exact .bind (canEnter_withSemaphore (canEnter_callModel _)) _

/-- The handler of a chat that is streamed does so as well, if its request is built. -/
theorem canEnter_chatStream {uuid4 : ℕ → PyStr} {body : ChatRequest} {request : AIRequest}
    (hrequest : aiRequest uuid4 true body = .ok request) :
    protocol.CanEnter 1 (chatStream uuid4 body) := by
  unfold chatStream
  rw [hrequest]
  refine .attempt_bind (.attempt_bind (.bind ?_ _) _) _
  exact canEnter_withSemaphore (.enter (a := []) rfl trivial)

/-- The handler of an agent run comes to its first call even where no permit is left, if the system
prompt can be written and there is an iteration. -/
theorem canEnter_agentRun {app : Application} {system : PyStr} {body : AgentRunRequest}
    (hprompt : app.agent.buildSystemPrompt app.lim = .ok system)
    (hiterations : app.agent.maxIterations ≠ 0) :
    protocol.CanEnter 0 (agentRun app body) := by
  obtain ⟨left, hleft⟩ := Nat.exists_eq_succ_of_ne_zero hiterations
  refine .attempt_bind (.bind ?_ _) _
  unfold AgentExecutor.runStepwise
  rw [hprompt, hleft]
  exact .bind (canEnter_callModel _) _

end Gateway

namespace Request

/-- The request is for an agent run. -/
def isAgentRun : Request → Bool
  | .agentRun _ => true
  | .chat _ _ | .chatStream _ _ => false

end Request

namespace Application

/-- The handler of the request gets to call the model. -/
def reachesModel (app : Application) : Request → Bool
  -- the roles of the messages are valid
  | .chat uuid4 body => (Gateway.aiRequest uuid4 false body).isOk
  | .chatStream uuid4 body => (Gateway.aiRequest uuid4 true body).isOk
  -- the tools can be described to the model, and there is an iteration
  | .agentRun _ => (app.agent.buildSystemPrompt app.lim).isOk && 0 < app.agent.maxIterations

/-- How the handler gets to the model. -/
def access (app : Application) (request : Request) : Semaphore.Access :=
  if app.reachesModel request then if request.isAgentRun then .free else .guarded else .never

/-- A request that reaches the model does so without a permit if it is an agent run, and with one
otherwise. -/
theorem access_of_reachesModel {app : Application} {request : Request}
    (h : app.reachesModel request = true) :
    app.access request = if request.isAgentRun then .free else .guarded := if_pos h

/-- A request that does not reach the model never calls it: its access is `never`. -/
theorem access_of_not_reachesModel {app : Application} {request : Request}
    (h : app.reachesModel request = false) : app.access request = .never :=
  if_neg (Bool.not_eq_true _ ▸ h)

/-- An agent run that does not get to the model has nothing to do with it. -/
theorem neutral_runStepwise_of_not_reachesModel {app : Application} {body : AgentRunRequest}
    {access : Semaphore.Access} {place : Semaphore.Place}
    (h : app.reachesModel (.agentRun body) = false) :
    Gateway.protocol.Neutral access place
      (app.agent.runStepwise app.lim app.loads body.task) := by
  unfold reachesModel at h
  unfold AgentExecutor.runStepwise
  cases hprompt : app.agent.buildSystemPrompt app.lim with
  | error e => rfl
  | ok system =>
    have hzero : app.agent.maxIterations = 0 := by
      rw [hprompt] at h
      exact Nat.eq_zero_of_not_pos (of_decide_eq_false h)
    refine Semaphore.Protocol.Neutral.bind (Semaphore.Protocol.Neutral.ofExcept _) fun system' => ?_
    refine Semaphore.Protocol.Neutral.bind (Semaphore.Protocol.Neutral.ofExcept _) fun status => ?_
    rw [hzero]
    exact Semaphore.Protocol.Neutral.ofExcept _

/-- Every handler is `Neutral` with the `access` of its request: it takes permits and calls in turn,
and leaves nothing behind. -/
theorem neutral_handle (app : Application) (request : Request) :
    Gateway.protocol.Neutral (app.access request) .outside (app.handle request) := by
  cases hreaches : app.reachesModel request with
  | true =>
    rw [access_of_reachesModel hreaches]
    cases request with
    | chat uuid4 body => exact .bind (Gateway.neutral_chat uuid4 body) fun _ => rfl
    | chatStream uuid4 body => exact .bind (Gateway.neutral_chatStream uuid4 body) fun _ => rfl
    | agentRun body =>
      exact .bind (Gateway.neutral_agentRun app body (Gateway.neutral_runStepwise _ _ _ _))
        fun _ => rfl
  | false =>
    rw [access_of_not_reachesModel hreaches]
    cases request with
    | chat uuid4 body =>
      obtain ⟨e, hrequest⟩ := Except.isOk_eq_false_iff.mp hreaches
      show Gateway.protocol.Neutral _ _ (Gateway.chat uuid4 body >>= _)
      unfold Gateway.chat
      rw [hrequest]
      rfl
    | chatStream uuid4 body =>
      obtain ⟨e, hrequest⟩ := Except.isOk_eq_false_iff.mp hreaches
      show Gateway.protocol.Neutral _ _ (Gateway.chatStream uuid4 body >>= _)
      unfold Gateway.chatStream
      rw [hrequest]
      rfl
    | agentRun body =>
      exact .bind (Gateway.neutral_agentRun app body
        (neutral_runStepwise_of_not_reachesModel hreaches)) fun _ => rfl

/-- The handler of a request comes to a call of the model where as many permits are left as its
access to the model asks for. -/
theorem canEnter_handle (app : Application) (request : Request) (m : ℕ)
    (h : (app.access request).permits = some m) :
    Gateway.protocol.CanEnter m (app.handle request) := by
  cases hreaches : app.reachesModel request with
  | false =>
    rw [access_of_not_reachesModel hreaches] at h
    exact nomatch h
  | true =>
    rw [access_of_reachesModel hreaches] at h
    cases request with
    | chat uuid4 body =>
      obtain rfl := Option.some.inj h
      obtain ⟨request, hrequest⟩ := Except.isOk_eq_true_iff.mp hreaches
      exact .bind (Gateway.canEnter_chat hrequest) _
    | chatStream uuid4 body =>
      obtain rfl := Option.some.inj h
      obtain ⟨request, hrequest⟩ := Except.isOk_eq_true_iff.mp hreaches
      exact .bind (Gateway.canEnter_chatStream hrequest) _
    | agentRun body =>
      obtain rfl := Option.some.inj h
      obtain ⟨hprompt, hiterations⟩ := (Bool.and_eq_true _ _).mp hreaches
      obtain ⟨system, hsystem⟩ := Except.isOk_eq_true_iff.mp hprompt
      exact .bind (Gateway.canEnter_agentRun hsystem
        (Nat.ne_of_gt (of_decide_eq_true hiterations))) _

/-- A request as a client of the semaphore. -/
def client (app : Application) (request : Request) : Gateway.protocol.Client Response where
  access := app.access request
  code := app.handle request
  disciplined := app.neutral_handle request
  canEnter := app.canEnter_handle request

/-! ## The cap -/

/-- The requests, before their first steps. -/
def start (app : Application) (requests : List Request) :
    Pool (App Response) Semaphore.State :=
  ⟨requests.map app.handle, ⟨app.maxConcurrent, 0⟩⟩

/-- The model calls in flight. -/
def inFlight (p : Pool (App Response) Semaphore.State) : ℕ := p.shared.inside

/-- In every state that some interleaving of the requests `Reaches` there are at most
`max_concurrent` model calls `inFlight`, if and only if none of the requests that reach the model is
an agent run, which takes no permit of the semaphore, or no more than `max_concurrent` requests
reach it at all. -/
theorem inFlight_le_iff (app : Application) (requests : List Request) :
    (∀ p, Gateway.protocol.Reaches (app.start requests) p → inFlight p ≤ app.maxConcurrent) ↔
      (∀ request ∈ requests, app.reachesModel request → ¬request.isAgentRun) ∨
        requests.countP app.reachesModel ≤ app.maxConcurrent := by
  have hstart : app.start requests =
      Semaphore.Protocol.start (requests.map app.client) app.maxConcurrent := by
    unfold start Semaphore.Protocol.start
    rw [List.map_map]
    rfl
  have hfree : (∀ client ∈ requests.map app.client, client.access ≠ .free) ↔
      ∀ request ∈ requests, app.reachesModel request → ¬request.isAgentRun := by
    rw [List.forall_mem_map]
    refine forall₂_congr fun request _ => ?_
    show app.access request ≠ .free ↔ _
    unfold access
    split_ifs with hreaches hagent <;> simp [*]
  have hcount : (requests.map app.client).countP (fun client => client.access ≠ .never) =
      requests.countP app.reachesModel := by
    rw [List.countP_map]
    refine List.countP_congr fun request _ => ?_
    show decide (app.access request ≠ .never) = true ↔ _
    unfold access
    split_ifs with hreaches hagent <;> simp [*]
  rw [hstart, ← hfree, ← hcount]
  exact Semaphore.Protocol.inside_le_iff (requests.map app.client) app.maxConcurrent

/-- `CalculatorTool`, as the model is told about it. -/
def calculator : Tool where
  name := "calculator".toList
  description := "Evaluates arithmetic expressions safely using AST walk — no eval().".toList
  inputSchema := .dict [(.str "type".toList, .str "object".toList),
    (.str "properties".toList, .dict [(.str "expression".toList,
      .dict [(.str "type".toList, .str "string".toList),
        (.str "description".toList,
          .str "Arithmetic expression to evaluate (e.g. '2 + 3 * 4')".toList)])]),
    (.str "required".toList, .list [.str "expression".toList])]
  execute _ _ _ := .error (.of .ToolDeniedError "division by zero".toList)

/-- An application with a cap of one. -/
def cappedAtOne : Application where
  agent := ⟨ToolRegistry.empty.register calculator, 10⟩
  maxConcurrent := 1
  lim := .thousand
  loads _ := .error (.of .JSONDecodeError "Expecting value: line 1 column 1 (char 0)".toList)
  invalid _ := .of (.other "ValidationError".toList) "Input should be a valid dictionary".toList

/-- A chat and an agent run. -/
def chatAndAgentRun : List Request :=
  [.chat (fun _ => []) ⟨[{ content := "Hello".toList }], List.cons_ne_nil _ _, "default".toList,
    false, "default".toList, "default".toList⟩, .agentRun { task := "What is 6 * 7?".toList }]

/-- The model calls of a chat and of an agent run are in flight together, with a cap of one: the
chat has taken the permit, and the agent run has not asked for one. -/
theorem chatAndAgentRun_not_capped :
    ∃ p, Gateway.protocol.Reaches (cappedAtOne.start chatAndAgentRun) p ∧
      cappedAtOne.maxConcurrent < inFlight p := by
  obtain ⟨p, hreach, hinside⟩ := Semaphore.Protocol.exists_reaches_inside
    (chatAndAgentRun.map cappedAtOne.client) [] ⟨cappedAtOne.maxConcurrent, 0⟩
  have hfree : (chatAndAgentRun.map cappedAtOne.client).countP
      (fun client => client.access = .free) = 1 := rfl
  have hguarded : (chatAndAgentRun.map cappedAtOne.client).countP
      (fun client => client.access = .guarded) = 1 := rfl
  refine ⟨p, hreach, ?_⟩
  unfold inFlight
  rw [hinside, hfree, hguarded]
  decide

end Application
