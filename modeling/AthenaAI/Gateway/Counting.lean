import AthenaAI.Agents.History
import AthenaAI.Gateway.Concurrency
import AthenaAI.Gateway.Streaming

/-!
# Counted requests

What the three handlers add to `requests_total`.

* `Environment` is an environment in which nothing but the model and the tools may raise.
* `counts` are the increments in a run, and `produced` says whether the full result was produced.
* `CountedOnce`: there is one increment, for the endpoint of the request and with the status that
  the result calls for.
* `countedOnce_iff`: this is so exactly if the roles of a chat are those of `MessageRole`, and if an
  agent run that returns has had only tool calls that are dicts with string keys.
-/

/-- An operation with its outcome. -/
abbrev AppOp.Performed : Type := (op : AppOp) × Except PyExc op.Resp

namespace Gateway

/-- An environment in which nothing but the model and the tools may raise. -/
structure Environment (S : Type) where
  /-- What the operations come to. -/
  handle : Handler AppOp AppOp.Resp PyExc S
  /-- Only the model raises. The exceptions of tools are among the answers of `gather`. -/
  possible : ∀ op s, Possible op (handle op s).1

/-- The increments of `requests_total`: the endpoint and the status. -/
def counts (trace : List AppOp.Performed) : List (PyStr × PyStr) :=
  trace.filterMap fun
    | ⟨.count endpoint status, _⟩ => some (endpoint, status)
    | _ => none

/-- A stream of the model has come to its end. -/
def streamed (trace : List AppOp.Performed) : Bool :=
  trace.any fun
    | ⟨.streamEnd, r⟩ => r.isOk
    | _ => false

/-- The responses of the model. -/
def responses (trace : List AppOp.Performed) : List ModelResponse :=
  trace.filterMap fun
    | ⟨.response, .ok response⟩ => some response
    | _ => none

end Gateway

/-- The endpoint of a request. -/
def Request.endpoint : Request → PyStr
  | .chat _ _ => "/v1/chat".toList
  | .chatStream _ _ => "/v1/chat/stream".toList
  | .agentRun _ => "/v1/agents/run".toList

namespace Application

variable {S : Type} (app : Application) (env : Gateway.Environment S) (s : S)

/-- The full result of a request has been produced. -/
def produced (request : Request) : Bool :=
  match request with
  | .chat _ _ | .agentRun _ => ((app.handle request).run env.handle s).1.isOk
  -- the body of a stream is complete with the last token
  | .chatStream _ _ => Gateway.streamed ((app.handle request).trace env.handle s)

/-- Handling the request to its end increments `requests_total` once, for its endpoint and with the
status that the result calls for. -/
def CountedOnce (request : Request) : Prop :=
  Gateway.counts ((app.handle request).trace env.handle s) =
    [(request.endpoint, if app.produced env s request then "success".toList else "error".toList)]

/-- A tool call is a dict with string keys. -/
def stringKeyed : PyValue → Bool
  | .dict items => items.all fun item => (item.1 matches .str _)
  | _ => false

/-- What a request has to be like, and what the model has to answer it. -/
def Countable : Request → Prop
  | .chat _ body | .chatStream _ body =>
    ∀ m ∈ body.messages, ∃ role : MessageRole, m.role = role.value
  | .agentRun body =>
    ((app.agent.runStepwise app.lim app.loads body.task).run env.handle s).1.isOk = true →
      ∀ response ∈ Gateway.responses
        ((app.agent.runStepwise app.lim app.loads body.task).trace env.handle s),
        ∀ call ∈ AgentExecutor.callsOf app.loads response, stringKeyed call = true

end Application

namespace Gateway

variable {S : Type} {env : Environment S} {s : S} {α β γ : Type}

/-! ## What does not count -/

/-- What is counted in two stretches of a run, one after the other, is what is counted in each of
them; so `streamed` and `responses` below. -/
@[simp]
theorem counts_append (before after : List AppOp.Performed) :
    counts (before ++ after) = counts before ++ counts after := List.filterMap_append

@[simp]
theorem streamed_append (before after : List AppOp.Performed) :
    streamed (before ++ after) = (streamed before || streamed after) := List.any_append

@[simp]
theorem responses_append (before after : List AppOp.Performed) :
    responses (before ++ after) = responses before ++ responses after := List.filterMap_append

/-- The operation is not an increment of `requests_total`. -/
def IsQuiet : AppOp → Prop
  | .count _ _ => False
  | _ => True

/-- The coroutine does not increment `requests_total`. -/
abbrev Quiet (c : App α) : Prop := c.Awaits IsQuiet

/-- A `Quiet` computation increments no counter, whatever environment it meets: nothing in its trace
is a `requestCount`. -/
theorem Quiet.counts_trace {c : App α} (hc : Quiet c) (h : Handler AppOp AppOp.Resp PyExc S)
    (s : S) : counts (c.trace h s) = [] := by
  refine List.filterMap_eq_nil_iff.mpr fun performed hperformed => ?_
  have hquiet := hc.forall_mem_trace h s performed hperformed
  obtain ⟨op, r⟩ := performed
  cases op <;> first | rfl | exact hquiet.elim

/-- Taking the semaphore and giving it back are no increments, so a `Quiet` body stays so under
`App.withSemaphore`. -/
theorem quiet_withSemaphore {body : App α} (hbody : Quiet body) :
    Quiet (App.withSemaphore body) :=
  Coro.Awaits.bind (.perform trivial) fun _ => Coro.Awaits.bind hbody.attempt fun outcome =>
    Coro.Awaits.bind (.perform trivial) fun _ => Coro.Awaits.ofExcept outcome

theorem quiet_callModel (request : ModelRequest) : Quiet (App.callModel request) :=
  Coro.Awaits.bind (.perform trivial) fun _ => .perform trivial

/-- The pipeline of `AthenaRuntime.execute` leaves the counting to the route that calls it. -/
theorem quiet_execute (uuid4 : ℕ → PyStr) (request : AIRequest) :
    Quiet (AthenaRuntime.execute uuid4 request) :=
  Coro.Awaits.bind (quiet_withSemaphore (quiet_callModel _)) fun _ => trivial

theorem quiet_forM (tokens : List PyStr) {onToken : PyStr → App Unit}
    (honToken : ∀ token, Quiet (onToken token)) : Quiet (List.forM tokens onToken) := by
  induction tokens with
  | nil => exact trivial
  | cons token tokens ih => exact Coro.Awaits.bind (honToken token) fun _ => ih

/-- `AthenaRuntime.stream` is `Quiet` if what is done with each token is. -/
theorem quiet_stream (request : AIRequest) {onToken : PyStr → App Unit}
    (honToken : ∀ token, Quiet (onToken token)) : Quiet (AthenaRuntime.stream request onToken) :=
  quiet_withSemaphore (Coro.Awaits.bind (.perform trivial) fun tokens =>
    Coro.Awaits.bind (quiet_forM tokens honToken) fun _ => .perform trivial)

theorem quiet_awaitTools (k : ℕ) (calls : List PyValue) :
    Quiet (AgentExecutor.awaitTools k calls) := by
  unfold AgentExecutor.awaitTools
  split_ifs
  · exact trivial
  · exact .perform trivial

theorem quiet_loopStepwise (executor : AgentExecutor) (lim : Json.Limits) (loads : Loads)
    (system : PyStr) (left k : ℕ) (st : AgentExecutor.LoopState) :
    Quiet (executor.loopStepwise lim loads system left k st) := by
  induction left generalizing k st with
  | zero => exact Coro.Awaits.ofExcept _
  | succ left ih =>
    refine Coro.Awaits.bind (quiet_callModel _) fun response => ?_
    refine Coro.Awaits.bind (.ofExcept _) fun calls => ?_
    refine Coro.Awaits.bind (quiet_awaitTools k calls) fun outcomes => ?_
    refine Coro.Awaits.bind (.ofExcept _) fun r => ?_
    cases r with
    | inl st' => exact ih (k + 1) st'
    | inr result => exact trivial

/-- A whole run of the executor increments no counter: the models and the tools that it awaits are
operations of their own. -/
theorem quiet_runStepwise (executor : AgentExecutor) (lim : Json.Limits) (loads : Loads)
    (task : PyStr) : Quiet (executor.runStepwise lim loads task) :=
  Coro.Awaits.bind (.ofExcept _) fun _ => Coro.Awaits.bind (.ofExcept _) fun _ =>
    quiet_loopStepwise _ _ _ _ _ _ _

/-! ## What counts -/

variable {endpoint : PyStr}

/-- What has to do with neither the model nor the tools does not raise in any environment, since
`Possible` answers of it are values. -/
theorem exists_run_perform (env : Environment S) (op : AppOp)
    (hop : ∀ r, Possible op r → r.isOk = true) (s : S) :
    ∃ a s', (App.perform op).run env.handle s = (.ok a, s') := by
  obtain ⟨a, hok⟩ := Except.isOk_eq_true_iff.mp (hop _ (env.possible op s))
  exact ⟨a, _, by rw [App.perform, Coro.run_perform, ← hok]⟩

/-- The `except` branch of a route counts its request as an error, once, and what follows is
quiet. -/
theorem counts_trace_countError (env : Environment S) (endpoint : PyStr) {rest : App α}
    (hrest : Quiet rest) (s : S) :
    counts ((countError endpoint >>= fun _ => rest).trace env.handle s) =
      [(endpoint, "error".toList)] := by
  obtain ⟨_, s', hcount⟩ := exists_run_perform env (.count endpoint "error".toList) (fun _ => id) s
  rw [countError, Coro.trace_bind_of_ok _ hcount, counts_append, hrest.counts_trace,
    List.append_nil, App.perform, Coro.trace_perform]
  rfl

/-- What follows a success: it is counted, and nothing raises. -/
def Succeeds (env : Environment S) (endpoint : PyStr) (c : App α) : Prop :=
  ∀ s, ∃ a s', c.run env.handle s = (.ok a, s') ∧
    counts (c.trace env.handle s) = [(endpoint, "success".toList)]

/-- The increment itself does not fail, in any environment, and it is the only one of its kind in
what it performs. -/
theorem succeeds_countSuccess (env : Environment S) (endpoint : PyStr) :
    Succeeds env endpoint (countSuccess endpoint) := by
  intro s
  obtain ⟨_, s', hcount⟩ := exists_run_perform env (.count endpoint "success".toList)
    (fun _ => id) s
  refine ⟨_, s', hcount, ?_⟩
  rw [countSuccess, App.perform, Coro.trace_perform]
  rfl

/-- A route that counts its success and then does quiet things that do not raise has counted one
success in all. -/
theorem Succeeds.bind {c : App α} {f : α → App β} (hc : Succeeds env endpoint c)
    (hquiet : ∀ a, Quiet (f a)) (hf : ∀ a s, ∃ b s', (f a).run env.handle s = (.ok b, s')) :
    Succeeds env endpoint (c >>= f) := by
  intro s
  obtain ⟨a, s₁, hrun, hcounts⟩ := hc s
  obtain ⟨b, s₂, hrest⟩ := hf a s₁
  refine ⟨b, s₂, by rw [Coro.run_bind_of_ok _ hrun, hrest], ?_⟩
  rw [Coro.trace_bind_of_ok _ hrun, counts_append, hcounts, (hquiet a).counts_trace,
    List.append_nil]

/-- A `try` that counts a success behind what it tries, and an error in its `except`, counts once:
what it counts is how the tried part ends. -/
theorem counts_trace_attempt_bind {c : App α} {after : α → App γ}
    {finish : Except PyExc γ → App β} (hc : Quiet c)
    (hafter : ∀ a, Succeeds env endpoint (after a)) (hok : ∀ r, Quiet (finish (.ok r)))
    (herror : ∀ e, ∃ rest, Quiet rest ∧
      finish (.error e) = (countError endpoint >>= fun _ => rest)) (s : S) :
    counts ((Coro.attempt (c >>= after) >>= finish).trace env.handle s) =
      [(endpoint, if (c.run env.handle s).1.isOk then "success".toList else "error".toList)] := by
  rw [Coro.trace_attempt_bind, counts_append]
  rcases hrun : c.run env.handle s with ⟨outcome, s'⟩
  cases outcome with
  | ok a =>
    obtain ⟨r, s'', hsuccess, hcounts⟩ := hafter a s'
    rw [Coro.trace_bind_of_ok _ hrun, Coro.run_bind_of_ok _ hrun, hsuccess, counts_append,
      hc.counts_trace, hcounts, (hok r).counts_trace]
    rfl
  | error e =>
    obtain ⟨rest, hrest, hfinish⟩ := herror e
    rw [Coro.trace_bind_of_error _ hrun, Coro.run_bind_of_error _ hrun, hc.counts_trace, hfinish,
      counts_trace_countError env endpoint hrest]
    rfl

/-- A `try` that passes on what it has tried returns exactly if that returns and what comes behind
it returns, for its `except` raises. -/
theorem isOk_run_attempt_bind {c : App α} {after : α → App α} {finish : Except PyExc α → App β}
    {p : α → Bool} (hafter : ∀ a s, ∃ s', (after a).run env.handle s = (.ok a, s'))
    (hok : ∀ a s, ((finish (.ok a)).run env.handle s).1.isOk = p a)
    (herror : ∀ e s, ((finish (.error e)).run env.handle s).1.isOk = false) (s : S) :
    ((Coro.attempt (c >>= after) >>= finish).run env.handle s).1.isOk = true ↔
      ∃ a, (c.run env.handle s).1 = .ok a ∧ p a = true := by
  rw [Coro.run_attempt_bind]
  rcases hrun : c.run env.handle s with ⟨outcome, s'⟩
  cases outcome with
  | ok a =>
    obtain ⟨s'', hreturn⟩ := hafter a s'
    rw [Coro.run_bind_of_ok _ hrun, hreturn, hok a s'']
    simp only [Except.ok.injEq, exists_eq_left']
  | error e =>
    rw [Coro.run_bind_of_error _ hrun, herror e s']
    exact iff_of_false Bool.false_ne_true fun ⟨_, h, _⟩ => nomatch h

/-- The `except` that counts an error raises. -/
theorem isOk_run_countError (env : Environment S) (endpoint : PyStr) (text : Except PyExc PyStr)
    (s : S) : ((do
      countError endpoint
      Coro.raise (serverError (← Coro.ofExcept text)) : App α).run env.handle s).1.isOk =
        false := by
  obtain ⟨_, s', hcount⟩ := exists_run_perform env (.count endpoint "error".toList) (fun _ => id) s
  rw [countError, Coro.run_bind_of_ok _ hcount]
  cases text <;> rfl

/-! ## The handlers -/

variable {uuid4 : ℕ → PyStr} {body : ChatRequest} {request : AIRequest}

/-- The roles of a chat decide whether its `AIRequest` is built: each has to be one of
`MessageRole`. -/
theorem exists_aiRequest_iff (uuid4 : ℕ → PyStr) (stream : Bool) (body : ChatRequest) :
    (∃ request, aiRequest uuid4 stream body = .ok request) ↔
      ∀ m ∈ body.messages, ∃ role : MessageRole, m.role = role.value := by
  have hmessage (m : ChatMessage) :
      (∃ turn, message m = .ok turn) ↔ ∃ role : MessageRole, m.role = role.value := by
    simp only [message, Except.bind_eq_ok_iff, MessageRole.ofValue_eq_ok_iff]
    constructor
    · rintro ⟨_, role, hrole, -⟩
      exact ⟨role, hrole⟩
    · rintro ⟨role, hrole⟩
      exact ⟨_, role, hrole, rfl⟩
  simp only [← hmessage, ← Except.exists_mapM_eq_ok_iff]
  unfold aiRequest
  constructor
  · rintro ⟨request, hrequest⟩
    obtain ⟨turns, hturns, -⟩ := Except.bind_eq_ok_iff.mp hrequest
    exact ⟨turns, hturns⟩
  · rintro ⟨turns, hturns⟩
    -- there are as many turns as messages
    have hne : turns ≠ [] := by
      rintro rfl
      have hforall := Except.mapM_eq_ok_iff.mp hturns
      exact body.messages_ne_nil (List.forall₂_nil_right_iff.mp hforall)
    have hchecked : AIRequest.checked turns = .ok ⟨turns, hne⟩ := dif_neg hne
    rw [hturns]
    show ∃ request, (AIRequest.checked turns >>= _) = .ok request
    rw [hchecked]
    exact ⟨_, rfl⟩

/-- `chat` on a body that `aiRequest` accepts: one increment, labelled by whether
`AthenaRuntime.execute` has returned a response. -/
theorem counts_trace_chat (hrequest : aiRequest uuid4 false body = .ok request) :
    counts ((chat uuid4 body).trace env.handle s) =
      [("/v1/chat".toList,
        if ((AthenaRuntime.execute (fun k => uuid4 (k + 2)) request).run env.handle s).1.isOk
          then "success".toList else "error".toList)] := by
  unfold chat
  rw [hrequest, Coro.ofExcept, Coro.ret_bind]
  refine counts_trace_attempt_bind (quiet_execute _ request) ?_ ?_ ?_ s
  · exact fun response =>
      (succeeds_countSuccess env _).bind (fun _ => trivial) fun _ s => ⟨_, s, rfl⟩
  · exact fun response => trivial
  · refine fun exc => ⟨_, ?_, rfl⟩
    exact Coro.Awaits.bind (.ofExcept exc.str) fun _ => trivial

/-- A chat whose request is built returns exactly if `AthenaRuntime.execute` does. -/
theorem isOk_run_chat (hrequest : aiRequest uuid4 false body = .ok request) :
    ((chat uuid4 body).run env.handle s).1.isOk =
      ((AthenaRuntime.execute (fun k => uuid4 (k + 2)) request).run env.handle s).1.isOk := by
  unfold chat
  rw [hrequest, Coro.ofExcept, Coro.ret_bind, Bool.eq_iff_iff]
  refine (isOk_run_attempt_bind (p := fun _ => true) ?_ ?_ ?_ s).trans ?_
  · intro response s
    obtain ⟨_, s', hcount⟩ := exists_run_perform env
      (.count "/v1/chat".toList "success".toList) (fun _ => id) s
    exact ⟨s', Coro.run_bind_of_ok _ hcount _⟩
  · exact fun response s => rfl
  · exact fun exc s => isOk_run_countError env _ exc.str s
  · rw [Except.isOk_eq_true_iff]
    exact exists_congr fun response => and_iff_left rfl

/-- The generator behind the stream counts one success or one error, according to whether
`AthenaRuntime.stream` came to its end. -/
theorem counts_trace_streamTokens (request : AIRequest) (s : S) :
    counts ((streamTokens request).trace env.handle s) =
      [("/v1/chat/stream".toList,
        if ((AthenaRuntime.stream request sendToken).run env.handle s).1.isOk
          then "success".toList else "error".toList)] := by
  refine counts_trace_attempt_bind (quiet_stream request fun token => .perform trivial) ?_ ?_ ?_ s
  · exact fun _ => succeeds_countSuccess env _
  · exact fun _ => trivial
  · refine fun exc => ⟨_, ?_, rfl⟩
    exact Coro.Awaits.bind (.ofExcept exc.str) fun _ => .perform trivial

/-- `chat_stream` on a body that `aiRequest` accepts: one increment, that of its generator
`streamTokens`. -/
theorem counts_trace_chatStream (hrequest : aiRequest uuid4 true body = .ok request) :
    counts ((chatStream uuid4 body).trace env.handle s) =
      [("/v1/chat/stream".toList,
        if ((AthenaRuntime.stream request sendToken).run env.handle s).1.isOk
          then "success".toList else "error".toList)] := by
  have hfinally (outcome : Except PyExc Unit) : Quiet
      (App.perform (.send (dataChunk "[DONE]".toList)) >>= fun _ => Coro.ofExcept outcome) :=
    Coro.Awaits.bind (.perform trivial) fun _ => .ofExcept outcome
  unfold chatStream eventStream
  rw [hrequest, Coro.ofExcept, Coro.ret_bind, Coro.trace_attempt_bind, counts_append,
    counts_trace_streamTokens, (hfinally _).counts_trace, List.append_nil]

/-! ## The end of a stream -/

/-- The operation does not end a stream of the model. -/
def IsEndless : AppOp → Prop
  | .streamEnd => False
  | _ => True

/-- A computation all of whose awaited operations are `IsEndless` sends no `[DONE]`. -/
theorem streamed_trace_of_awaits {c : App α} (hc : c.Awaits IsEndless)
    (h : Handler AppOp AppOp.Resp PyExc S) (s : S) : streamed (c.trace h s) = false := by
  refine List.any_eq_false.mpr fun performed hperformed => ?_
  have hendless := hc.forall_mem_trace h s performed hperformed
  obtain ⟨op, r⟩ := performed
  cases op <;> first | exact Bool.false_ne_true | exact hendless.elim

theorem streamed_trace_perform (op : AppOp) (hop : IsEndless op)
    (h : Handler AppOp AppOp.Resp PyExc S) (s : S) :
    streamed ((App.perform op).trace h s) = false :=
  streamed_trace_of_awaits (.perform hop) h s

/-- Sending tokens does not raise, and does not end the stream. -/
theorem exists_run_forM_sendToken (env : Environment S) (tokens : List PyStr) (s : S) :
    ∃ s', Coro.run env.handle (List.forM tokens sendToken) s = (.ok (), s') := by
  induction tokens generalizing s with
  | nil => exact ⟨s, rfl⟩
  | cons token tokens ih =>
    obtain ⟨_, s', hsend⟩ := exists_run_perform env (.send (dataChunk token)) (fun _ => id) s
    obtain ⟨s'', hrest⟩ := ih s'
    exact ⟨s'', (Coro.run_bind_of_ok _ hsend _).trans hrest⟩

/-- Sending tokens is no end of a stream: the chunks that `sendToken` yields are all `IsEndless`. -/
theorem awaits_forM_sendToken (tokens : List PyStr) :
    (List.forM tokens sendToken : App Unit).Awaits IsEndless := by
  induction tokens with
  | nil => exact trivial
  | cons token tokens ih => exact Coro.Awaits.bind (.perform trivial) fun _ => ih

/-- The semaphore neither raises nor ends a stream: what is said of a body, that its stream is
complete exactly if it returns, is true of the body within the semaphore. -/
theorem streamed_trace_withSemaphore {body : App α}
    (hbody : ∀ s, streamed (body.trace env.handle s) = (body.run env.handle s).1.isOk) (s : S) :
    streamed ((App.withSemaphore body).trace env.handle s) =
      ((App.withSemaphore body).run env.handle s).1.isOk := by
  obtain ⟨_, s₁, hacquire⟩ := exists_run_perform env .acquire (fun _ => id) s
  obtain ⟨_, s₂, hrelease⟩ :=
    exists_run_perform env .release (fun _ => id) (body.run env.handle s₁).2
  have hafter (outcome : Except PyExc α) : Coro.Awaits IsEndless
      (App.perform .release >>= fun _ => Coro.ofExcept outcome) :=
    Coro.Awaits.bind (.perform trivial) fun _ => .ofExcept outcome
  have hrest : streamed ((App.perform .acquire).trace env.handle s) = false :=
    streamed_trace_perform .acquire trivial env.handle s
  unfold App.withSemaphore
  rw [Coro.trace_bind_of_ok _ hacquire, Coro.run_bind_of_ok _ hacquire,
    Coro.trace_attempt_bind, Coro.run_attempt_bind, streamed_append, streamed_append, hrest,
    streamed_trace_of_awaits (hafter _), hbody, Coro.run_bind_of_ok _ hrelease, Coro.run_ofExcept,
    Bool.false_or, Bool.or_false]

/-- `AthenaRuntime.stream` returns exactly if the model has come to the end of its tokens. -/
theorem streamed_trace_stream (request : AIRequest) (s : S) :
    streamed ((AthenaRuntime.stream request sendToken).trace env.handle s) =
      ((AthenaRuntime.stream request sendToken).run env.handle s).1.isOk := by
  refine streamed_trace_withSemaphore (fun s => ?_) s
  rcases hstream : (App.perform (.stream (AthenaRuntime.modelRequest request))).run env.handle s
    with ⟨outcome, s'⟩
  cases outcome with
  | error e =>
    rw [Coro.trace_bind_of_error _ hstream, Coro.run_bind_of_error _ hstream]
    exact streamed_trace_perform (.stream _) trivial env.handle s
  | ok tokens =>
    obtain ⟨s'', htokens⟩ := exists_run_forM_sendToken env tokens s'
    have hbegin : streamed ((App.perform (.stream (AthenaRuntime.modelRequest request))).trace
        env.handle s) = false := streamed_trace_perform (.stream _) trivial env.handle s
    rw [Coro.trace_bind_of_ok _ hstream, Coro.run_bind_of_ok _ hstream,
      Coro.trace_bind_of_ok _ htokens, Coro.run_bind_of_ok _ htokens, streamed_append,
      streamed_append, hbegin, streamed_trace_of_awaits (awaits_forM_sendToken tokens),
      Bool.false_or, Bool.false_or, App.perform, Coro.trace_perform, Coro.run_perform]
    exact Bool.or_false _

/-- Neither counting nor the chunk of an error ends the stream. -/
theorem streamed_trace_streamTokens (request : AIRequest) (s : S) :
    streamed ((streamTokens request).trace env.handle s) =
      ((AthenaRuntime.stream request sendToken).run env.handle s).1.isOk := by
  have hexcept (exc : PyExc) : Coro.Awaits IsEndless (do
      countError "/v1/chat/stream".toList
      App.perform (.send (dataChunk ("[ERROR] ".toList ++ (← Coro.ofExcept exc.str))))) :=
    Coro.Awaits.bind (.perform trivial) fun _ =>
      Coro.Awaits.bind (.ofExcept exc.str) fun _ => .perform trivial
  unfold streamTokens
  rw [Coro.trace_attempt_bind, streamed_append, ← streamed_trace_stream]
  rcases hstream : (AthenaRuntime.stream request sendToken).run env.handle s with ⟨outcome, s'⟩
  cases outcome with
  | error e =>
    rw [Coro.trace_bind_of_error _ hstream, Coro.run_bind_of_error _ hstream]
    exact (congrArg _ (streamed_trace_of_awaits (hexcept e) _ _)).trans (Bool.or_false _)
  | ok _ =>
    obtain ⟨_, s'', hcount⟩ := exists_run_perform env
      (.count "/v1/chat/stream".toList "success".toList) (fun _ => id) s'
    have hsuccess : streamed ((countSuccess "/v1/chat/stream".toList).trace env.handle s') =
        false := streamed_trace_perform (.count _ _) trivial env.handle s'
    rw [Coro.trace_bind_of_ok _ hstream, Coro.run_bind_of_ok _ hstream, streamed_append, hsuccess,
      countSuccess, hcount, Bool.or_false]
    exact Bool.or_false _

/-- The body of a stream is complete, with `[DONE]` after the tokens and no error before it, exactly
if the runtime returns. -/
theorem streamed_trace_chatStream (hrequest : aiRequest uuid4 true body = .ok request) :
    streamed ((chatStream uuid4 body).trace env.handle s) =
      ((AthenaRuntime.stream request sendToken).run env.handle s).1.isOk := by
  have hfinally (outcome : Except PyExc Unit) : Coro.Awaits IsEndless
      (App.perform (.send (dataChunk "[DONE]".toList)) >>= fun _ => Coro.ofExcept outcome) :=
    Coro.Awaits.bind (.perform trivial) fun _ => .ofExcept outcome
  unfold chatStream eventStream
  rw [hrequest, Coro.ofExcept, Coro.ret_bind, Coro.trace_attempt_bind, streamed_append,
    streamed_trace_streamTokens, streamed_trace_of_awaits (hfinally _), Bool.or_false]

/-! ## The tool calls of an agent run -/

open AgentExecutor

variable {executor : AgentExecutor} {lim : Json.Limits} {loads : Loads} {system task : PyStr}
  {k : ℕ} {st st' : LoopState} {response : ModelResponse} {result : AgentResult}

/-- An iteration that goes on adds a step with the tool calls of its response (`callsOf`), and the
agent is still running. -/
theorem toolCalls_of_iteration_inl (hstatus : st.status = .RUNNING)
    (h : executor.iteration lim loads k response st = .ok (.inl st')) :
    st'.status = .RUNNING ∧ st'.steps.map AgentStep.toolCalls =
      st.steps.map AgentStep.toolCalls ++ [callsOf loads response] := by
  obtain ⟨-, hcase⟩ := (iteration_eq_ok_iff hstatus).mp h
  generalize callsOf loads response = toolCalls at hcase
  cases hcase with
  | tools _ recorded _ _ => exact ⟨rfl, by rw [List.map_append]; rfl⟩

/-- An iteration that ends the run adds one step, and the calls of that step are those that
`callsOf` finds in the response of the model. -/
theorem toolCalls_of_iteration_inr (hstatus : st.status = .RUNNING)
    (h : executor.iteration lim loads k response st = .ok (.inr result)) :
    result.steps.map AgentStep.toolCalls =
      st.steps.map AgentStep.toolCalls ++ [callsOf loads response] := by
  obtain ⟨-, hcase⟩ := (iteration_eq_ok_iff hstatus).mp h
  generalize callsOf loads response = toolCalls at hcase
  cases hcase with
  | final => rw [List.map_append]; rfl

/-- What a call of the model returns is its response. -/
theorem responses_trace_callModel {h : Handler AppOp AppOp.Resp PyExc S} {request : ModelRequest}
    {s' : S} (hcall : (App.callModel request).run h s = (.ok response, s')) :
    responses ((App.callModel request).trace h s) = [response] := by
  unfold App.callModel at hcall ⊢
  obtain ⟨_, s₁, hbegin, hend⟩ := Coro.exists_of_run_bind_eq_ok h hcall
  have hresponse : (h .response s₁).1 = .ok response := by
    rw [App.perform, Coro.run_perform] at hend
    rw [hend]
  rw [Coro.trace_bind_of_ok _ hbegin, responses_append, App.perform, Coro.trace_perform,
    App.perform, Coro.trace_perform, hresponse]
  rfl

theorem responses_trace_awaitTools (h : Handler AppOp AppOp.Resp PyExc S) (calls : List PyValue) :
    responses ((awaitTools k calls).trace h s) = [] := by
  cases calls with
  | nil => rfl
  | cons call calls =>
    show responses ((App.perform (.gather k (call :: calls))).trace h s) = []
    rw [App.perform, Coro.trace_perform]
    rfl

/-- A loop that returns has a step for every response that it got, with the `callsOf` this response.
By induction on the iterations that are left. -/
theorem toolCalls_of_loopStepwise {h : Handler AppOp AppOp.Resp PyExc S} {s' : S} (left : ℕ)
    (hstatus : st.status = .RUNNING)
    (hrun : (executor.loopStepwise lim loads system left k st).run h s = (.ok result, s')) :
    result.steps.map AgentStep.toolCalls = st.steps.map AgentStep.toolCalls ++
      (responses ((executor.loopStepwise lim loads system left k st).trace h s)).map
        (callsOf loads) := by
  induction left generalizing k st s with
  | zero =>
    rw [loopStepwise, Coro.run_ofExcept] at hrun
    obtain ⟨result', hgiveUp, hsteps⟩ := executor.exists_giveUp hstatus
    obtain rfl := Except.ok.inj (hgiveUp.symm.trans (Prod.mk.inj hrun).1)
    rw [loopStepwise, Coro.trace_ofExcept, hsteps]
    exact (List.append_nil _).symm
  | succ left ih =>
    rw [loopStepwise] at hrun ⊢
    obtain ⟨response, s₁, hcall, hrun⟩ := Coro.exists_of_run_bind_eq_ok h hrun
    obtain ⟨calls, s₂, hcalls, hrun⟩ := Coro.exists_of_run_bind_eq_ok h hrun
    obtain ⟨outcomes, s₃, hawait, hrun⟩ := Coro.exists_of_run_bind_eq_ok h hrun
    obtain ⟨r, s₄, hiteration, hrun⟩ := Coro.exists_of_run_bind_eq_ok h hrun
    rw [Coro.trace_bind_of_ok _ hcall, Coro.trace_bind_of_ok _ hcalls,
      Coro.trace_bind_of_ok _ hawait, Coro.trace_bind_of_ok _ hiteration, Coro.trace_ofExcept,
      Coro.trace_ofExcept, responses_append, responses_append, responses_append, responses_append,
      responses_trace_callModel hcall, responses_trace_awaitTools]
    rw [Coro.run_ofExcept] at hiteration
    have hstep := (Prod.mk.inj hiteration).1
    cases r with
    | inr result' =>
      obtain rfl := Except.ok.inj (Prod.mk.inj hrun).1
      exact toolCalls_of_iteration_inr hstatus hstep
    | inl st' =>
      obtain ⟨hstatus', hsteps⟩ := toolCalls_of_iteration_inl hstatus hstep
      rw [ih hstatus' hrun, hsteps, List.append_assoc]
      rfl

/-- An agent run that returns has a step for every response in its trace, with the `callsOf` this
response. -/
theorem toolCalls_of_runStepwise {h : Handler AppOp AppOp.Resp PyExc S} {s' : S}
    (hrun : (executor.runStepwise lim loads task).run h s = (.ok result, s')) :
    result.steps.map AgentStep.toolCalls =
      (responses ((executor.runStepwise lim loads task).trace h s)).map (callsOf loads) := by
  unfold runStepwise at hrun ⊢
  obtain ⟨system, s₁, hsystem, hrun⟩ := Coro.exists_of_run_bind_eq_ok h hrun
  obtain ⟨status, s₂, hstatus, hrun⟩ := Coro.exists_of_run_bind_eq_ok h hrun
  have hrunning : AgentStatus.CREATED.transition .RUNNING = .ok .RUNNING :=
    AgentStatus.transition_of_mem (by decide)
  rw [Coro.trace_bind_of_ok _ hsystem, Coro.trace_bind_of_ok _ hstatus, Coro.trace_ofExcept,
    Coro.trace_ofExcept]
  rw [hrunning, Coro.run_ofExcept] at hstatus
  obtain rfl := Except.ok.inj (Prod.mk.inj hstatus).1
  exact toolCalls_of_loopStepwise executor.maxIterations rfl hrun

/-- A step fits its schema, `AgentStepSchema`, exactly if its tool calls are dicts with string keys
(`stringKeyed`). -/
theorem exists_ofStep_iff (invalid : PyValue → PyExc) (step : AgentStep) :
    (∃ entry, AgentStepSchema.ofStep invalid step = .ok entry) ↔
      ∀ call ∈ step.toolCalls, Application.stringKeyed call = true := by
  have hdict (call : PyValue) :
      (∃ items, asDict invalid call = .ok items) ↔ Application.stringKeyed call = true := by
    cases call with
    | dict items =>
      rw [asDict, Application.stringKeyed]
      split_ifs with hkeys
      · exact iff_of_true ⟨items, rfl⟩ hkeys
      · exact iff_of_false (not_exists.mpr fun _ => not_false) hkeys
    | _ => exact iff_of_false (not_exists.mpr (Except.ne_ok_of_eq_error rfl)) Bool.false_ne_true
  simp only [← hdict, ← Except.exists_mapM_eq_ok_iff, AgentStepSchema.ofStep, Except.bind_eq_ok_iff]
  constructor
  · rintro ⟨_, calls, hcalls, -⟩
    exact ⟨calls, hcalls⟩
  · rintro ⟨calls, hcalls⟩
    exact ⟨_, calls, hcalls, rfl⟩

variable {app : Application} {run : AgentRunRequest}

/-- `agent_run` increments its counter once, labelled by whether the run of the executor has
returned a result. -/
theorem counts_trace_agentRun :
    counts ((agentRun app run).trace env.handle s) =
      [("/v1/agents/run".toList,
        if ((app.agent.runStepwise app.lim app.loads run.task).run env.handle s).1.isOk
          then "success".toList else "error".toList)] := by
  unfold agentRun
  refine counts_trace_attempt_bind (quiet_runStepwise _ _ _ _) ?_ ?_ ?_ s
  · refine fun result => (succeeds_countSuccess env _).bind (fun _ => ?_) fun _ s => ?_
    · exact Coro.Awaits.bind (.perform trivial) fun _ => trivial
    · obtain ⟨_, s', hcount⟩ := exists_run_perform env
        (.countIterations result.totalIterations) (fun _ => id) s
      exact ⟨_, s', Coro.run_bind_of_ok _ hcount _⟩
  · exact fun result => Coro.Awaits.bind (.ofExcept _) fun _ => trivial
  · refine fun exc => ⟨_, ?_, rfl⟩
    exact Coro.Awaits.bind (.ofExcept exc.str) fun _ => trivial

/-- The handler of an agent run returns exactly if the run does and all its steps fit
`AgentStepSchema`. -/
theorem isOk_run_agentRun_iff :
    ((agentRun app run).run env.handle s).1.isOk = true ↔
      ∃ result, ((app.agent.runStepwise app.lim app.loads run.task).run env.handle s).1 =
          .ok result ∧
        (result.steps.mapM (AgentStepSchema.ofStep app.invalid)).isOk = true := by
  unfold agentRun
  refine isOk_run_attempt_bind
    (p := fun result : AgentResult => (result.steps.mapM (AgentStepSchema.ofStep app.invalid)).isOk)
    ?_ ?_ ?_ s
  · intro result s
    obtain ⟨_, s₁, hcount⟩ := exists_run_perform env
      (.count "/v1/agents/run".toList "success".toList) (fun _ => id) s
    obtain ⟨_, s₂, hiterations⟩ := exists_run_perform env
      (.countIterations result.totalIterations) (fun _ => id) s₁
    exact ⟨s₂, (Coro.run_bind_of_ok _ hcount _).trans (Coro.run_bind_of_ok _ hiterations _)⟩
  · intro result s
    show (Coro.run _ (Coro.ofExcept _ >>= _) _).1.isOk = _
    rw [Coro.run_bind, Coro.run_ofExcept]
    cases result.steps.mapM (AgentStepSchema.ofStep app.invalid) <;> rfl
  · exact fun exc s => isOk_run_countError env _ exc.str s

end Gateway

/-! ## Counting once -/

namespace Application

open Gateway

variable {S : Type}

/-- An increment and the status that was called for. -/
private theorem singleton_status_eq_iff {endpoint : PyStr} {b b' : Bool} :
    [(endpoint, if b then "success".toList else "error".toList)] =
      [(endpoint, if b' then "success".toList else "error".toList)] ↔ b = b' := by
  cases b <;> cases b' <;> simp

variable {app : Application} {env : Environment S} {s : S}

/-- The case `chat` of `countedOnce_iff`: counted once exactly if the body makes an `AIRequest`,
which is done before the `try`. -/
theorem countedOnce_chat_iff {uuid4 : ℕ → PyStr} {body : ChatRequest} :
    app.CountedOnce env s (.chat uuid4 body) ↔
      ∃ request, aiRequest uuid4 false body = .ok request := by
  have htrace : (app.handle (.chat uuid4 body)).trace env.handle s =
      (chat uuid4 body).trace env.handle s := Coro.trace_bind_ret _ _ _ _
  have hproduced : app.produced env s (.chat uuid4 body) =
      ((chat uuid4 body).run env.handle s).1.isOk := Coro.isOk_run_bind_ret _ _ _ _
  rw [CountedOnce, htrace, hproduced]
  constructor
  · intro hcounts
    -- without a request nothing is counted
    cases hrequest : aiRequest uuid4 false body with
    | ok request => exact ⟨request, rfl⟩
    | error e =>
      rw [chat, hrequest] at hcounts
      exact absurd hcounts (List.cons_ne_nil _ _).symm
  · rintro ⟨request, hrequest⟩
    rw [counts_trace_chat hrequest, isOk_run_chat hrequest]
    rfl

/-- The case `chatStream`: the body has to make an `AIRequest` here too, outside the generator. -/
theorem countedOnce_chatStream_iff {uuid4 : ℕ → PyStr} {body : ChatRequest} :
    app.CountedOnce env s (.chatStream uuid4 body) ↔
      ∃ request, aiRequest uuid4 true body = .ok request := by
  have htrace : (app.handle (.chatStream uuid4 body)).trace env.handle s =
      (chatStream uuid4 body).trace env.handle s := Coro.trace_bind_ret _ _ _ _
  rw [CountedOnce, produced, htrace]
  constructor
  · intro hcounts
    cases hrequest : aiRequest uuid4 true body with
    | ok request => exact ⟨request, rfl⟩
    | error e =>
      rw [chatStream, hrequest] at hcounts
      exact absurd hcounts (List.cons_ne_nil _ _).symm
  · rintro ⟨request, hrequest⟩
    rw [counts_trace_chatStream hrequest, streamed_trace_chatStream hrequest]
    rfl

/-- The case `agentRun`: there is nothing before its `try`, and `Countable` asks what
`countedOnce_iff` asks of the run. -/
theorem countedOnce_agentRun_iff {body : AgentRunRequest} :
    app.CountedOnce env s (.agentRun body) ↔ app.Countable env s (.agentRun body) := by
  have htrace : (app.handle (.agentRun body)).trace env.handle s =
      (agentRun app body).trace env.handle s := Coro.trace_bind_ret _ _ _ _
  have hproduced : app.produced env s (.agentRun body) =
      ((agentRun app body).run env.handle s).1.isOk := Coro.isOk_run_bind_ret _ _ _ _
  rw [CountedOnce, htrace, hproduced, counts_trace_agentRun]
  refine singleton_status_eq_iff.trans ?_
  rw [Bool.eq_iff_iff, isOk_run_agentRun_iff, Countable]
  rcases hrun : (app.agent.runStepwise app.lim app.loads body.task).run env.handle s with
    ⟨outcome, s'⟩
  cases outcome with
  | error e =>
    refine iff_of_true (iff_of_false Bool.false_ne_true fun ⟨_, h, _⟩ => nomatch h) fun h => ?_
    exact absurd h Bool.false_ne_true
  | ok result =>
    -- the steps of the run are those of the responses
    have hsteps : (∀ step ∈ result.steps, ∀ call ∈ step.toolCalls, stringKeyed call = true) ↔
        ∀ response ∈ responses
          ((app.agent.runStepwise app.lim app.loads body.task).trace env.handle s),
          ∀ call ∈ AgentExecutor.callsOf app.loads response, stringKeyed call = true := by
      rw [← List.forall_mem_map (f := AgentStep.toolCalls)
        (P := fun calls => ∀ call ∈ calls, stringKeyed call = true),
        toolCalls_of_runStepwise hrun, List.forall_mem_map]
    simp only [Except.isOk_eq_true_iff, Except.exists_mapM_eq_ok_iff, exists_ofStep_iff, hsteps,
      Except.ok.injEq, exists_eq', exists_eq_left', true_iff, forall_const]

/-- A request is counted once, with the right status (`CountedOnce`), exactly if it is `Countable`:
the roles of a chat are those of `MessageRole`, so that its request is made before the `try`, and an
agent run that returns has had only tool calls that are dicts with string keys, so that its answer
can be validated after the increment. -/
theorem countedOnce_iff (app : Application) (env : Environment S) (s : S) (request : Request) :
    app.CountedOnce env s request ↔ app.Countable env s request := by
  cases request with
  | chat uuid4 body => exact countedOnce_chat_iff.trans (exists_aiRequest_iff uuid4 false body)
  | chatStream uuid4 body =>
    exact countedOnce_chatStream_iff.trans (exists_aiRequest_iff uuid4 true body)
  | agentRun body => exact countedOnce_agentRun_iff

/-- An environment in which the model gives one answer to everything, and streams nothing. -/
def answering (response : ModelResponse) : Environment Unit where
  handle
    | .response, s => (.ok response, s)
    | .stream _, s => (.ok [], s)
    | .gather _ _, s => (.ok fun _ => .ok .none, s)
    | .acquire, s | .release, s | .generate _, s | .streamEnd, s | .send _, s | .count _ _, s
    | .countIterations _, s => (.ok (), s)
  possible op _ := by cases op <;> first | exact trivial | rfl

/-- An application without tools, whose agent runs have one iteration. -/
def bare : Application where
  agent := ⟨.empty, 1⟩
  lim := .thousand
  loads _ := .ok .none
  invalid _ := .of (.other "ValidationError".toList) "Input should be a valid dictionary".toList

/-- A chat in a role that does not exist. -/
def robotChat : ChatRequest where
  messages := [{ role := "robot".toList, content := "hi".toList }]
  messages_ne_nil := List.cons_ne_nil _ _

/-- A response with a tool call that has a key which is no string. -/
def oddCall : ModelResponse where
  content := "".toList
  modelName := "agent".toList
  inputTokens := 1
  outputTokens := 1
  metadata := [(.str "tool_calls".toList, .list [.dict [(.str "name".toList, .str "x".toList),
    (.str "arguments".toList, .dict []), (.int 1, .none)]])]

/-- A chat in an unknown role is not counted, since `MessageRole` raises before the `try`; and an
agent run whose response cannot be validated is counted as a success, since the increment comes
first. -/
theorem robotChat_not_countedOnce :
    ¬bare.CountedOnce (answering oddCall) () (.chat (fun _ => []) robotChat) ∧
      ¬bare.CountedOnce (answering oddCall) () (.agentRun { task := "hi".toList }) := by
  constructor
  · intro hcounts
    exact absurd hcounts (List.cons_ne_nil _ _).symm
  · unfold CountedOnce
    decide +kernel

end Application
