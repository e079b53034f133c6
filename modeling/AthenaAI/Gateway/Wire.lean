import AthenaAI.Gateway.Counting

/-!
# What goes over the wire

The body of `/v1/chat/stream`, whatever the model does.

* `sent` is the body in a run of the handler, `tokens` and `failures` are what the model has done in
  it. `messages` is what the client is to be told.
* `sent_chatStream`: the body are the tokens, then the exception if the model has raised one, and
  `[DONE]` at the end.
* `received_messages_iff`: a client of Server-Sent Events receives that, one event a message, if and
  only if each is on one line. The request counts as an error exactly if an exception is among them.
-/

namespace Gateway

/-- The parts of the response body. -/
def sent (trace : List AppOp.Performed) : List PyStr :=
  trace.filterMap fun
    | ⟨.send chunk, _⟩ => some chunk
    | _ => none

/-- The tokens that the model has streamed. -/
def tokens (trace : List AppOp.Performed) : List PyStr :=
  trace.flatMap fun
    | ⟨.stream _, .ok tokens⟩ => tokens
    | _ => []

/-- What the model has raised. -/
def failures (trace : List AppOp.Performed) : List PyExc :=
  trace.filterMap fun
    | ⟨.stream _, .error e⟩ | ⟨.streamEnd, .error e⟩ => some e
    | _ => none

/-- The message about an exception, if there is a text for it. -/
def errorMessage (e : PyExc) : Option PyStr := e.text.map ("[ERROR] ".toList ++ ·)

/-- What the client is to be told. -/
def messages (trace : List AppOp.Performed) : List PyStr :=
  tokens trace ++ (failures trace).filterMap errorMessage ++ ["[DONE]".toList]

/-- The chunks sent in two stretches of a run, one after the other; so `tokens` and `failures`
below. -/
@[simp]
theorem sent_append (before after : List AppOp.Performed) :
    sent (before ++ after) = sent before ++ sent after := List.filterMap_append

@[simp]
theorem tokens_append (before after : List AppOp.Performed) :
    tokens (before ++ after) = tokens before ++ tokens after := List.flatMap_append

@[simp]
theorem failures_append (before after : List AppOp.Performed) :
    failures (before ++ after) = failures before ++ failures after := List.filterMap_append

variable {S : Type} {uuid4 : ℕ → PyStr} {body : ChatRequest}
  {request : AIRequest}

/-! ## The trace of a stream -/

/-- An operation that does not raise in any environment is performed once, and the run goes on with
its answer. -/
theorem exists_trace_perform (env : Environment S) (op : AppOp)
    (hop : ∀ r, Possible op r → r.isOk = true) (s : S) :
    ∃ a s', (App.perform op).run env.handle s = (.ok a, s') ∧
      (App.perform op).trace env.handle s = [⟨op, .ok a⟩] := by
  obtain ⟨a, hok⟩ := Except.isOk_eq_true_iff.mp (hop _ (env.possible op s))
  refine ⟨a, _, by rw [App.perform, Coro.run_perform, ← hok], ?_⟩
  rw [App.perform, Coro.trace_perform, hok]

/-- The tokens, sent. -/
def sending (tokens : List PyStr) : List AppOp.Performed :=
  tokens.map fun token => ⟨.send (dataChunk token), .ok ()⟩

/-- The generator yields the tokens in order, and no `yield` fails: the trace is exactly `sending
tokens`. -/
theorem exists_trace_forM_sendToken (env : Environment S) (tokens : List PyStr) (s : S) :
    ∃ s', Coro.run env.handle (List.forM tokens sendToken) s = (.ok (), s') ∧
      Coro.trace env.handle (List.forM tokens sendToken) s = sending tokens := by
  induction tokens generalizing s with
  | nil => exact ⟨s, rfl, rfl⟩
  | cons token tokens ih =>
    obtain ⟨_, s', hsend, htrace⟩ :=
      exists_trace_perform env (.send (dataChunk token)) (fun _ => id) s
    obtain ⟨s'', hrest, htraceRest⟩ := ih s'
    refine ⟨s'', (Coro.run_bind_of_ok _ hsend _).trans hrest, ?_⟩
    refine (Coro.trace_bind_of_ok _ hsend _).trans ?_
    rw [htrace, htraceRest]
    rfl

/-- What a model call of a stream comes to. -/
inductive Streaming (request : ModelRequest) : List AppOp.Performed → Except PyExc Unit → Prop
  /-- It raises before there is a token. -/
  | raised (e : PyExc) : Streaming request [⟨.stream request, .error e⟩] (.error e)
  /-- There are tokens, and it may raise behind them. -/
  | streamed (tokens : List PyStr) (r : Except PyExc Unit) :
    Streaming request (⟨.stream request, .ok tokens⟩ :: sending tokens ++ [⟨.streamEnd, r⟩]) r

/-- The model call of a stream. -/
def callStream (request : ModelRequest) : App Unit := do
  let tokens ← App.perform (.stream request)
  List.forM tokens sendToken
  App.perform .streamEnd

/-- A call of `callStream`, whatever the model does meanwhile, is `Streaming`: the tokens it has
received are the tokens it has yielded, and the failure, if there is one, comes last. -/
theorem streaming_callStream (env : Environment S) (request : ModelRequest) (s : S) :
    Streaming request ((callStream request).trace env.handle s)
      ((callStream request).run env.handle s).1 := by
  have hbegin : (App.perform (.stream request)).trace env.handle s =
      [⟨.stream request, ((App.perform (.stream request)).run env.handle s).1⟩] := by
    rw [App.perform, Coro.trace_perform, Coro.run_perform]
  unfold callStream
  rcases hstream : (App.perform (.stream request)).run env.handle s with ⟨outcome, s'⟩
  rw [hstream] at hbegin
  cases outcome with
  | error e =>
    rw [Coro.trace_bind_of_error _ hstream, Coro.run_bind_of_error _ hstream, hbegin]
    exact .raised e
  | ok tokens =>
    obtain ⟨s'', htokens, htrace⟩ := exists_trace_forM_sendToken env tokens s'
    rw [Coro.trace_bind_of_ok _ hstream, Coro.run_bind_of_ok _ hstream,
      Coro.trace_bind_of_ok _ htokens, Coro.run_bind_of_ok _ htokens, hbegin, htrace, App.perform,
      Coro.trace_perform, Coro.run_perform]
    exact .streamed tokens _

/-- What is performed within the semaphore: `acquire`, what the body performs, and `release`,
whether the body has raised or not. -/
theorem exists_trace_withSemaphore {α : Type} (env : Environment S) (body : App α) (s : S) :
    ∃ s₁, (App.withSemaphore body).trace env.handle s =
        [⟨.acquire, .ok ()⟩] ++ body.trace env.handle s₁ ++ [⟨.release, .ok ()⟩] ∧
      ((App.withSemaphore body).run env.handle s).1 = (body.run env.handle s₁).1 := by
  obtain ⟨_, s₁, hacquire, htrace⟩ := exists_trace_perform env .acquire (fun _ => id) s
  obtain ⟨_, s₂, hrelease, htraceRelease⟩ :=
    exists_trace_perform env .release (fun _ => id) (body.run env.handle s₁).2
  refine ⟨s₁, ?_, ?_⟩
  · unfold App.withSemaphore
    rw [Coro.trace_bind_of_ok _ hacquire, Coro.trace_attempt_bind, htrace,
      Coro.trace_bind_of_ok _ hrelease, htraceRelease, Coro.trace_ofExcept, List.append_nil,
      List.append_assoc]
  · unfold App.withSemaphore
    rw [Coro.run_bind_of_ok _ hacquire, Coro.run_attempt_bind, Coro.run_bind_of_ok _ hrelease,
      Coro.run_ofExcept]

/-- What `AthenaRuntime.stream` performs: a model call that is `Streaming`, within the semaphore. -/
theorem exists_streaming (env : Environment S) (request : AIRequest) (s : S) :
    ∃ trace, Streaming (AthenaRuntime.modelRequest request) trace
        ((AthenaRuntime.stream request sendToken).run env.handle s).1 ∧
      (AthenaRuntime.stream request sendToken).trace env.handle s =
        [⟨.acquire, .ok ()⟩] ++ trace ++ [⟨.release, .ok ()⟩] := by
  obtain ⟨s₁, htrace, hrun⟩ := exists_trace_withSemaphore env
    (callStream (AthenaRuntime.modelRequest request)) s
  exact ⟨_, hrun ▸ streaming_callStream env _ s₁, htrace⟩

/-- What the `except` of a stream sends. -/
def excepted : Except PyExc Unit → List AppOp.Performed
  | .ok _ => [⟨.count "/v1/chat/stream".toList "success".toList, .ok ()⟩]
  | .error e => [⟨.count "/v1/chat/stream".toList "error".toList, .ok ()⟩] ++
    sending (errorMessage e).toList

/-- The generator of the route is `AthenaRuntime.stream` with its tokens sent, and behind it what
the `try … except … else` sends. -/
theorem trace_streamTokens (env : Environment S) (request : AIRequest) (s : S) :
    (streamTokens request).trace env.handle s =
      (AthenaRuntime.stream request sendToken).trace env.handle s ++
        excepted ((AthenaRuntime.stream request sendToken).run env.handle s).1 := by
  unfold streamTokens
  rw [Coro.trace_attempt_bind]
  rcases hrun : (AthenaRuntime.stream request sendToken).run env.handle s with ⟨outcome, s'⟩
  cases outcome with
  | ok _ =>
    obtain ⟨_, s'', hcount, htrace⟩ := exists_trace_perform env
      (.count "/v1/chat/stream".toList "success".toList) (fun _ => id) s'
    rw [Coro.trace_bind_of_ok _ hrun, Coro.run_bind_of_ok _ hrun, countSuccess, hcount, htrace]
    exact List.append_nil _
  | error e =>
    obtain ⟨_, s'', hcount, htrace⟩ := exists_trace_perform env
      (.count "/v1/chat/stream".toList "error".toList) (fun _ => id) s'
    rw [Coro.trace_bind_of_error _ hrun, Coro.run_bind_of_error _ hrun]
    refine congrArg _ ?_
    show Coro.trace _ (countError _ >>= _) _ = _
    rw [countError, Coro.trace_bind_of_ok _ hcount, htrace]
    refine congrArg _ ?_
    unfold errorMessage PyExc.str
    cases e.text with
    | none => rfl
    | some text =>
      obtain ⟨_, _, hsend, htrace⟩ := exists_trace_perform env
        (.send (dataChunk ("[ERROR] ".toList ++ text))) (fun _ => id) s''
      exact htrace

/-- What a stream performs from its request on: what the runtime performs, what the `except` or the
`else` behind it does (`excepted`), and the sending of `[DONE]`. -/
theorem trace_chatStream (env : Environment S)
    (hrequest : aiRequest uuid4 true body = .ok request) (s : S) :
    (chatStream uuid4 body).trace env.handle s =
      (AthenaRuntime.stream request sendToken).trace env.handle s ++
        excepted ((AthenaRuntime.stream request sendToken).run env.handle s).1 ++
        [⟨.send (dataChunk "[DONE]".toList), .ok ()⟩] := by
  unfold chatStream eventStream
  rw [hrequest, Coro.ofExcept, Coro.ret_bind, Coro.trace_attempt_bind, trace_streamTokens]
  obtain ⟨_, s', hsend, htrace⟩ := exists_trace_perform env
    (.send (dataChunk "[DONE]".toList)) (fun _ => id) ((streamTokens request).run env.handle s).2
  rw [Coro.trace_bind_of_ok _ hsend, htrace, Coro.trace_ofExcept, List.append_nil]

/-! ## The body -/

theorem sent_sending (said : List PyStr) : sent (sending said) = said.map dataChunk := by
  unfold sent sending
  rw [List.filterMap_map, ← List.filterMap_eq_map]
  rfl

theorem tokens_sending (said : List PyStr) : tokens (sending said) = [] := by
  unfold tokens sending
  rw [List.flatMap_map]
  exact List.flatMap_eq_nil_iff.mpr fun _ _ => rfl

theorem failures_sending (said : List PyStr) : failures (sending said) = [] := by
  unfold failures sending
  rw [List.filterMap_map]
  exact List.filterMap_eq_nil_iff.mpr fun _ _ => rfl

/-- The tokens of a model call. -/
theorem tokens_streamed (call : ModelRequest) (said : List PyStr) (r : Except PyExc Unit) :
    tokens (⟨.stream call, .ok said⟩ :: sending said ++ [⟨.streamEnd, r⟩]) = said := by
  rw [tokens_append, ← List.singleton_append, tokens_append, tokens_sending, List.append_nil]
  exact (List.append_nil _).trans (List.append_nil said)

/-- What is sent in a model call that is `Streaming` are its tokens, and its failure is the
exception it ends with, if any. -/
theorem Streaming.spec {call : ModelRequest} {trace : List AppOp.Performed}
    {r : Except PyExc Unit} (h : Streaming call trace r) :
    sent trace = (tokens trace).map dataChunk ∧ failures trace = r.error?.toList := by
  cases h with
  | raised e => exact ⟨rfl, rfl⟩
  | streamed said r =>
    rw [tokens_streamed, sent_append, ← List.singleton_append, sent_append, failures_append,
      failures_append, sent_sending, failures_sending]
    cases r with
    | ok _ => exact ⟨List.append_nil _, rfl⟩
    | error e => exact ⟨List.append_nil _, rfl⟩

/-- What the `except` sends is the message of the exception, if there is one; it has no tokens and
no failures of the model. -/
theorem spec_excepted (r : Except PyExc Unit) :
    sent (excepted r) = (r.error?.toList.filterMap errorMessage).map dataChunk ∧
      tokens (excepted r) = [] ∧ failures (excepted r) = [] := by
  cases r with
  | ok _ => exact ⟨rfl, rfl, rfl⟩
  | error e =>
    unfold excepted Except.error?
    rw [sent_append, tokens_append, failures_append, sent_sending, tokens_sending,
      failures_sending, Option.toList_some, List.filterMap_cons, List.filterMap_nil]
    refine ⟨?_, rfl, rfl⟩
    cases errorMessage e with
    | none => rfl
    | some message => rfl

/-- The model call of a stream, and what the handler makes of its end: everything else in the trace
sends nothing and has no tokens and failures. -/
theorem exists_call (env : Environment S) (hrequest : aiRequest uuid4 true body = .ok request)
    (s : S) :
    ∃ call, Streaming (AthenaRuntime.modelRequest request) call
        ((AthenaRuntime.stream request sendToken).run env.handle s).1 ∧
      (∀ performed ∈ call, performed ∈ (chatStream uuid4 body).trace env.handle s) ∧
      tokens ((chatStream uuid4 body).trace env.handle s) = tokens call ∧
      failures ((chatStream uuid4 body).trace env.handle s) = failures call ∧
      sent ((chatStream uuid4 body).trace env.handle s) = sent call ++
        ((failures call).filterMap errorMessage).map dataChunk ++ [dataChunk "[DONE]".toList] := by
  obtain ⟨call, hcall, htrace⟩ := exists_streaming env request s
  obtain ⟨-, hfailures⟩ := hcall.spec
  obtain ⟨hsentAfter, htokensAfter, hfailuresAfter⟩ :=
    spec_excepted ((AthenaRuntime.stream request sendToken).run env.handle s).1
  rw [trace_chatStream env hrequest, htrace]
  refine ⟨call, hcall, fun performed hperformed => by simp [hperformed], ?_, ?_, ?_⟩
  · rw [tokens_append, tokens_append, tokens_append, tokens_append, htokensAfter, List.append_nil]
    exact (List.append_nil _).trans (List.append_nil _)
  · rw [failures_append, failures_append, failures_append, failures_append, hfailuresAfter,
      List.append_nil]
    exact (List.append_nil _).trans (List.append_nil _)
  · rw [sent_append, sent_append, sent_append, sent_append, hsentAfter, hfailures]
    exact congrArg (fun before => before ++ _ ++ _) (List.append_nil _)

/-- The body of a stream are its `messages`, each in a `dataChunk`: the tokens, the exception if
there is one, and `[DONE]`. -/
theorem sent_chatStream (env : Environment S)
    (hrequest : aiRequest uuid4 true body = .ok request) (s : S) :
    sent ((chatStream uuid4 body).trace env.handle s) =
        (messages ((chatStream uuid4 body).trace env.handle s)).map dataChunk ∧
      ((AthenaRuntime.stream request sendToken).run env.handle s).1.isOk =
        (failures ((chatStream uuid4 body).trace env.handle s)).isEmpty := by
  obtain ⟨call, hcall, -, htokens, hfailures, hsent⟩ := exists_call env hrequest s
  obtain ⟨hsentCall, hraised⟩ := hcall.spec
  refine ⟨?_, ?_⟩
  · rw [messages, hsent, hsentCall, htokens, hfailures, List.map_append, List.map_append,
      List.map_singleton]
  · rw [hfailures, hraised]
    cases ((AthenaRuntime.stream request sendToken).run env.handle s).1 with
    | ok _ => rfl
    | error e => rfl

/-- The body of a stream, whatever the model does: its tokens, then the exception if it has raised
one, then `[DONE]` (`messages`). A client receives these messages if and only if each of them is on
one line (`EventStream.OneLine`), and the request is counted as an error if and only if an exception
is among them (`failures`). -/
theorem received_messages_iff (env : Environment S) (s : S)
    (hrequest : aiRequest uuid4 true body = .ok request) :
    sent ((chatStream uuid4 body).trace env.handle s) =
        (messages ((chatStream uuid4 body).trace env.handle s)).map dataChunk ∧
      (EventStream.decodeBytes (bodyBytes (sent ((chatStream uuid4 body).trace env.handle s))) =
          some (messages ((chatStream uuid4 body).trace env.handle s)) ↔
        ∀ message ∈ messages ((chatStream uuid4 body).trace env.handle s),
          EventStream.OneLine message) ∧
      counts ((chatStream uuid4 body).trace env.handle s) =
        [("/v1/chat/stream".toList,
          if (failures ((chatStream uuid4 body).trace env.handle s)).isEmpty
            then "success".toList else "error".toList)] := by
  obtain ⟨hsent, hfailures⟩ := sent_chatStream env hrequest s
  refine ⟨hsent, ?_, ?_⟩
  · have hframes : (messages ((chatStream uuid4 body).trace env.handle s)).map dataChunk =
        (messages ((chatStream uuid4 body).trace env.handle s)).map EventStream.frame := rfl
    rw [hsent, hframes, bodyBytes_eq, ← List.flatMap_def, EventStream.decodeBytes_utf8Encode,
      Option.some_inj, EventStream.decode_flatMap_frame_iff]
  · rw [counts_trace_chatStream hrequest, hfailures]

/-- A model whose connection breaks off behind two tokens. -/
def brokenOff : Environment Unit where
  handle
    | .stream _, s => (.ok ["h".toList, "i".toList], s)
    | .streamEnd, s => (.error (.of .RuntimeError "connection lost".toList), s)
    | .response, s => (.error (.of .RuntimeError "connection lost".toList), s)
    | .gather _ _, s => (.ok fun _ => .ok .none, s)
    | .acquire, s | .release, s | .generate _, s | .send _, s | .count _ _, s
    | .countIterations _, s => (.ok (), s)
  possible op _ := by cases op <;> trivial

/-- `received_messages` for a model that breaks off after two tokens: the client receives them, the
error, and the end. -/
theorem received_messages_brokenOff :
    EventStream.decodeBytes (bodyBytes (sent
        ((chatStream (fun _ => []) (userSays "hi".toList)).trace brokenOff.handle ()))) =
      some ["h".toList, "i".toList, "[ERROR] connection lost".toList, "[DONE]".toList] := by
  have hmessages : messages
      ((chatStream (fun _ => []) (userSays "hi".toList)).trace brokenOff.handle ()) =
        ["h".toList, "i".toList, "[ERROR] connection lost".toList, "[DONE]".toList] := rfl
  obtain ⟨request, hrequest⟩ :
      ∃ request, aiRequest (fun _ => []) true (userSays "hi".toList) = .ok request := ⟨_, rfl⟩
  obtain ⟨-, hreceived, -⟩ := received_messages_iff brokenOff () hrequest
  rw [hmessages] at hreceived
  refine hreceived.mpr fun message hmessage => ?_
  have hall : ["h".toList, "i".toList, "[ERROR] connection lost".toList, "[DONE]".toList].all
      (fun message : PyStr => message.all fun c => !EventStream.isLineEnd c) = true := by decide
  have hone := List.all_eq_true.mp hall message hmessage
  exact fun c hc => (Bool.not_eq_true' _).mp (List.all_eq_true.mp hone c hc)

end Gateway
