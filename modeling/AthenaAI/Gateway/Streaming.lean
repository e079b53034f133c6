import AthenaAI.Gateway.Routes
import AthenaAI.Models.Base
import AthenaAI.ToMathlib.EventStream

/-!
# What a client of the event stream receives

The body of `/v1/chat/stream`, read by a client of Server-Sent Events.

* `streaming` is an environment in which a model streams some tokens without an error;
  `bodyChunks` are the parts of the response body then, and `received` is what the client makes of
  their bytes.
* `received_eq_iff`: the client receives the tokens, one an event, and `[DONE]` behind them, exactly
  if no token has a CR or LF in it.
* `echoedNewline_not_received`: the mock model streams the characters of its echo, and so a line end
  as a token of its own.
-/

namespace Gateway

/-- An environment in which the model streams some tokens. The state are the parts of the response
body so far. -/
def streaming (tokens : List PyStr) : Handler AppOp AppOp.Resp PyExc (List PyStr)
  | .stream _, sent => (.ok tokens, sent)
  | .send chunk, sent => (.ok (), sent ++ [chunk])
  -- the handler of a stream awaits neither a response nor tools
  | .response, sent => (.error (.of .RuntimeError "no call".toList), sent)
  | .gather _ _, sent => (.error (.of .RuntimeError "no tools".toList), sent)
  | .acquire, sent | .release, sent | .generate _, sent | .streamEnd, sent | .count _ _, sent
  | .countIterations _, sent => (.ok (), sent)

/-- The parts of the response body. -/
def bodyChunks (uuid4 : ℕ → PyStr) (body : ChatRequest) (tokens : List PyStr) : List PyStr :=
  ((chatStream uuid4 body).run (streaming tokens) []).2

/-- The bytes of a response body. -/
def bodyBytes (chunks : List PyStr) : ByteArray :=
  chunks.foldl (fun bytes chunk => bytes ++ (String.ofList chunk).toByteArray) ByteArray.empty

/-- The data of the events that the client receives. -/
def received (uuid4 : ℕ → PyStr) (body : ChatRequest) (tokens : List PyStr) :
    Option (List PyStr) :=
  EventStream.decodeBytes (bodyBytes (bodyChunks uuid4 body tokens))

variable {uuid4 : ℕ → PyStr} {body : ChatRequest} {request : AIRequest} {tokens : List PyStr}

/-! ## The response body -/

/-- The bytes of the parts are those of their text. -/
theorem bodyBytes_eq (chunks : List PyStr) : bodyBytes chunks = chunks.flatten.utf8Encode := by
  have hfoldl (bytes : ByteArray) :
      chunks.foldl (fun bytes chunk => bytes ++ (String.ofList chunk).toByteArray) bytes =
        bytes ++ chunks.flatten.utf8Encode := by
    induction chunks generalizing bytes with
    | nil => simp
    | cons chunk chunks ih =>
      rw [List.foldl_cons, ih, String.toByteArray_ofList, List.flatten_cons,
        List.utf8Encode_append, ByteArray.append_assoc]
  rw [bodyBytes, hfoldl, ByteArray.empty_append]

/-- What the handler does with a token. -/
abbrev sendToken (token : PyStr) : App Unit := App.perform (.send (dataChunk token))

/-- In the environment `streaming`, the tokens are sent as they come, a `dataChunk` for each. -/
theorem run_forM_sendToken (tokens' sent : List PyStr) :
    Coro.run (streaming tokens) (List.forM tokens' sendToken) sent =
      (.ok (), sent ++ tokens'.map dataChunk) := by
  induction tokens' generalizing sent with
  | nil =>
    rw [List.map_nil, List.append_nil]
    rfl
  | cons token tokens' ih =>
    show Coro.run _ (List.forM tokens' sendToken) (sent ++ [dataChunk token]) = _
    rw [ih, List.append_assoc]
    rfl

/-- The runtime passes the tokens of the model on, and nothing else. -/
theorem run_stream (request : AIRequest) (sent : List PyStr) :
    (AthenaRuntime.stream request sendToken).run (streaming tokens) sent =
      (.ok (), sent ++ tokens.map dataChunk) := by
  have hbody : (do
      let tokens ← App.perform (.stream (AthenaRuntime.modelRequest request))
      List.forM tokens sendToken
      App.perform .streamEnd : App Unit).run (streaming tokens) sent =
        (.ok (), sent ++ tokens.map dataChunk) := by
    show Coro.run _ (List.forM tokens sendToken >>= fun _ => App.perform .streamEnd) sent = _
    rw [Coro.run_bind_of_ok _ (run_forM_sendToken tokens sent), Coro.run_perform]
    rfl
  unfold AthenaRuntime.stream App.withSemaphore
  show Coro.run _ (Coro.attempt _ >>= _) sent = _
  rw [Coro.run_attempt_bind, hbody]
  rfl

/-- The response body of a stream whose request is built: a `dataChunk` for each token, and one for
`[DONE]`. -/
theorem bodyChunks_eq (hrequest : aiRequest uuid4 true body = .ok request) :
    bodyChunks uuid4 body tokens = tokens.map dataChunk ++ [dataChunk "[DONE]".toList] := by
  have htry : Coro.run (streaming tokens) (do
      AthenaRuntime.stream request sendToken
      countSuccess "/v1/chat/stream".toList) [] = (.ok (), tokens.map dataChunk) := by
    rw [Coro.run_bind_of_ok _ (run_stream request [])]
    rfl
  have htokens : (streamTokens request).run (streaming tokens) [] =
      (.ok (), tokens.map dataChunk) := by
    unfold streamTokens
    rw [Coro.run_attempt_bind, htry]
    rfl
  unfold bodyChunks chatStream eventStream
  rw [hrequest, Coro.run_bind_of_ok _ (Coro.run_ofExcept _ _ _),
    Coro.run_attempt_bind, htokens]
  rfl

/-! ## The events -/

/-- The client, which decodes the body of the stream as server-sent events (`received`), receives
the tokens, one an event, and `[DONE]` behind them, exactly if every token is on one line
(`EventStream.OneLine`). The route writes a token behind `data:` as it stands, so a line break ends
the event, or the field, within it. -/
theorem received_eq_iff (hrequest : aiRequest uuid4 true body = .ok request)
    (tokens : List PyStr) :
    received uuid4 body tokens = some (tokens ++ ["[DONE]".toList]) ↔
      ∀ token ∈ tokens, EventStream.OneLine token := by
  have hchunks : bodyChunks uuid4 body tokens =
      (tokens ++ ["[DONE]".toList]).map EventStream.frame := by
    rw [bodyChunks_eq hrequest, List.map_append]
    rfl
  have hdone : EventStream.OneLine "[DONE]".toList := by decide
  rw [received, hchunks, bodyBytes_eq, ← List.flatMap_def, EventStream.decodeBytes_utf8Encode,
    Option.some_inj, EventStream.decode_flatMap_frame_iff]
  exact ⟨fun h token htoken => h token (List.mem_append_left _ htoken), fun h token htoken =>
    (List.mem_append.mp htoken).elim (h token) fun hlast => List.mem_singleton.mp hlast ▸ hdone⟩

/-- A chat of one message by the user. -/
def userSays (content : PyStr) : ChatRequest where
  messages := [{ content }]
  messages_ne_nil := List.cons_ne_nil _ _

/-- `received_eq_iff` for two tokens without a line break: the client receives both of them and the
end of the stream. -/
theorem received_eq_iff_hi :
    received (fun _ => []) (userSays "hi".toList) ["h".toList, "i".toList] =
        some ["h".toList, "i".toList, "[DONE]".toList] ↔
      ∀ token ∈ ["h".toList, "i".toList], EventStream.OneLine token :=
  received_eq_iff rfl _

/-- The tokens that the mock model streams for a chat. -/
def echoed (body : ChatRequest) : List PyStr :=
  match aiRequest (fun _ => []) true body with
  | .ok request => MockModel.stream {} (AthenaRuntime.modelRequest request)
  | .error _ => []

/-- The mock model echoes a line end in a token of its own, and the client receives an event without
data for it: the line break ends the field `data`, and the token is gone. -/
theorem echoedNewline_not_received :
    received (fun _ => []) (userSays "a\nb".toList) (echoed (userSays "a\nb".toList)) ≠
      some (echoed (userSays "a\nb".toList) ++ ["[DONE]".toList]) := by
  rw [received, bodyChunks_eq rfl, bodyBytes_eq, EventStream.decodeBytes_utf8Encode]
  decide

end Gateway
