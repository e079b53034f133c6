import AthenaAI.Gateway.Wire

/-!
# A chat and its stream

The two endpoints of a chat over the model that the gateway has by default.

* `echoing` is an environment with that model, in which nothing fails and nobody goes away.
* `run_chat_echoing` and `messages_chatStream_echoing` are what the handlers do there, the one with
  `MockModel.generate` and the other with `MockModel.stream`; `received_echoing` is what a client
  makes of the stream.
* `chat_agrees`: a body that one of the endpoints rejects is rejected by the other one with the same
  exception. Otherwise a client of the stream receives the content of the response, one character an
  event, without its line ends.
-/

namespace Gateway

/-- A mock model. The state is the request of the last model call. -/
def echoing (model : MockModel) : Environment ModelRequest where
  handle
    | .generate request, _ => (.ok (), request)
    | .response, request => (.ok (model.generate request), request)
    | .stream request, last => (.ok (model.stream request), last)
    -- a chat has no tools
    | .gather _ _, last => (.ok fun _ => .ok .none, last)
    | .acquire, last | .release, last | .streamEnd, last | .send _, last | .count _ _, last
    | .countIterations _, last => (.ok (), last)
  possible op _ := by cases op <;> trivial

variable {S : Type} {model : MockModel} {uuid4 uuid4' : ℕ → PyStr} {body : ChatRequest}
  {request : AIRequest}

/-- What the model is asked (`AthenaRuntime.modelRequest`) depends on the body of the chat alone,
not on the endpoint or on the drawn identifiers; nor does whether it is asked at all. -/
theorem modelRequest_aiRequest (uuid4 uuid4' : ℕ → PyStr) (stream stream' : Bool)
    (body : ChatRequest) :
    (aiRequest uuid4 stream body).map AthenaRuntime.modelRequest =
      (aiRequest uuid4' stream' body).map AthenaRuntime.modelRequest := by
  unfold aiRequest
  cases body.messages.mapM message with
  | error e => rfl
  | ok turns =>
    show Except.map _ (AIRequest.checked turns >>= _) = Except.map _ (AIRequest.checked turns >>= _)
    cases AIRequest.checked turns with
    | error e => rfl
    | ok checked => rfl

/-- In the environment `echoing`, a chat whose request is built is answered with the echo of its
last message of the user. -/
theorem run_chat_echoing (model : MockModel) (hrequest : aiRequest uuid4 false body = .ok request)
    (s : ModelRequest) :
    ∃ response, ((chat uuid4 body).run (echoing model).handle s).1 = .ok response ∧
      response.content = (model.generate (AthenaRuntime.modelRequest request)).content := by
  unfold chat
  rw [hrequest]
  exact ⟨_, rfl, rfl⟩

/-! ## The messages of a stream -/

/-- In the environment `echoing`, the messages of a stream are the characters of the echo and
`[DONE]`. -/
theorem messages_chatStream_echoing (hrequest : aiRequest uuid4 true body = .ok request)
    (s : ModelRequest) :
    messages ((chatStream uuid4 body).trace (echoing model).handle s) =
      model.stream (AthenaRuntime.modelRequest request) ++ ["[DONE]".toList] := by
  obtain ⟨call, hcall, hsub, htokens, hfailures, -⟩ := exists_call (echoing model) hrequest s
  rw [messages, htokens, hfailures]
  -- all that is performed is answered by the model
  have hanswered (performed) (hperformed : performed ∈ call) :
      ∃ s', performed.2 = ((echoing model).handle performed.1 s').1 :=
    Coro.exists_of_mem_trace _ (hsub performed hperformed)
  obtain ⟨-, hraised⟩ := hcall.spec
  rw [hraised]
  generalize ((AthenaRuntime.stream request sendToken).run (echoing model).handle s).1 = r
    at hcall ⊢
  cases hcall with
  | raised e =>
    obtain ⟨s', hs'⟩ := hanswered _ (List.mem_singleton_self _)
    cases hs'
  | streamed said r =>
    obtain ⟨_, hsaid⟩ := hanswered _ List.mem_cons_self
    obtain ⟨_, hend⟩ := hanswered ⟨.streamEnd, r⟩ (by simp)
    obtain rfl : r = .ok () := hend
    rw [tokens_streamed, Except.ok.inj hsaid]
    exact congrArg (· ++ ["[DONE]".toList]) (List.append_nil _)

/-- A client of the stream receives the characters of the echo, and an empty event for each line
end: a line end in the data begins another line, which is no field. -/
theorem received_echoing (hrequest : aiRequest uuid4 true body = .ok request) (s : ModelRequest) :
    EventStream.decodeBytes (bodyBytes (sent
        ((chatStream uuid4 body).trace (echoing model).handle s))) =
      some ((model.generate (AthenaRuntime.modelRequest request)).content.map
        (fun c => if EventStream.isLineEnd c then [] else [c]) ++ ["[DONE]".toList]) := by
  have hframes (ds : List PyStr) : ds.map dataChunk = ds.map EventStream.frame := rfl
  have hdone : EventStream.decode (EventStream.frame "[DONE]".toList) = ["[DONE]".toList] :=
    EventStream.decode_frame_of_oneLine (by decide)
  rw [(sent_chatStream (echoing model) hrequest s).1, messages_chatStream_echoing hrequest, hframes,
    bodyBytes_eq, ← List.flatMap_def, EventStream.decodeBytes_utf8Encode,
    EventStream.decode_flatMap_frame, List.flatMap_append, List.flatMap_singleton, hdone]
  unfold MockModel.stream
  rw [List.flatMap_map]
  simp only [EventStream.decode_frame_singleton]
  rw [← List.map_eq_flatMap]

/-- The two endpoints of a chat, over a mock model: a body that `chat` rejects is rejected by
`chatStream`, with the same exception and before anything is sent. Otherwise a client that decodes
the stream receives the content of the response, a character an event, with an empty event for each
line end, and `[DONE]`. -/
theorem chat_agrees (model : MockModel) (uuid4 uuid4' : ℕ → PyStr) (body : ChatRequest)
    (s s' : ModelRequest) :
    (∀ e, ((chat uuid4 body).run (echoing model).handle s).1 = .error e →
      ((chatStream uuid4' body).run (echoing model).handle s').1 = .error e ∧
        sent ((chatStream uuid4' body).trace (echoing model).handle s') = []) ∧
    ∀ response, ((chat uuid4 body).run (echoing model).handle s).1 = .ok response →
      EventStream.decodeBytes (bodyBytes (sent
          ((chatStream uuid4' body).trace (echoing model).handle s'))) =
        some (response.content.map (fun c => if EventStream.isLineEnd c then [] else [c]) ++
          ["[DONE]".toList]) := by
  have hsame := modelRequest_aiRequest uuid4 uuid4' false true body
  cases hrequest : aiRequest uuid4 false body with
  | error e =>
    have hchat : (chat uuid4 body).run (echoing model).handle s = (.error e, s) := by
      unfold chat
      rw [hrequest]
      rfl
    rw [hrequest] at hsame
    obtain ⟨e', hrequest'⟩ : ∃ e', aiRequest uuid4' true body = .error e' := by
      cases hrequest' : aiRequest uuid4' true body with
      | error e' => exact ⟨e', rfl⟩
      | ok request =>
        rw [hrequest'] at hsame
        exact nomatch hsame
    rw [hrequest'] at hsame
    obtain rfl : e = e' := Except.error.inj hsame
    unfold chatStream
    rw [hchat, hrequest']
    refine ⟨fun e'' he => ?_, fun response hresponse => nomatch hresponse⟩
    obtain rfl := Except.error.inj he
    exact ⟨rfl, rfl⟩
  | ok request =>
    obtain ⟨response, hchat, hcontent⟩ := run_chat_echoing model hrequest s
    rw [hrequest] at hsame
    obtain ⟨request', hrequest'⟩ : ∃ request', aiRequest uuid4' true body = .ok request' := by
      cases hrequest' : aiRequest uuid4' true body with
      | error e' =>
        rw [hrequest'] at hsame
        exact nomatch hsame
      | ok request' => exact ⟨request', rfl⟩
    rw [hrequest'] at hsame
    have hcall : AthenaRuntime.modelRequest request = AthenaRuntime.modelRequest request' :=
      Except.ok.inj hsame
    rw [hchat]
    refine ⟨fun e he => (nomatch he), fun response' hresponse => ?_⟩
    rw [received_echoing hrequest', ← hcall, ← hcontent, Except.ok.inj hresponse]

/-- A chat of one message by nobody that there is. -/
def robotSays (content : PyStr) : ChatRequest where
  messages := [{ role := "robot".toList, content }]
  messages_ne_nil := List.cons_ne_nil _ _

/-- `chat_agrees` for two bodies: the unknown role makes both routes raise, and the text of a user
is echoed by both. -/
theorem chat_agrees_hi :
    (∃ e, ((chatStream (fun _ => []) (robotSays "hi".toList)).run (echoing {}).handle
        ⟨[], [], 0, [], [], []⟩).1 = .error e ∧
      sent ((chatStream (fun _ => []) (robotSays "hi".toList)).trace (echoing {}).handle
        ⟨[], [], 0, [], [], []⟩) = []) ∧
    EventStream.decodeBytes (bodyBytes (sent
        ((chatStream (fun _ => []) (userSays "hi".toList)).trace (echoing {}).handle
          ⟨[], [], 0, [], [], []⟩))) =
      some ("[mock] Echo: hi".toList.map (fun c => if EventStream.isLineEnd c then [] else [c]) ++
        ["[DONE]".toList]) :=
  ⟨⟨_, (chat_agrees {} (fun _ => []) (fun _ => []) (robotSays "hi".toList)
      ⟨[], [], 0, [], [], []⟩ ⟨[], [], 0, [], [], []⟩).1 _ rfl⟩,
    (chat_agrees {} (fun _ => []) (fun _ => []) (userSays "hi".toList)
      ⟨[], [], 0, [], [], []⟩ ⟨[], [], 0, [], [], []⟩).2 _ rfl⟩

end Gateway
