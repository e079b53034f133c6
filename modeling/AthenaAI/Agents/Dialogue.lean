import AthenaAI.Agents.Executor
import AthenaAI.Agents.TextProtocol
import AthenaAI.Python.JsonRoundTrip

/-!
# What the model and the tools tell each other

The texts in which the system prompt lists the tools, the model asks for them and the loop tells it
their results, read by the side that they are for.

* `prompt_lists_tools`: in the system prompt stands a JSON text of exactly the tools that can be
  called, each under its name.
* `Asks` says that a response has its calls as JSON texts, one on a line. `toolCalls_of_asks`: the
  loop finds exactly these calls in it.
* `Conveys` says that a message to the model gives a result back, and `conveys_of_record` that what
  the loop records of a call does so.
* `iteration_of_written`: a model that writes its calls as JSON texts, one on a line, has exactly
  these calls executed, and the messages that it is sent give back their results in the same order.
-/

namespace AgentExecutor

open Json (IsJson IsFloatRepr)

variable {executor : AgentExecutor} {lim : Json.Limits} {float : PyStr → PyStr} {loads : Loads}

/-! ## The system prompt -/

/-- What stands in front of the list of tools. -/
def beforeTools : PyStr :=
  "You are a helpful AI assistant with access to the following tools:\n\n".toList

/-- What stands behind the list of tools. -/
def afterTools : PyStr :=
  "\n\n".toList ++
    "To use a tool, include EXACTLY this format (one tool call per line):\n".toList ++
    "TOOL_CALL: \x7b\"name\": \"tool_name\", \"arguments\": \x7b...\x7d\x7d\n\n".toList ++
    "When you have computed the final answer, respond with plain text only ".toList ++
    "(no TOOL_CALL prefix). Execute multiple tools on separate lines when needed.".toList

/-- With tools, the prompt is the JSON text of their schemas, indented, between `beforeTools` and
`afterTools`; it is built exactly if `json.dumps` can write them. -/
theorem buildSystemPrompt_eq_ok_iff (htools : executor.registry.tools ≠ []) {system : PyStr} :
    executor.buildSystemPrompt lim = .ok system ↔
      ∃ toolsJson, Json.dumpsIndent lim 2 (.list (executor.registry.getSchemas.map .dict)) =
          .ok toolsJson ∧ system = beforeTools ++ toolsJson ++ afterTools := by
  have hschemas : ¬executor.registry.getSchemas.isEmpty := by
    simpa [ToolRegistry.getSchemas] using htools
  dsimp only [buildSystemPrompt]
  rw [if_neg hschemas, Except.bind_eq_ok_iff]
  refine exists_congr fun toolsJson => and_congr_right fun _ => ?_
  have hpieces {a x b c d e f : PyStr} :
      a ++ x ++ b ++ c ++ d ++ e ++ f = a ++ x ++ (b ++ c ++ d ++ e ++ f) := by
    simp only [List.append_assoc]
  rw [hpieces]
  exact ⟨fun h => (Except.ok.inj h).symm, fun h => congrArg Except.ok h.symm⟩

/-- The list of schemas is a JSON value if the input schemas are: names and descriptions are strings
anyway. -/
theorem isJson_schemas {tools : List Tool}
    (hjson : ∀ tool ∈ tools, IsJson (IsFloatRepr float) tool.inputSchema) :
    IsJson (IsFloatRepr float) (.list ((tools.map ToolRegistry.schemaOf).map .dict)) := by
  refine .list fun x hx => ?_
  obtain ⟨schema, hschema, rfl⟩ := List.mem_map.mp hx
  obtain ⟨tool, htool, rfl⟩ := List.mem_map.mp hschema
  refine .dict ?_ ?_ ?_
  · show [PyKey.str "name".toList, .str "description".toList, .str "input_schema".toList].Nodup
    decide
  · simp [ToolRegistry.schemaOf]
  · simp only [ToolRegistry.schemaOf, List.forall_mem_cons]
    exact ⟨.str _, .str _, hjson tool htool, List.forall_mem_nil _⟩

/-- In the system prompt of an executor with tools stands a JSON text of their schemas, which have
to be JSON values themselves. A name is in this list exactly if a call of it finds a tool, and then
it stands there once, with the schema of this tool; what `get` finds and what the model is told are
the same. -/
theorem prompt_lists_tools {system : PyStr} (float : PyStr → PyStr)
    (htools : executor.registry.tools ≠ [])
    (hjson : ∀ tool ∈ executor.registry.tools, IsJson (IsFloatRepr float) tool.inputSchema)
    (h : executor.buildSystemPrompt lim = .ok system) :
    ∃ (toolsJson : PyStr) (listed : List Tool), system = beforeTools ++ toolsJson ++ afterTools ∧
      Json.decode float toolsJson =
        some (.list ((listed.map ToolRegistry.schemaOf).map .dict)) ∧
      (listed.map Tool.name).Nodup ∧
      ∀ name tool, executor.registry.get (.str name) = .ok tool ↔
        tool ∈ listed ∧ tool.name = name := by
  obtain ⟨toolsJson, hdumps, rfl⟩ := (buildSystemPrompt_eq_ok_iff htools).mp h
  refine ⟨toolsJson, executor.registry.tools, rfl, ?_, executor.registry.nodup,
    fun name tool => ToolRegistry.get_eq_ok_iff⟩
  exact Json.decode_of_encode (isJson_schemas hjson) hdumps

/-! ## A response with calls -/

/-- The response asks for the calls: they are values that JSON has, and `json.dumps` has written
each of them, on a line of its own. -/
structure Asks (float : PyStr → PyStr) (lim : Json.Limits) (response : ModelResponse)
    (calls : List PyValue) : Prop where
  /-- The metadata lists no calls. -/
  metadata : metadataCalls response = .ok []
  /-- The text is made of the calls. -/
  text : ∃ texts, List.Forall₂ (fun call text => (IsJson (IsFloatRepr float) call ∧ isCall call) ∧
        Json.dumps lim call = .ok text) calls texts ∧
    response.content = PyStr.join ['\n'] (texts.map fun text => toolCallPrefix ++ ' ' :: text)

/-- The line of a call that `json.dumps` has written. -/
def callLine {call : PyValue} {text : PyStr}
    (hcall : IsJson (IsFloatRepr float) call ∧ isCall call) (h : Json.dumps lim call = .ok text) :
    CallLine float where
  call := call
  json := text
  decodes := Json.decode_dumps hcall.1 h
  isCall := hcall.2
  noLineFeed hmem := absurd (Json.plain_dumps hcall.1 h _ hmem) (by decide)
  noCarriageReturn hmem := absurd (Json.plain_dumps hcall.1 h _ hmem) (by decide)

/-- What `json.dumps` has written is on one line: it escapes every character at which
`str.splitlines` ends one, so the line of the call is `Unbroken`. -/
theorem unbroken_callLine {call : PyValue} {text : PyStr}
    (hcall : IsJson (IsFloatRepr float) call ∧ isCall call) (h : Json.dumps lim call = .ok text) :
    (callLine hcall h).Unbroken :=
  fun c hc => Json.not_isLineBreak_of_plain (Json.plain_dumps hcall.1 h c hc)

/-- The texts that `json.dumps` has written for some calls are those of `CallLine`s: written behind
`toolCallPrefix`, a line each, exactly the calls are found in them. -/
theorem exists_lines {calls : List PyValue} {texts : List PyStr}
    (h : List.Forall₂ (fun call text => (IsJson (IsFloatRepr float) call ∧ isCall call) ∧
      Json.dumps lim call = .ok text) calls texts) :
    ∃ lines : List (Line float),
      lines.map Line.written = texts.map (fun text => toolCallPrefix ++ ' ' :: text) ∧
        lines.flatMap Line.found = calls := by
  induction h with
  | nil => exact ⟨[], rfl, rfl⟩
  | @cons call text calls texts hcall _ ih =>
    obtain ⟨lines, hwritten, hfound⟩ := ih
    have hline := (found_eq_iff (callLine hcall.1 hcall.2)).mpr
      (unbroken_callLine hcall.1 hcall.2)
    refine ⟨.call (callLine hcall.1 hcall.2) :: lines, ?_, ?_⟩
    · rw [List.map_cons, List.map_cons, hwritten]
      rfl
    · rw [List.flatMap_cons, hline, hfound]
      rfl

/-- The calls that the response `Asks` for are read from it, all of them and in order, by
`toolCalls`. -/
theorem toolCalls_of_asks {response : ModelResponse} {calls : List PyValue}
    (hloads : JsonLoads float loads) (h : Asks float lim response calls) :
    toolCalls loads response = .ok calls := by
  obtain ⟨texts, htexts, hcontent⟩ := h.text
  obtain ⟨lines, hwritten, hfound⟩ := exists_lines htexts
  have hparse := parseToolCalls_content hloads lines
  rw [content, hwritten, ← hcontent, hfound] at hparse
  rw [toolCalls, h.metadata]
  exact hparse

/-! ## The results -/

/-- The content of a message gives back the outcome of a call: a string stands there as it is, any
other value as a JSON text, and an exception as a dict with its text. -/
inductive Conveys (float : PyStr → PyStr) : PyStr → Except PyExc PyValue → Prop
  | text (s : PyStr) : Conveys float s (.ok (.str s))
  | value {content : PyStr} {v : PyValue} (hdecode : Json.decode float content = some v) :
    Conveys float content (.ok v)
  | error {content text : PyStr} {e : PyExc} (htext : e.str = .ok text)
    (hdecode : Json.decode float content = some (.dict [("error".toList, .str text)])) :
    Conveys float content (.error e)

/-- The payload of a value that JSON has `Conveys` the value: a string stands for itself, and any
other value is decoded from its text. -/
theorem conveys_of_payload {v : PyValue} {content : PyStr} (hv : IsJson (IsFloatRepr float) v)
    (h : payload lim v = .ok content) : Conveys float content (.ok v) := by
  cases hv with
  | str s =>
    obtain rfl := Except.ok.inj h
    exact .text s
  | none => exact .value (Json.decode_dumps .none h)
  | bool b => exact .value (Json.decode_dumps (.bool b) h)
  | int n => exact .value (Json.decode_dumps (.int n) h)
  | float hrepr => exact .value (Json.decode_dumps (.float hrepr) h)
  | list hxs => exact .value (Json.decode_dumps (.list hxs) h)
  | dict hnodup hkeys hvalues => exact .value (Json.decode_dumps (.dict hnodup hkeys hvalues) h)

/-- The dict that stands for an exception is one of JSON. -/
theorem isJson_errorDict (text : PyStr) :
    IsJson (IsFloatRepr float) (.dict [("error".toList, .str text)]) := by
  refine .dict (List.nodup_singleton _) ?_ ?_
  · rw [List.forall_mem_singleton]
    exact ⟨_, rfl⟩
  · rw [List.forall_mem_singleton]
    exact .str text

/-- A result that JSON has is no exception, so `record` takes the branch for values. -/
theorem record_of_isJson {v : PyValue} (hv : IsJson (IsFloatRepr float) v) (call : PyValue) :
    record lim call v = do
      let payload ← payload lim v
      let name ← call.getItem "name".toList
      return ([("name".toList, name), ("result".toList, v)],
        ⟨"tool".toList, payload, some name⟩) := by
  cases hv <;> rfl

/-- The message that `record` makes of a call has the name of the call, and `Conveys` its outcome if
this is a JSON value or an exception. -/
theorem conveys_of_record (float : PyStr → PyStr) {call : PyValue}
    {outcome : Except PyExc PyValue} {entry : PyDict × Message}
    (hjson : ∀ v, outcome = .ok v → IsJson (IsFloatRepr float) v)
    (h : record lim call (returned outcome) = .ok entry) :
    ∃ name, call.getItem "name".toList = .ok name ∧
      entry.2 = ⟨"tool".toList, entry.2.content, some name⟩ ∧
      Conveys float entry.2.content outcome := by
  cases outcome with
  | error e =>
    obtain ⟨text, htext, h⟩ := Except.bind_eq_ok_iff.mp h
    obtain ⟨content, hcontent, h⟩ := Except.bind_eq_ok_iff.mp h
    obtain ⟨name, hname, h⟩ := Except.bind_eq_ok_iff.mp h
    obtain rfl := Except.ok.inj h
    have herror : IsJson (IsFloatRepr float) (.dict [("error".toList, .str text)]) :=
      isJson_errorDict text
    have hdecode := Json.decode_dumps herror hcontent
    exact ⟨name, hname, rfl, .error htext hdecode⟩
  | ok v =>
    have hv : IsJson (IsFloatRepr float) v := hjson v rfl
    rw [returned, record_of_isJson hv] at h
    obtain ⟨content, hcontent, h⟩ := Except.bind_eq_ok_iff.mp h
    obtain ⟨name, hname, h⟩ := Except.bind_eq_ok_iff.mp h
    obtain rfl := Except.ok.inj h
    exact ⟨name, hname, rfl, conveys_of_payload hv hcontent⟩

/-- In a running agent, an iteration on a response that `Asks` for some calls goes on. It has sent
the model a message about each of the calls, in their order, with the name of the call, which
`Conveys` its outcome if the results are JSON, floats among them; and it has sent it nothing else
but its own response. -/
theorem iteration_of_written {calls : List PyValue} {response : ModelResponse} {s : LoopState}
    {k : ℕ} {r : LoopState ⊕ AgentResult} (hloads : JsonLoads float loads)
    (hstatus : s.status = .RUNNING) (hne : calls ≠ []) (hasks : Asks float lim response calls)
    (hjson : ∀ j call v, calls[j]? = some call → executor.executeTool k j call = .ok v →
      IsJson (IsFloatRepr float) v)
    (h : executor.iteration lim loads k response s = .ok r) :
    ∃ steps messages, r = .inl ⟨.RUNNING, steps,
        s.messages ++ messages ++ [⟨"assistant".toList, response.content, none⟩]⟩ ∧
      messages.length = calls.length ∧
      ∀ j call, calls[j]? = some call → ∃ name content,
        call.getItem "name".toList = .ok name ∧
          messages[j]? = some ⟨"tool".toList, content, some name⟩ ∧
          Conveys float content (executor.executeTool k j call) := by
  obtain ⟨-, hcase⟩ := (iteration_eq_ok_iff hstatus).mp h
  obtain ⟨-, hcalls⟩ := toolCalls_eq_ok_iff.mp (toolCalls_of_asks hloads hasks)
  rw [← hcalls] at hcase
  cases hcase with
  | final => exact absurd rfl hne
  | tools _ recorded _ hrecorded =>
    refine ⟨_, recorded.map Prod.snd, rfl, by rw [List.length_map, hrecorded.1], ?_⟩
    intro j call hcall
    obtain ⟨entry, hentry, hrecord⟩ := hrecorded.2 j call hcall
    obtain ⟨name, hname, hmessage, hconveys⟩ :=
      conveys_of_record float (fun v hv => hjson j call v hcall hv) hrecord
    refine ⟨name, entry.2.content, hname, ?_, hconveys⟩
    rw [List.getElem?_map, hentry, ← hmessage]
    rfl

/-! ### A tool that says what it is told -/

/-- A tool that returns its arguments. -/
def echoTool : Tool where
  name := "echo".toList
  description := "Says it again.".toList
  inputSchema := .dict [("type".toList, .str "object".toList)]
  execute _ _ arguments := .ok arguments

/-- An executor with this tool. -/
def echoing : AgentExecutor := ⟨.registerAll .empty [echoTool], 2⟩

/-- `prompt_lists_tools` for an executor with one tool: the prompt can be written, and the tool is
listed in it. -/
theorem prompt_lists_tools_echoing :
    ∃ (system toolsJson : PyStr) (listed : List Tool),
      echoing.buildSystemPrompt .thousand = .ok system ∧
      system = beforeTools ++ toolsJson ++ afterTools ∧
      Json.decode id toolsJson = some (.list ((listed.map ToolRegistry.schemaOf).map .dict)) ∧
      echoTool ∈ listed := by
  obtain ⟨system, hsystem⟩ : ∃ system, echoing.buildSystemPrompt .thousand = .ok system :=
    ⟨_, rfl⟩
  have hjson : ∀ tool ∈ echoing.registry.tools, IsJson (IsFloatRepr id) tool.inputSchema := by
    refine List.forall_mem_singleton.mpr (.dict (List.nodup_singleton _) ?_ ?_)
    · exact List.forall_mem_singleton.mpr ⟨_, rfl⟩
    · exact List.forall_mem_singleton.mpr (.str _)
  obtain ⟨toolsJson, listed, hprompt, hdecode, -, hget⟩ :=
    prompt_lists_tools id (List.cons_ne_nil _ _) hjson hsystem
  obtain ⟨hlisted, -⟩ := (hget "echo".toList echoTool).mp rfl
  exact ⟨system, toolsJson, listed, hsystem, hprompt, hdecode, hlisted⟩

/-- A call of this tool, with a float. -/
def echoCall : PyValue :=
  .dict [("name".toList, .str "echo".toList),
    ("arguments".toList, .dict [("text".toList, .str "a\nb".toList),
      ("speed".toList, .float "0.5".toList)])]

/-- The float has a text of JSON. -/
theorem isFloatText_half : Json.IsFloatText "0.5".toList where
  digits := by decide
  leading := by decide
  rest := by decide
  ends := by decide

theorem isJson_echoArguments : IsJson (IsFloatRepr id)
    (.dict [("text".toList, .str "a\nb".toList), ("speed".toList, .float "0.5".toList)]) := by
  refine .dict (by decide) ?_ ?_
  · simp
  · simp only [List.forall_mem_cons]
    exact ⟨.str _, .float (.finite isFloatText_half rfl), List.forall_mem_nil _⟩

/-- The call is a JSON value, with a line feed in one of its strings and a float among its
arguments. -/
theorem isJson_echoCall : IsJson (IsFloatRepr id) echoCall := by
  refine .dict (by decide) ?_ ?_
  · simp
  · simp only [List.forall_mem_cons]
    exact ⟨.str _, isJson_echoArguments, List.forall_mem_nil _⟩

/-- A response that asks for it. -/
def asksForEcho : ModelResponse where
  content := ("TOOL_CALL: \x7b\"name\": \"echo\", \"arguments\": " ++
    "\x7b\"text\": \"a\\nb\", \"speed\": 0.5\x7d\x7d").toList
  modelName := "mock".toList
  inputTokens := 1
  outputTokens := 1

/-- The response `asksForEcho` consists of the line of `echoCall`. -/
theorem asks_asksForEcho : Asks id .thousand asksForEcho [echoCall] where
  metadata := rfl
  text := ⟨_, .cons ⟨⟨isJson_echoCall, rfl⟩, rfl⟩ .nil, rfl⟩

/-- `iteration_of_written` for this response: the iteration goes through, and its message conveys
what the tool has returned. -/
theorem iteration_of_written_asksForEcho :
    ∃ r name content, echoing.iteration .thousand (decoding id) 0 asksForEcho
        (start .RUNNING "Say hello.".toList) = .ok r ∧
      echoCall.getItem "name".toList = .ok name ∧
      Conveys id content (echoing.executeTool 0 0 echoCall) := by
  have hjson : ∀ j call v, [echoCall][j]? = some call →
      echoing.executeTool 0 j call = .ok v → IsJson (IsFloatRepr id) v := by
    intro j call v hcall hv
    cases j with
    | zero =>
      obtain rfl := Option.some.inj hcall
      obtain rfl := Except.ok.inj hv
      exact isJson_echoArguments
    | succ j => simp at hcall
  obtain ⟨recorded, hrecorded⟩ : ∃ recorded, echoing.Recorded .thousand 0 [echoCall] recorded := by
    refine exists_recorded_iff.mpr fun j call hcall => ?_
    cases j with
    | zero =>
      obtain rfl := Option.some.inj hcall
      exact ⟨_, rfl⟩
    | succ j => simp at hcall
  obtain ⟨r, hr⟩ : ∃ r, echoing.iteration .thousand (decoding id) 0 asksForEcho
      (start .RUNNING "Say hello.".toList) = .ok r := by
    obtain ⟨hreadable, hcalls⟩ :=
      toolCalls_eq_ok_iff.mp (toolCalls_of_asks (jsonLoads_decoding id) asks_asksForEcho)
    have hcase : echoing.IterationCase .thousand 0 asksForEcho
        (start .RUNNING "Say hello.".toList) [echoCall] _ :=
      .tools _ recorded (List.cons_ne_nil _ _) hrecorded
    rw [hcalls] at hcase
    exact ⟨_, (iteration_eq_ok_iff rfl).mpr ⟨hreadable, hcase⟩⟩
  obtain ⟨steps, messages, -, -, hall⟩ := iteration_of_written (jsonLoads_decoding id) rfl
    (List.cons_ne_nil _ _) asks_asksForEcho hjson hr
  obtain ⟨name, content, hname, -, hconveys⟩ := hall 0 echoCall rfl
  exact ⟨r, name, content, hr, hname, hconveys⟩

end AgentExecutor
