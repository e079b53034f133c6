import AthenaAI.Agents.Containment
import AthenaAI.Agents.Dialogue
import AthenaAI.Tools.CalculatorTool
import AthenaAI.Tools.Domains

/-!
# The tools of the gateway's agent

`_build_tool_registry` in `athenai.gateway.app`, and what the calls of an agent run come to with the
tools that the gateway gives to its agent.

* `Network` is what the HTTP tool reaches, and `Platform` all that the gateway rests on.
* `httpTool?` and `buildToolRegistry` read the environment: the calculator is always there, and the
  HTTP tool if `ATHENA_ALLOWED_DOMAINS` is set. `agent` is the executor with these tools.
* `Roomy` are the limits that the interpreter has at least.
* `usable_iff`: the loop can go on from every call in a text, unless the calculator has computed a
  complex number or an integer that is too long.
* `contained_iff_sendable`: that, and a `json.loads` that raises something unexpected, is all that
  aborts a run.
-/

/-! ## What the gateway rests on -/

/-- `os.environ`. -/
abbrev Environ : Type := PyStr → Option PyStr

/-- `os.environ.get(name, "")`. -/
def Environ.get (env : Environ) (name : PyStr) : PyStr := (env name).getD []

/-- What the HTTP tool reaches: the remote servers, as they are found by the call at a position of
an iteration. -/
structure Network (Request : Type) where
  /-- `urlparse(url).hostname`. -/
  hostname : PyValue → Except PyExc (Option PyStr)
  /-- The HTTP client. -/
  httpx : Httpx Request
  /-- The servers. -/
  servers : (iteration position : ℕ) → Servers Request
  /-- The exceptions of `urlparse` have texts. -/
  text_hostname : ∀ url e, hostname url = .error e → e.text.isSome
  /-- The exceptions of the client have texts. -/
  text_request : ∀ url headers e, httpx.request url headers = .error e → e.text.isSome
  text_failure : ∀ k position sent e, servers k position sent = .failure e → e.text.isSome
  /-- A status code has three digits. -/
  statusCode_lt : ∀ k position sent response, servers k position sent = .body response →
    response.statusCode.natAbs < 1000
  /-- The names and values of headers are strings. -/
  headers_str : ∀ k position sent response, servers k position sent = .body response →
    ∀ item ∈ response.headers, ∃ name value, item = (.str name, .str value)

namespace HTTPTool

variable {Request : Type}

/-- `HTTPTool.execute` on any arguments: the requests that are sent and the outcome. -/
def executeOn (tool : HTTPTool) (net : Network Request) (iteration position : ℕ) :
    PyValue → List Request × Except PyExc PyValue
  | .dict items =>
    (tool.execute net.hostname net.httpx (net.servers iteration position) items).map id
      (Except.map .dict)
  -- `arguments["url"]` raises
  | arguments => ([], arguments.getItem "url".toList)

/-- The tool, as the registry has it. -/
def asTool (tool : HTTPTool) (net : Network Request) : Tool where
  name := "http_get".toList
  description := "Perform an HTTP GET request to an allowlisted domain.".toList
  inputSchema := .dict [(.str "type".toList, .str "object".toList),
    (.str "properties".toList, .dict [
      (.str "url".toList, .dict [(.str "type".toList, .str "string".toList),
        (.str "description".toList,
          .str "Full URL to fetch (must be on the allowed domain list)".toList)]),
      (.str "headers".toList, .dict [(.str "type".toList, .str "object".toList),
        (.str "description".toList, .str "Optional HTTP headers to include".toList)])]),
    (.str "required".toList, .list [.str "url".toList])]
  execute iteration position arguments := (tool.executeOn net iteration position arguments).2

end HTTPTool

/-- What lies outside of the repository. -/
structure Platform (F Request : Type) where
  /-- `CalculatorTool()`, on its interpreter. -/
  calculator : CalculatorTool F
  /-- The network. -/
  net : Network Request
  /-- `int(text)`. -/
  int : PyStr → Except PyExc ℤ
  /-- `httpx.AsyncClient(…)` with a key among its headers. -/
  client : (apiKey : PyStr) → Except PyExc Unit
  /-- `asyncpg.create_pool(url)`. -/
  createPool : (url : PyStr) → Except PyExc Unit

/-- There is room for the schemas of the tools, and for a status code. -/
structure Json.Limits.Roomy (lim : Json.Limits) : Prop where
  /-- Six containers may be nested. -/
  depth : 6 ≤ lim.depth
  /-- Integers of three digits are converted. -/
  digits : lim.digits = 0 ∨ 3 ≤ lim.digits

/-! ## The registry -/

namespace Gateway

variable {F Request : Type} (platform : Platform F Request) (env : Environ)

/-- The domains in the value of `ATHENA_ALLOWED_DOMAINS`. -/
def allowedDomains (raw : PyStr) : List PyStr :=
  ((raw.splitOn ',').filter fun d => !(PyStr.strip d).isEmpty).map PyStr.strip

/-- The HTTP tool, if there are domains for it. -/
def httpTool? : Option HTTPTool :=
  let raw := env.get "ATHENA_ALLOWED_DOMAINS".toList
  if raw.strip.isEmpty then none else some ⟨allowedDomains raw⟩

/-- `_build_tool_registry`. -/
def buildToolRegistry : ToolRegistry :=
  let registry := ToolRegistry.empty.register platform.calculator.asTool
  match httpTool? env with
  | some tool => registry.register (tool.asTool platform.net)
  | none => registry

/-- `app.state.agent`. -/
def agent (maxIterations : ℕ) : AgentExecutor := ⟨buildToolRegistry platform env, maxIterations⟩

/-- The value cannot be sent to the model. -/
def Unsendable (lim : Json.Limits) : Number F → Prop
  | .bool _ | .float _ => False
  | .int n => lim.digits ≠ 0 ∧ 10 ^ lim.digits ≤ n.natAbs
  | .complex _ _ => True

/-- The call has the calculator compute a value that cannot be sent. -/
def AsksUnsendable (calculator : CalculatorTool F) (lim : Json.Limits) (call : PyValue) : Prop :=
  ∃ arguments v, call.getItem "name".toList = .ok (.str "calculator".toList) ∧
    call.getItem "arguments".toList = .ok arguments ∧ calculator.Computes arguments v ∧
    Unsendable lim v

variable {platform env} {lim : Json.Limits} {k position n : ℕ} {call arguments : PyValue}

/-- The registry of the gateway holds the calculator and, if there are domains for it, the HTTP tool
behind it. -/
theorem tools_buildToolRegistry :
    (buildToolRegistry platform env).tools =
      platform.calculator.asTool ::
        ((httpTool? env).map fun tool => tool.asTool platform.net).toList := by
  unfold buildToolRegistry
  cases httpTool? env with
  | none => rfl
  | some tool => rfl

/-- The tool under a name is the calculator or the HTTP tool, and the latter only if the environment
names allowed domains (`httpTool?`). -/
theorem tool_cases {name : PyStr} {tool : Tool}
    (h : (buildToolRegistry platform env).get (.str name) = .ok tool) :
    (name = "calculator".toList ∧ tool = platform.calculator.asTool) ∨
      ∃ http, httpTool? env = some http ∧ name = "http_get".toList ∧
        tool = http.asTool platform.net := by
  obtain ⟨hmem, rfl⟩ := ToolRegistry.get_eq_ok_iff.mp h
  rw [tools_buildToolRegistry] at hmem
  obtain rfl | hmem := List.mem_cons.mp hmem
  · exact .inl ⟨rfl, rfl⟩
  · obtain ⟨http, hhttp, rfl⟩ := Option.mem_map.mp (Option.mem_toList.mp hmem)
    exact .inr ⟨http, hhttp, rfl, rfl⟩

/-- The calculator is found under its name in every environment. -/
theorem get_calculator :
    (buildToolRegistry platform env).get (.str "calculator".toList) =
      .ok platform.calculator.asTool := by
  refine ToolRegistry.get_eq_ok_iff.mpr ⟨?_, rfl⟩
  rw [tools_buildToolRegistry]
  exact List.mem_cons_self

open CalculatorTool (Speaks speaks_of speaks_ok)

/-- What is raised for a name has a text. -/
theorem speaks_get (registry : ToolRegistry) (name : PyValue) : Speaks (registry.get name) := by
  unfold ToolRegistry.get
  split
  · exact speaks_of _ _
  · split
    · exact speaks_ok _
    · exact fun e he => Except.error.inj he ▸ rfl

/-! ## The results -/

/-- An exception with a text can be sent back to the model, so a call that raises it does not end
the run. -/
theorem usableResult_of_error {e : PyExc} (he : e.text.isSome) :
    AgentExecutor.UsableResult lim (AgentExecutor.returned (.error e)) := by
  obtain ⟨text, htext⟩ := Option.isSome_iff_exists.mp he
  refine ⟨text, ?_⟩
  unfold PyExc.str
  rw [htext]

/-- A number can be sent unless it is complex or an integer with more digits than the interpreter
converts (`Unsendable`). -/
theorem usableResult_toValue_iff (calculator : CalculatorTool F) (v : Number F) :
    AgentExecutor.UsableResult lim (calculator.toValue v) ↔ ¬Unsendable lim v := by
  cases v with
  | bool b => exact iff_of_true ⟨_, rfl⟩ id
  | float x => exact iff_of_true ⟨_, rfl⟩ id
  | complex re im => exact iff_of_false (fun ⟨_, h⟩ => nomatch h) fun h => h trivial
  | int n =>
    show (∃ text, Json.intText lim n = .ok text) ↔ ¬(lim.digits ≠ 0 ∧ _)
    unfold Json.intText
    split_ifs with hlong
    · exact iff_of_false (fun ⟨_, h⟩ => nomatch h) fun h => h hlong
    · exact iff_of_true ⟨_, rfl⟩ hlong

/-- What the calculator comes to can be sent unless it `Computes` a value that is `Unsendable`: all
its exceptions have a text. -/
theorem usableResult_calculator_iff (calculator : CalculatorTool F) :
    AgentExecutor.UsableResult lim (AgentExecutor.returned (calculator.execute arguments)) ↔
      ∀ v, calculator.Computes arguments v → ¬Unsendable lim v := by
  cases hexecute : calculator.execute arguments with
  | error e =>
    refine iff_of_true
      (usableResult_of_error (calculator.speaks_execute arguments e hexecute)) fun v hv => ?_
    have hok := CalculatorTool.execute_eq_ok_iff.mpr ⟨v, hv, rfl⟩
    exact nomatch hexecute.symm.trans hok
  | ok result =>
    obtain ⟨v, hv, rfl⟩ := CalculatorTool.execute_eq_ok_iff.mp hexecute
    refine (usableResult_toValue_iff calculator v).trans ⟨fun hsend w hw => ?_, fun h => h v hv⟩
    -- a call computes one value
    obtain ⟨body, hbody, hv⟩ := hv
    obtain ⟨body', hbody', hw⟩ := hw
    obtain rfl := Except.ok.inj (hbody.symm.trans hbody')
    obtain rfl := Except.ok.inj (hv.symm.trans hw)
    exact hsend

/-- A client that follows redirects ends with a body that a server has answered, or with an
exception that has a text. -/
theorem follow_cases (servers : Servers Request) (left : ℕ) (sent : List Request)
    (request : Request) :
    (∃ sent' response, servers sent' = .body response ∧
      (Httpx.follow servers left sent request).2 = .ok response) ∨
    ∃ e, (e = Httpx.tooManyRedirects ∨ ∃ sent', servers sent' = .failure e) ∧
      (Httpx.follow servers left sent request).2 = .error e := by
  induction left generalizing sent request with
  | zero => exact .inr ⟨_, .inl rfl, rfl⟩
  | succ left ih =>
    rw [Httpx.follow]
    cases hanswer : servers (sent ++ [request]) with
    | body response => exact .inl ⟨_, response, hanswer, rfl⟩
    | redirect location => exact ih _ location
    | failure e => exact .inr ⟨e, .inr ⟨_, hanswer⟩, rfl⟩

/-- A dict of strings by strings, as that of the headers of a response, can be written as JSON at
any depth. -/
theorem exists_encodeItems {indent : Option ℕ} {level depth : ℕ} {items : PyDict}
    (hitems : ∀ item ∈ items, ∃ name value, item = (.str name, .str value)) :
    ∃ texts, Json.encodeItems lim indent level depth items = .ok texts := by
  induction items with
  | nil => exact ⟨[], by rw [Json.encodeItems]⟩
  | cons item items ih =>
    obtain ⟨hitem, hrest⟩ := List.forall_mem_cons.mp hitems
    obtain ⟨name, value, rfl⟩ := hitem
    obtain ⟨texts, htexts⟩ := ih hrest
    rw [Json.encodeItems, Json.keyText, Json.encode, htexts]
    exact ⟨_, rfl⟩

/-- A status code has a text, as it has no more digits than the interpreter converts. -/
theorem exists_intText (hlim : lim.Roomy) {code : ℤ} (hcode : code.natAbs < 1000) :
    ∃ text, Json.intText lim code = .ok text := by
  unfold Json.intText
  split_ifs with hlong
  · have hle : 10 ^ 3 ≤ 10 ^ lim.digits :=
      Nat.pow_le_pow_right (by decide) (hlim.digits.resolve_left hlong.1)
    omega
  · exact ⟨_, rfl⟩

/-- What the HTTP tool returns can be written as JSON: a status code, headers and a body that are
strings, within limits that are `Roomy`. -/
theorem exists_dumps_response (hlim : lim.Roomy) {response : HttpResponse} {url body : PyStr}
    (hcode : response.statusCode.natAbs < 1000)
    (hheaders : ∀ item ∈ response.headers, ∃ name value, item = (.str name, .str value)) :
    ∃ text, Json.dumps lim (.dict [("status".toList, .int response.statusCode),
      ("url".toList, .str url), ("body".toList, .str body),
      ("headers".toList, .dict response.headers)]) = .ok text := by
  obtain ⟨depth, hdepth⟩ := Nat.exists_eq_add_of_le hlim.depth
  obtain ⟨code, hcode⟩ := exists_intText hlim hcode
  obtain ⟨texts, htexts⟩ :
      ∃ texts, Json.encodeItems lim none 2 (depth + 4) response.headers = .ok texts :=
    exists_encodeItems hheaders
  unfold Json.dumps
  rw [hdepth, show 6 + depth = depth + 4 + 1 + 1 by omega]
  simp only [Json.encode, Json.encodeItems, Json.keyText, hcode, htexts]
  exact ⟨_, rfl⟩

/-- What the HTTP tool comes to can be sent, whatever the servers do: a response can be written, and
all exceptions have a text. -/
theorem usableResult_http (hlim : lim.Roomy) (http : HTTPTool) (net : Network Request) :
    AgentExecutor.UsableResult lim
      (AgentExecutor.returned (http.executeOn net k position arguments).2) := by
  -- what is raised has a text
  have hraised {e : PyExc} (hspeaks : Speaks (.error e : Except PyExc PyValue)) :
      AgentExecutor.UsableResult lim (AgentExecutor.returned (.error e)) :=
    usableResult_of_error (hspeaks e rfl)
  cases arguments with
  | dict items =>
    show AgentExecutor.UsableResult lim (AgentExecutor.returned (Except.map .dict
      (http.execute net.hostname net.httpx (net.servers k position) items).2))
    unfold HTTPTool.execute
    cases PyDict.get items "url".toList with
    | none => exact hraised fun e he => Except.error.inj he ▸ rfl
    | some url =>
      dsimp only
      cases hcheck : http.checkDomain net.hostname url with
      | error e =>
        refine hraised fun e' he => Except.error.inj he ▸ ?_
        obtain hhost | ⟨host, -, hdenied⟩ := Except.bind_eq_error_iff.mp hcheck
        · exact net.text_hostname url e hhost
        · dsimp only at hdenied
          split_ifs at hdenied
          · cases hdenied
          · exact Except.error.inj hdenied ▸ rfl
      | ok _ =>
        dsimp only
        unfold Httpx.get
        cases hrequest : net.httpx.request url
            ((PyDict.get items "headers".toList).getD (.dict [])) with
        | error e =>
          exact hraised fun e' he => Except.error.inj he ▸ net.text_request url _ e hrequest
        | ok first =>
          obtain ⟨sent, response, hbody, hget⟩ | ⟨e, hfailure, hget⟩ :=
            follow_cases (net.servers k position) (net.httpx.maxRedirects + 1) [] first
          · dsimp only
            rw [hget]
            exact exists_dumps_response hlim (net.statusCode_lt k position sent response hbody)
              (net.headers_str k position sent response hbody)
          · dsimp only
            rw [hget]
            refine hraised fun e' he => Except.error.inj he ▸ ?_
            obtain rfl | ⟨sent, hsent⟩ := hfailure
            · rfl
            · exact net.text_failure k position sent e hsent
  | _ => exact hraised (speaks_of _ _)

/-! ## The calls -/

/-- A call has a name and arguments. -/
theorem exists_of_isCall (hcall : AgentExecutor.isCall call = true) :
    ∃ name arguments, call.getItem "name".toList = .ok name ∧
      call.getItem "arguments".toList = .ok arguments := by
  cases call with
  | dict items =>
    obtain ⟨hname, harguments⟩ := (Bool.and_eq_true _ _).mp hcall
    obtain ⟨name, hname⟩ := Option.isSome_iff_exists.mp hname
    obtain ⟨arguments, harguments⟩ := Option.isSome_iff_exists.mp harguments
    refine ⟨name, arguments, ?_, ?_⟩
    · unfold PyValue.getItem
      dsimp only
      rw [hname]
    · unfold PyValue.getItem
      dsimp only
      rw [harguments]
  | _ => exact absurd hcall Bool.false_ne_true

/-- What is found in a text passes the check `isCall`, so it has a name and arguments. -/
theorem isCall_of_call? {loads : Loads} {text : PyStr}
    (h : AgentExecutor.call? loads text = some call) : AgentExecutor.isCall call = true := by
  unfold AgentExecutor.call? at h
  split at h
  · split_ifs at h with hcall
    exact Option.some.inj h ▸ hcall
  · cases h

/-- Only a string is the name of a tool. -/
theorem exists_str_of_get {registry : ToolRegistry} {name : PyValue} {tool : Tool}
    (h : registry.get name = .ok tool) : ∃ text, name = .str text := by
  have hlookup : registry.lookup name ≠ none := by
    intro hnone
    unfold ToolRegistry.get at h
    rw [hnone] at h
    split at h
    · cases h
    · cases h
  cases name with
  | str text => exact ⟨text, rfl⟩
  | _ => exact absurd rfl hlookup

/-- The loop can go on from every call that is read in a text, unless it has the calculator compute
a value that cannot be sent. -/
theorem usable_iff (hlim : lim.Roomy) (hcall : AgentExecutor.isCall call = true) :
    (agent platform env n).Usable lim k position call ↔
      ¬AsksUnsendable platform.calculator lim call := by
  obtain ⟨name, arguments, hname, harguments⟩ := exists_of_isCall hcall
  have hexecute : (agent platform env n).executeTool k position call =
      (buildToolRegistry platform env).get name >>= fun tool =>
        tool.execute k position arguments := by
    unfold AgentExecutor.executeTool
    rw [hname, harguments]
    rfl
  unfold AgentExecutor.Usable AsksUnsendable
  rw [hexecute, hname, harguments]
  simp only [Except.ok.injEq, exists_eq', true_and]
  cases hget : (buildToolRegistry platform env).get name with
  | error e =>
    refine iff_of_true (usableResult_of_error (speaks_get _ _ e hget)) ?_
    rintro ⟨_, v, rfl, -⟩
    exact nomatch hget.symm.trans get_calculator
  | ok tool =>
    obtain ⟨name, rfl⟩ := exists_str_of_get hget
    obtain ⟨rfl, rfl⟩ | ⟨http, -, rfl, rfl⟩ := tool_cases hget
    · refine (usableResult_calculator_iff platform.calculator).trans ⟨?_, ?_⟩
      · rintro hsend ⟨_, v, -, rfl, hv, hunsendable⟩
        exact hsend v hv hunsendable
      · exact fun hsend v hv hunsendable => hsend ⟨_, v, rfl, rfl, hv, hunsendable⟩
    · refine iff_of_true (usableResult_http hlim http platform.net) ?_
      rintro ⟨_, v, hcalculator, -⟩
      exact absurd (PyValue.str.inj hcalculator) (by decide)

/-! ## A run -/

/-- The tools can be described to the model: within `Roomy` limits their schemas are written, so the
prompt is built. -/
theorem exists_prompt (hlim : lim.Roomy) (platform : Platform F Request) (env : Environ) (n : ℕ) :
    ∃ system, (agent platform env n).buildSystemPrompt lim = .ok system := by
  have hjson : ∃ toolsJson, Json.dumpsIndent lim 2
      (.list ((buildToolRegistry platform env).getSchemas.map .dict)) = .ok toolsJson := by
    obtain ⟨depth, hdepth⟩ := Nat.exists_eq_add_of_le' hlim.depth
    unfold Json.dumpsIndent
    rw [ToolRegistry.getSchemas_eq, tools_buildToolRegistry, hdepth]
    cases httpTool? env with
    | none => exact ⟨_, rfl⟩
    | some http => exact ⟨_, rfl⟩
  obtain ⟨toolsJson, htools⟩ := hjson
  have hne : (agent platform env n).registry.tools ≠ [] := by
    show (buildToolRegistry platform env).tools ≠ []
    rw [tools_buildToolRegistry]
    exact List.cons_ne_nil _ _
  exact ⟨_, (AgentExecutor.buildSystemPrompt_eq_ok_iff hne).mpr ⟨toolsJson, htools, rfl⟩⟩

/-- A response without calls in its metadata meets the guard if its directives can be read, and none
of them has the calculator compute a value that cannot be sent. -/
theorem guard_iff (hlim : lim.Roomy) {loads : Loads} {response : ModelResponse}
    (hmetadata : response.metadata = []) :
    (agent platform env n).Guard lim loads k response ↔
      ∀ text ∈ AgentExecutor.directives response.content, AgentExecutor.Decodes loads text ∧
        ∀ call, AgentExecutor.call? loads text = some call →
          ¬AsksUnsendable platform.calculator lim call := by
  have hlisted : AgentExecutor.metadataCalls response = .ok [] := by
    unfold AgentExecutor.metadataCalls
    rw [hmetadata]
    rfl
  have hcalls : AgentExecutor.callsOf loads response =
      (AgentExecutor.directives response.content).filterMap (AgentExecutor.call? loads) := by
    unfold AgentExecutor.callsOf
    rw [hlisted]
  have hreadable : AgentExecutor.Readable loads response ↔
      ∀ text ∈ AgentExecutor.directives response.content, AgentExecutor.Decodes loads text := by
    unfold AgentExecutor.Readable
    rw [hlisted]
    simp
  unfold AgentExecutor.Guard
  rw [hreadable, hcalls, forall₂_and]
  refine and_congr_right fun _ => ⟨fun h text htext call hcall => ?_, fun h j call hcall => ?_⟩
  · obtain ⟨j, hj⟩ := List.getElem?_of_mem (List.mem_filterMap.mpr ⟨text, htext, hcall⟩)
    exact (usable_iff hlim (isCall_of_call? hcall)).mp (h j call hj)
  · obtain ⟨text, htext, hcall⟩ := List.mem_filterMap.mp (List.mem_of_getElem? hcall)
    exact (usable_iff hlim (isCall_of_call? hcall)).mpr (h text htext call hcall)

/-- With the tools of the gateway and a model that lists no calls in its metadata, a run returns
with every call in its own entry of the trace (`Contained`), unless a response that it gets has a
directive on which `json.loads` raises something unexpected (not `Decodes`), or one that has the
calculator compute a complex number or an integer that is too long to be written
(`AsksUnsendable`). -/
theorem contained_iff_sendable (hlim : lim.Roomy) (platform : Platform F Request) (env : Environ)
    (n : ℕ) (loads : Loads) (generate : ℕ → ModelRequest → ModelResponse) (task : PyStr)
    (hmetadata : ∀ k request, (generate k request).metadata = []) :
    (agent platform env n).Contained lim loads generate task ↔
      ∀ system, (agent platform env n).buildSystemPrompt lim = .ok system →
        ∀ k s, BoundedLoop.Reaches ((agent platform env n).body lim loads generate system) 0
            (AgentExecutor.start .RUNNING task) k s → k < n →
          ∀ text ∈ AgentExecutor.directives (generate k (AgentExecutor.request system s)).content,
            AgentExecutor.Decodes loads text ∧
              ∀ call, AgentExecutor.call? loads text = some call →
                ¬AsksUnsendable platform.calculator lim call := by
  obtain ⟨system, hsystem⟩ := exists_prompt hlim platform env n
  have hreturns : (agent platform env n).Contained lim loads generate task ↔
      ∃ result, ((agent platform env n).run lim loads generate task).2 = .ok result :=
    exists_congr fun result =>
      and_iff_left_of_imp ((agent platform env n).surfaced_of_run lim loads generate task)
  rw [hreturns, AgentExecutor.exists_run_eq_ok_iff, hsystem]
  simp only [Except.ok.injEq, exists_eq_left', forall_eq']
  refine forall₂_congr fun k s => forall₂_congr fun _ _ => ?_
  exact guard_iff hlim (hmetadata k _)

/-! ### A run on its own machine -/

/-- A calculator whose parser knows one expression. -/
def sixTimesSeven : CalculatorTool ℚ where
  floats := Calculator.rationals
  reprFloat _ := "0.0".toList
  parse text :=
    if text = "6 * 7".toList then .ok (.binOp (.constant (.int 6)) .mult (.constant (.int 7)))
    else .error (.of (.other "SyntaxError".toList) "invalid syntax".toList)
  text_parse text e he := by
    split_ifs at he
    exact Except.error.inj he ▸ rfl
  frames := 1000

/-- A network in which `https://api.example.com/v1` redirects to a metadata endpoint. -/
def redirecting : Network PyStr where
  hostname := HTTPTool.exampleHostname
  httpx := HTTPTool.exampleClient
  servers _ _ := HTTPTool.redirectingServers
  text_hostname url e he := by
    unfold HTTPTool.exampleHostname at he
    split at he <;> cases he
  text_request url headers e he := by
    dsimp only [HTTPTool.exampleClient] at he
    split at he
    · cases he
    · exact Except.error.inj he ▸ rfl
  text_failure _ _ sent e he := by
    unfold HTTPTool.redirectingServers at he
    split at he <;> cases he
  statusCode_lt _ _ sent response hbody := by
    unfold HTTPTool.redirectingServers at hbody
    split at hbody
    · cases hbody
    · rw [← Answer.body.inj hbody]
      exact (by decide : (200 : ℤ).natAbs < 1000)
  headers_str _ _ sent response hbody := by
    unfold HTTPTool.redirectingServers at hbody
    split at hbody
    · cases hbody
    · exact Answer.body.inj hbody ▸ List.forall_mem_nil _

/-- A platform with both. -/
def machine : Platform ℚ PyStr where
  calculator := sixTimesSeven
  net := redirecting
  int _ := .ok 10
  client _ := .ok ()
  createPool _ := .ok ()

/-- The usual limits of the interpreter leave room for the schemas and the status codes. -/
theorem roomy_thousand : Json.Limits.thousand.Roomy := ⟨by decide, .inr (by decide)⟩

/-- The JSON text of a call of the calculator. -/
def productCall : PyStr :=
  "\x7b\"name\": \"calculator\", \"arguments\": \x7b\"expression\": \"6 * 7\"\x7d\x7d".toList

/-- The arguments of the call. -/
def productArguments : PyValue := .dict [(.str "expression".toList, .str "6 * 7".toList)]

/-- `json.loads` on that text. -/
def productLoads : Loads := fun text =>
  if text = productCall then
    .ok (.dict [(.str "name".toList, .str "calculator".toList),
      (.str "arguments".toList, productArguments)])
  else .error (.of .JSONDecodeError "Expecting value: line 1 column 1 (char 0)".toList)

/-- A model that asks for the product, and then says it. -/
def productModel : ℕ → ModelRequest → ModelResponse := fun k _ =>
  ⟨if k = 0 then AgentExecutor.toolCallPrefix ++ [' '] ++ productCall else "42".toList,
    "agent".toList, 10, 10, "stop".toList, []⟩

/-- The calculator computes nothing else for these arguments. -/
theorem eq_of_computes {v : Number ℚ} (h : sixTimesSeven.Computes productArguments v) :
    v = .int 42 := by
  obtain ⟨body, hbody, hv⟩ := h
  have hparsed : sixTimesSeven.parsed productArguments =
      .ok (.binOp (.constant (.int 6)) .mult (.constant (.int 7))) := rfl
  obtain rfl := Except.ok.inj (hparsed.symm.trans hbody)
  have hvalue : Calculator.outcome Calculator.rationals 1000
      (.binOp (.constant (.int 6)) .mult (.constant (.int 7))) = .ok (.int 42) := rfl
  exact (Except.ok.inj (hvalue.symm.trans hv)).symm

/-- `contained_iff_sendable` for a run that has a product computed: its directive is decoded, and
the product is an integer that can be written. -/
theorem product_contained :
    (agent machine (fun _ => none) 10).Contained .thousand productLoads productModel
      "What is 6 * 7?".toList := by
  refine (contained_iff_sendable roomy_thousand machine (fun _ => none) 10 productLoads productModel
    _ fun _ _ => rfl).mpr fun system _ k s _ _ text htext => ?_
  have hdirectives : AgentExecutor.directives
      (AgentExecutor.toolCallPrefix ++ [' '] ++ productCall) = [productCall] := by
    decide +kernel
  obtain rfl | hk := eq_or_ne k 0
  · obtain rfl : text = productCall := List.mem_singleton.mp (hdirectives ▸ htext)
    have hloads : productLoads productCall = .ok (.dict [(.str "name".toList,
        .str "calculator".toList), (.str "arguments".toList, productArguments)]) := if_pos rfl
    refine ⟨fun e he => absurd (hloads.symm.trans he) nofun, fun call hcall => ?_⟩
    unfold AgentExecutor.call? at hcall
    rw [hloads] at hcall
    obtain rfl := Option.some.inj hcall
    rintro ⟨arguments, v, -, harguments, hv, hunsendable⟩
    obtain rfl := Except.ok.inj harguments
    obtain rfl := eq_of_computes hv
    -- two digits are not too many
    have hlt {digits : ℕ} (hdigits : 2 ≤ digits) : 42 < 10 ^ digits :=
      lt_of_lt_of_le (by decide : 42 < 10 ^ 2) (Nat.pow_le_pow_right (by decide) hdigits)
    exact absurd hunsendable.2 (not_le.mpr (hlt (by decide : 2 ≤ Json.Limits.thousand.digits)))
  · have hcontent : (productModel k (AgentExecutor.request system s)).content = "42".toList :=
      if_neg hk
    have hnone : AgentExecutor.directives "42".toList = [] := by decide +kernel
    rw [hcontent, hnone] at htext
    exact absurd htext List.not_mem_nil

end Gateway
