import AthenaAI.Agents.Stepwise
import AthenaAI.Gateway.AgentTools

/-!
# Where an agent can be made to go

The requests that the gateway's agent sends over the network in a run, if the model is not to be
trusted: its answers may be anything.

* `sentFor` are the requests of a tool call, and `Sends` says that a request is sent for the call at
  a position of an iteration of some run.
* `Allowed`: the host of the URL is within the domains of `ATHENA_ALLOWED_DOMAINS`. `Led`: the
  request is one that the servers lead to from the URL, within the limit on redirects.
* `AgentExecutor.exists_gather_mem_trace`: a model can have any call made at any position of any
  iteration.
* `sends_iff`: what can be sent is what allowed URLs lead to, and all of it.
-/

namespace AgentExecutor

variable {executor : AgentExecutor} {lim : Json.Limits} {loads : Loads} {system : PyStr}
  {k position left : ℕ} {s : LoopState} {idle call : PyValue}

/-- The tools are not asked in iteration `n` or later. -/
def GathersBefore (n : ℕ) : AppOp → Prop
  | .gather k _ => k < n
  | _ => True

/-- From iteration `k` on, with `left` iterations to go, the loop asks no tools in iteration `k +
left` or later. -/
theorem awaits_loopStepwise {n : ℕ} (hn : k + left ≤ n) :
    (executor.loopStepwise lim loads system left k s).Awaits (GathersBefore n) := by
  induction left generalizing k s with
  | zero => exact .ofExcept _
  | succ left ih =>
    have hcall : (App.callModel (request system s)).Awaits (GathersBefore n) :=
      Coro.Awaits.bind (.perform trivial) fun _ => .perform trivial
    refine hcall.bind fun response => Coro.Awaits.bind (.ofExcept _) fun calls => ?_
    have htools : (awaitTools k calls).Awaits (GathersBefore n) := by
      unfold awaitTools
      split_ifs
      · trivial
      · apply Coro.Awaits.perform
        show k < n
        omega
    refine htools.bind fun outcomes => Coro.Awaits.bind (.ofExcept _) fun r => ?_
    cases r with
    | inl s' => exact ih (by omega)
    | inr result => trivial

/-- A run gathers tool calls only in iterations before `maxIterations` (`GathersBefore`), whatever
its model answers. -/
theorem awaits_runStepwise (task : PyStr) :
    (executor.runStepwise lim loads task).Awaits (GathersBefore executor.maxIterations) :=
  Coro.Awaits.bind (.ofExcept _) fun _ => Coro.Awaits.bind (.ofExcept _) fun _ =>
    awaits_loopStepwise (Nat.zero_add _).le

/-! ## Any call at any position -/

/-- The calls that `insisting` lists in an iteration. -/
def insisted (k position : ℕ) (idle call : PyValue) (iteration : ℕ) : List PyValue :=
  if iteration = k then List.replicate position idle ++ [call] else [idle]

/-- A model that has `call` made at a position of iteration `k`, and `idle` before that. -/
def insisting (k position : ℕ) (idle call : PyValue) : ℕ → ModelRequest → ModelResponse :=
  fun iteration _ => ⟨[], "agent".toList, 0, 0, "stop".toList,
    [(.str "tool_calls".toList, .list (insisted k position idle call iteration))]⟩

/-- In every iteration the model that insists on a call asks for some call, so no iteration ends the
run. -/
theorem insisted_ne_nil (iteration : ℕ) : insisted k position idle call iteration ≠ [] := by
  unfold insisted
  split_ifs
  · exact List.append_ne_nil_of_right_ne_nil _ (List.cons_ne_nil _ _)
  · exact List.cons_ne_nil _ _

/-- The calls that are found in its response are those that it insists on: they come in the
metadata. -/
theorem toolCalls_insisting (iteration : ℕ) (request : ModelRequest) :
    toolCalls loads (insisting k position idle call iteration request) =
      .ok (insisted k position idle call iteration) := by
  show (if (insisted k position idle call iteration).isEmpty then _ else _) = _
  rw [List.isEmpty_eq_false_iff.mpr (insisted_ne_nil iteration), if_neg Bool.false_ne_true]
  rfl

/-- An iteration with calls that are all `Usable` goes on to another one, and the agent is still
running there. -/
theorem exists_iteration_eq_inl (executor : AgentExecutor) (lim : Json.Limits)
    {response : ModelResponse} {calls : List PyValue}
    (hcalls : toolCalls loads response = .ok calls) (hne : calls ≠ [])
    (husable : ∀ j call, calls[j]? = some call → executor.Usable lim k j call)
    (hstatus : s.status = .RUNNING) :
    ∃ s', executor.iteration lim loads k response s = .ok (.inl s') ∧ s'.status = .RUNNING := by
  obtain ⟨hreadable, rfl⟩ := toolCalls_eq_ok_iff.mp hcalls
  obtain ⟨recorded, hrecorded⟩ :
      ∃ recorded, executor.Recorded lim k (callsOf loads response) recorded :=
    exists_recorded_iff.mpr fun j call hcall => exists_record_eq_ok_iff.mpr (husable j call hcall)
  exact ⟨_, (iteration_eq_ok_iff hstatus).mpr ⟨hreadable, .tools _ recorded hne hrecorded⟩, rfl⟩

/-- With a model that asks for the idle call in every iteration and for the given one in iteration
`k`, the loop gathers the calls of that iteration, the given one at its position, if it gets as far.
By induction on the iterations that are left. -/
theorem exists_gather_mem_trace_loop (hidle : ∀ j p, executor.Usable lim j p idle)
    (left : ℕ) {k₀ : ℕ} {s : LoopState} {sent : List ModelRequest} (hsent : sent.length = k₀)
    (hstatus : s.status = .RUNNING) (hle : k₀ ≤ k) (hlt : k < k₀ + left) :
    ∃ outcomes, ⟨.gather k (List.replicate position idle ++ [call]), .ok outcomes⟩ ∈
      (executor.loopStepwise lim loads system left k₀ s).trace
        (executor.solo (insisting k position idle call)) sent := by
  -- by induction on the iterations left; those in front of iteration `k` are idle
  induction left generalizing k₀ s sent with
  | zero => omega
  | succ left ih =>
    have hcalls : toolCalls loads (insisting k position idle call sent.length (request system s)) =
        .ok (insisted k position idle call sent.length) := toolCalls_insisting _ _
    have hne : insisted k position idle call k₀ ≠ [] := insisted_ne_nil k₀
    rw [hsent] at hcalls
    obtain ⟨outcomes, hawait, houtcomes⟩ := exists_run_awaitTools_solo executor
      (insisting k position idle call) k₀ (insisted k position idle call k₀)
      (sent ++ [request system s])
    have htrace : (awaitTools k₀ (insisted k position idle call k₀)).trace
        (executor.solo (insisting k position idle call)) (sent ++ [request system s]) =
          [⟨.gather k₀ (insisted k position idle call k₀), .ok outcomes⟩] := by
      unfold awaitTools at hawait ⊢
      rw [List.isEmpty_eq_false_iff.mpr hne, if_neg Bool.false_ne_true] at hawait ⊢
      rw [Coro.run_perform] at hawait
      rw [Coro.trace_perform, hawait]
    rw [loopStepwise, Coro.trace_bind_of_ok _ (run_callModel_solo _ sent), hsent, hcalls,
      Coro.trace_bind_of_ok _ (Coro.run_ofExcept _ _ _), Coro.trace_bind_of_ok _ hawait, htrace]
    obtain rfl | hne' := eq_or_ne k₀ k
    · refine ⟨outcomes, List.mem_append_right _ (List.mem_append_right _ ?_)⟩
      apply List.mem_append_left
      unfold insisted
      rw [if_pos rfl]
      exact List.mem_singleton_self _
    · have hidleCalls : insisted k position idle call k₀ = [idle] := if_neg hne'
      have husable : ∀ j call', (insisted k position idle call k₀)[j]? = some call' →
          executor.Usable lim k₀ j call' := by
        intro j call' hcall
        rw [hidleCalls] at hcall
        obtain rfl := List.mem_singleton.mp (List.mem_of_getElem? hcall)
        exact hidle k₀ j
      obtain ⟨s', hiteration, hstatus'⟩ :=
        exists_iteration_eq_inl executor lim hcalls hne husable hstatus
      rw [iteration_answering hcalls houtcomes, hiteration,
        Coro.trace_bind_of_ok _ (Coro.run_ofExcept _ _ _)]
      have hlength : (sent ++ [request system s]).length = k₀ + 1 := by
        rw [List.length_append, hsent, List.length_singleton]
      obtain ⟨later, hlater⟩ := ih hlength hstatus' (by omega) (by omega)
      exact ⟨later, List.mem_append_right _ (List.mem_append_right _ (List.mem_append_right _
        (List.mem_append_right _ hlater)))⟩

/-- A model can have any call made at any position of any iteration, if there is one that the loop
can go on from. -/
theorem exists_gather_mem_trace (loads : Loads) (position : ℕ) (call : PyValue)
    (hsystem : executor.buildSystemPrompt lim = .ok system)
    (hidle : ∀ j p, executor.Usable lim j p idle) (hk : k < executor.maxIterations)
    (task : PyStr) :
    ∃ outcomes, ⟨.gather k (List.replicate position idle ++ [call]), .ok outcomes⟩ ∈
      (executor.runStepwise lim loads task).trace
        (executor.solo (insisting k position idle call)) [] := by
  have hrunning : AgentStatus.CREATED.transition .RUNNING = .ok .RUNNING :=
    AgentStatus.transition_of_mem (by decide)
  unfold runStepwise
  rw [hsystem, Coro.trace_bind_of_ok _ (Coro.run_ofExcept _ _ _), hrunning,
    Coro.trace_bind_of_ok _ (Coro.run_ofExcept _ _ _), Coro.trace_ofExcept, Coro.trace_ofExcept]
  exact exists_gather_mem_trace_loop hidle _ rfl rfl (Nat.zero_le k) (by omega)

end AgentExecutor

namespace Gateway

variable {F Request : Type} (platform : Platform F Request) (env : Environ)

/-- The arguments of the call, if it is one of the HTTP tool. -/
def fetchArguments? (call : PyValue) : Option PyValue :=
  match call.getItem "name".toList, call.getItem "arguments".toList with
  | .ok (.str name), .ok arguments => if name = "http_get".toList then some arguments else none
  | _, _ => none

/-- The requests that are sent for the call at a position of iteration `k`. -/
def sentFor (k position : ℕ) (call : PyValue) : List Request :=
  match httpTool? env, fetchArguments? call with
  | some http, some arguments => (http.executeOn platform.net k position arguments).1
  -- no other tool sends any
  | _, _ => []

/-- A model can have the request sent for the call at a position of iteration `k`. -/
def Sends (lim : Json.Limits) (loads : Loads) (n k position : ℕ) (request : Request) : Prop :=
  ∃ generate task calls outcomes call,
    ⟨.gather k calls, .ok outcomes⟩ ∈ ((agent platform env n).runStepwise lim loads task).trace
      ((agent platform env n).solo generate) [] ∧
    calls[position]? = some call ∧ request ∈ sentFor platform env k position call

/-- The host of the URL is within an allowed domain. -/
def Allowed (url : PyValue) : Prop :=
  ∃ host, platform.net.hostname url = .ok host ∧
    ∃ d ∈ allowedDomains (env.get "ATHENA_ALLOWED_DOMAINS".toList), HTTPTool.Within (host.getD []) d

/-- The servers lead to the request from the URL. -/
def Led (k position : ℕ) (url headers : PyValue) (request : Request) : Prop :=
  ∃ first chain, platform.net.httpx.request url headers = .ok first ∧
    RedirectChain (platform.net.servers k position) chain ∧ [first] <+: chain ∧
    chain.length ≤ platform.net.httpx.maxRedirects + 1 ∧ request ∈ chain

variable {platform env} {lim : Json.Limits} {loads : Loads} {n k position : ℕ} {request : Request}
  {call arguments url headers : PyValue} {http : HTTPTool}

/-- A value without domains allows none. -/
theorem allowedDomains_eq_nil {raw : PyStr} (hraw : (PyStr.strip raw).isEmpty) :
    allowedDomains raw = [] := by
  have hspaces : ∀ c ∈ raw, PyStr.isSpace c :=
    (PyStr.strip_eq_nil_iff raw).mp (List.isEmpty_iff.mp hraw)
  have hcomma : ∀ c ∈ raw, (c == ',') = false := by
    intro c hc
    have hspace := hspaces c hc
    rw [beq_eq_false_iff_ne]
    rintro rfl
    exact absurd hspace (by decide)
  unfold allowedDomains
  rw [List.splitOn_eq_singleton_of_beq_eq_false hcomma,
    List.filter_cons_of_neg (by simpa using hraw)]
  rfl

/-- Where there is no HTTP tool, no URL is allowed: the value of `ATHENA_ALLOWED_DOMAINS` has no
domains in it. -/
theorem httpTool?_eq_none_of_allowed (hhttp : httpTool? env = none) :
    ¬Allowed platform env url := by
  rintro ⟨host, -, d, hd, -⟩
  unfold httpTool? at hhttp
  dsimp only at hhttp
  split_ifs at hhttp with hraw
  rw [allowedDomains_eq_nil hraw] at hd
  exact absurd hd List.not_mem_nil

/-- The check of the HTTP tool passes exactly the URLs that are `Allowed` by the environment. -/
theorem checkDomain_eq_ok_iff (hhttp : httpTool? env = some http) :
    http.checkDomain platform.net.hostname url = .ok () ↔ Allowed platform env url := by
  have hdomains : http.allowedDomains =
      allowedDomains (env.get "ATHENA_ALLOWED_DOMAINS".toList) := by
    unfold httpTool? at hhttp
    dsimp only at hhttp
    split_ifs at hhttp
    rw [← Option.some.inj hhttp]
  unfold HTTPTool.checkDomain Allowed
  rw [Except.bind_eq_ok_iff, ← hdomains]
  refine exists_congr fun host => and_congr_right fun _ => ?_
  rw [← HTTPTool.covers_iff_labels]
  dsimp only
  split_ifs with hcovers
  · exact iff_of_true rfl hcovers
  · exact iff_of_false nofun hcovers

/-- What is sent for a call of the HTTP tool is what its URL leads to (`Led`), if the URL is
`Allowed`; and nothing is sent otherwise. -/
theorem mem_sentFor_iff {items : PyDict} (hcall : fetchArguments? call = some (.dict items)) :
    request ∈ sentFor platform env k position call ↔
      ∃ url, items.get "url".toList = some url ∧ Allowed platform env url ∧
        Led platform k position url ((items.get "headers".toList).getD (.dict [])) request := by
  cases hhttp : httpTool? env with
  | none =>
    refine iff_of_false ?_ fun ⟨_, _, hallowed, _⟩ =>
      httpTool?_eq_none_of_allowed hhttp hallowed
    unfold sentFor
    rw [hhttp]
    exact List.not_mem_nil
  | some http =>
    have hsent : sentFor platform env k position call = (http.execute platform.net.hostname
        platform.net.httpx (platform.net.servers k position) items).1 := by
      unfold sentFor
      rw [hhttp, hcall]
      rfl
    rw [hsent]
    cases hurl : items.get "url".toList with
    | none =>
      rw [HTTPTool.execute_of_no_url hurl]
      simp
    | some url =>
      simp only [Option.some.injEq, exists_eq_left']
      rw [← checkDomain_eq_ok_iff hhttp]
      cases hcheck : http.checkDomain platform.net.hostname url with
      | error e =>
        rw [HTTPTool.execute_of_check_error hurl hcheck]
        simp
      | ok _ =>
        rw [HTTPTool.sent_of_check_ok hurl hcheck, Httpx.mem_get_iff]
        unfold Led
        exact ⟨fun ⟨chain, first, h⟩ => ⟨rfl, first, chain, h⟩,
          fun ⟨_, first, chain, h⟩ => ⟨chain, first, h⟩⟩

/-! ## Any run -/

/-- A call that asks for a tool that there is not. -/
def idle : PyValue :=
  .dict [(.str "name".toList, .str []), (.str "arguments".toList, .dict [])]

/-- A call that has a URL fetched. -/
def fetch (url headers : PyValue) : PyValue :=
  .dict [(.str "name".toList, .str "http_get".toList), (.str "arguments".toList,
    .dict [(.str "url".toList, url), (.str "headers".toList, headers)])]

/-- The loop goes on from a call of no tool: its exception has a text, which is sent back to the
model. -/
theorem usable_idle (j p : ℕ) : (agent platform env n).Usable lim j p idle := by
  refine ⟨⟨.str [], rfl⟩, ?_⟩
  have hraised : ∃ e, (buildToolRegistry platform env).get (.str []) = .error e := by
    cases hget : (buildToolRegistry platform env).get (.str []) with
    | error e => exact ⟨e, rfl⟩
    | ok tool =>
      obtain ⟨hname, -⟩ | ⟨_, -, hname, -⟩ := tool_cases hget
      · exact absurd hname (by decide)
      · exact absurd hname (by decide)
  obtain ⟨e, he⟩ := hraised
  have hexecute : (agent platform env n).executeTool j p idle = .error e := by
    show ((buildToolRegistry platform env).get (.str []) >>= _) = _
    rw [he]
    rfl
  rw [hexecute]
  exact usableResult_of_error (speaks_get _ _ e he)

/-- A request is sent only for a call of `http_get` whose arguments are a dict: every other call
comes to an exception before. -/
theorem exists_items_of_mem_sentFor (h : request ∈ sentFor platform env k position call) :
    ∃ items, fetchArguments? call = some (.dict items) := by
  unfold sentFor at h
  split at h
  · next http arguments _ hcall =>
    cases arguments with
    | dict items => exact ⟨items, hcall⟩
    | _ => exact absurd h List.not_mem_nil
  · exact absurd h List.not_mem_nil

/-- Whatever the model answers, a run of the gateway's agent `Sends` only requests that the servers
lead to (`Led`) from a URL whose host is within an allowed domain (`Allowed`); and a model can have
each of these sent, for the call at any position of any iteration that the agent is given. -/
theorem sends_iff (hlim : lim.Roomy) (platform : Platform F Request) (env : Environ)
    (loads : Loads) (n k position : ℕ) (request : Request) :
    Sends platform env lim loads n k position request ↔
      k < n ∧ ∃ url headers, Allowed platform env url ∧
        Led platform k position url headers request := by
  constructor
  · rintro ⟨generate, task, calls, outcomes, call, htrace, -, hsent⟩
    obtain ⟨items, hcall⟩ := exists_items_of_mem_sentFor hsent
    obtain ⟨url, -, hallowed, hled⟩ := (mem_sentFor_iff hcall).mp hsent
    exact ⟨(AgentExecutor.awaits_runStepwise task).forall_mem_trace _ _ _ htrace, url, _, hallowed,
      hled⟩
  · rintro ⟨hk, url, headers, hallowed, hled⟩
    obtain ⟨system, hsystem⟩ := exists_prompt hlim platform env n
    obtain ⟨outcomes, htrace⟩ := AgentExecutor.exists_gather_mem_trace loads position
      (fetch url headers) hsystem usable_idle hk []
    have hcall : fetchArguments? (fetch url headers) =
        some (.dict [(.str "url".toList, url), (.str "headers".toList, headers)]) := rfl
    refine ⟨_, [], _, outcomes, fetch url headers, htrace, ?_, ?_⟩
    · rw [List.getElem?_append_right (by rw [List.length_replicate]), List.length_replicate,
        Nat.sub_self]
      rfl
    · exact (mem_sentFor_iff hcall).mpr ⟨url, rfl, hallowed, hled⟩

/-- `sends_iff` for a domain with a redirect: a model can have the agent request a metadata endpoint
that no domain covers, for the fourth call of the last iteration. -/
theorem metadata_sends :
    let env : Environ := fun name =>
      if name = "ATHENA_ALLOWED_DOMAINS".toList then some "api.example.com".toList else none
    Sends machine env .thousand (fun _ => .error (.of .JSONDecodeError [])) 10 9 3
      "http://169.254.169.254/latest".toList := by
  intro env
  have hdomains : allowedDomains (env.get "ATHENA_ALLOWED_DOMAINS".toList) =
      ["api.example.com".toList] := by
    decide +kernel
  have hnil : RedirectChain HTTPTool.redirectingServers [] := fun _ _ _ hext => by
    simpa using hext.length_le
  have hone : RedirectChain HTTPTool.redirectingServers
      ([] ++ ["https://api.example.com/v1".toList]) :=
    redirectChain_concat.mpr ⟨hnil, fun hne => absurd rfl hne⟩
  have hchain : RedirectChain HTTPTool.redirectingServers
      (["https://api.example.com/v1".toList] ++ ["http://169.254.169.254/latest".toList]) :=
    redirectChain_concat.mpr ⟨hone, fun _ => rfl⟩
  refine (sends_iff roomy_thousand machine env _ 10 9 3 _).mpr ⟨by decide,
    .str "https://api.example.com/v1".toList, .dict [], ⟨some "api.example.com".toList, ?_, ?_⟩, ?_⟩
  · show Except.ok (some (HTTPTool.hostOf _)) = _
    decide +kernel
  · rw [hdomains]
    exact ⟨_, List.mem_singleton_self _, List.suffix_refl _⟩
  · exact ⟨_, _, rfl, hchain, ⟨_, rfl⟩, by decide, List.mem_append_right _ List.mem_cons_self⟩

end Gateway
