import AthenaAI.Agents.Executor
import AthenaAI.Runtime.Pipeline

/-!
# The agent loop, one await at a time

`AgentExecutor.run` again, as a coroutine that awaits the model and the tools, for runs that share
the model with other requests.

* `AgentExecutor.runStepwise` is the coroutine. The outcomes of the tools come from the environment
  instead of the registry; `AgentExecutor.answering` puts them back into it, so that an iteration is
  the same function as before.
* `AgentExecutor.run_runStepwise`: alone with a model and with the tools of the registry, the
  coroutine sends the requests that `AgentExecutor.run` sends and has its outcome.
-/

/-- The registry, with tools that answer the call at a position with a given outcome. -/
def ToolRegistry.answering (registry : ToolRegistry) (outcomes : ℕ → Except PyExc PyValue) :
    ToolRegistry where
  tools := registry.tools.map fun t => { t with execute := fun _ position _ => outcomes position }
  nodup := by
    rw [List.map_map]
    exact registry.nodup

namespace AgentExecutor

variable (executor : AgentExecutor) (lim : Json.Limits) (loads : Loads)

/-- The executor, with tools that answer the call at a position with a given outcome. -/
def answering (outcomes : ℕ → Except PyExc PyValue) : AgentExecutor :=
  { executor with registry := executor.registry.answering outcomes }

/-- The outcomes of the tools in an iteration. One without tool calls awaits none. -/
def awaitTools (k : ℕ) (toolCalls : List PyValue) : App (ℕ → Except PyExc PyValue) :=
  if toolCalls.isEmpty then pure fun _ => .ok .none else App.perform (.gather k toolCalls)

/-- The loop of `AgentExecutor.run`, with `left` iterations to go before iteration `k`. -/
def loopStepwise (system : PyStr) : (left k : ℕ) → LoopState → App AgentResult
  | 0, _, s => Coro.ofExcept (executor.giveUp s)
  | left + 1, k, s => do
    let response ← App.callModel (request system s)
    let outcomes ← awaitTools k (← Coro.ofExcept (toolCalls loads response))
    match ← Coro.ofExcept ((executor.answering outcomes).iteration lim loads k response s) with
    | .inl s' => loopStepwise system left (k + 1) s'
    | .inr result => return result

/-- `AgentExecutor.run`, one await at a time. -/
def runStepwise (task : PyStr) : App AgentResult := do
  let system ← Coro.ofExcept (executor.buildSystemPrompt lim)
  let status ← Coro.ofExcept (AgentStatus.CREATED.transition .RUNNING)
  executor.loopStepwise lim loads system executor.maxIterations 0 (start status task)

/-! ## A run on its own -/

/-- A model and the tools of the registry, for one run. The state are the requests so far. -/
def solo (generate : ℕ → ModelRequest → ModelResponse) :
    Handler AppOp AppOp.Resp PyExc (List ModelRequest)
  | .generate request, sent => (.ok (), sent ++ [request])
  | .response, sent =>
    match sent.getLast? with
    | some request => (.ok (generate (sent.length - 1) request), sent)
    | none => (.error (.of .RuntimeError "no call".toList), sent)
  | .gather k calls, sent =>
    (.ok fun position => executor.executeTool k position (calls.getD position .none), sent)
  -- an agent run awaits nothing else
  | .stream _, sent => (.ok [], sent)
  | .acquire, sent | .release, sent | .streamEnd, sent | .send _, sent | .count _ _, sent
  | .countIterations _, sent => (.ok (), sent)

variable {executor lim loads} {generate : ℕ → ModelRequest → ModelResponse} {k : ℕ}

/-- A tool of the registry `answering` is found under the same names as before, and answers what it
is told to. -/
theorem get_answering (registry : ToolRegistry) (outcomes : ℕ → Except PyExc PyValue)
    (name : PyValue) :
    (registry.answering outcomes).get name =
      (registry.get name).map fun t =>
        { t with execute := fun _ position _ => outcomes position } := by
  have hlookup : (registry.answering outcomes).lookup name =
      (registry.lookup name).map fun t =>
        { t with execute := fun _ position _ => outcomes position } := by
    cases name <;> try rfl
    rw [ToolRegistry.lookup, ToolRegistry.answering, List.find?_map]
    rfl
  unfold ToolRegistry.get
  cases name.unhashable with
  | some className => rfl
  | none =>
    rw [hlookup]
    cases registry.lookup name <;> rfl

/-- An executor that is told what its tools do behaves, for a call whose outcome it is told, as one
with these tools. -/
theorem executeTool_answering {outcomes : ℕ → Except PyExc PyValue} {position : ℕ}
    {toolCall : PyValue} (h : outcomes position = executor.executeTool k position toolCall) :
    (executor.answering outcomes).executeTool k position toolCall =
      executor.executeTool k position toolCall := by
  unfold executeTool at h ⊢
  cases hname : toolCall.getItem "name".toList with
  | error e => rfl
  | ok name =>
    rw [hname] at h
    change outcomes position = (executor.registry.get name >>= _) at h
    show ((executor.registry.answering outcomes).get name >>= _) =
      (executor.registry.get name >>= _)
    rw [get_answering]
    cases htool : executor.registry.get name with
    | error e => rfl
    | ok tool =>
      rw [htool] at h
      cases hargs : toolCall.getItem "arguments".toList with
      | error e => rfl
      | ok args =>
        rw [hargs] at h
        exact h

/-- An iteration of the executor that is told what its tools do is the iteration of the executor
itself, if it is told what they would do. -/
theorem iteration_answering {outcomes : ℕ → Except PyExc PyValue} {response : ModelResponse}
    {s : LoopState} {calls : List PyValue} (hcalls : toolCalls loads response = .ok calls)
    (h : ∀ position toolCall, calls[position]? = some toolCall →
      outcomes position = executor.executeTool k position toolCall) :
    (executor.answering outcomes).iteration lim loads k response s =
      executor.iteration lim loads k response s := by
  have hgather : (executor.answering outcomes).gather k calls = executor.gather k calls := by
    refine List.ext_getElem? fun position => ?_
    rw [gather, gather, List.getElem?_mapIdx, List.getElem?_mapIdx]
    cases hcall : calls[position]? with
    | none => rfl
    | some toolCall =>
      rw [Option.map_some, Option.map_some, executeTool_answering (h position toolCall hcall)]
  unfold iteration
  rw [hcalls]
  show (if calls.isEmpty then _ else _) = (if calls.isEmpty then _ else _)
  rw [hgather]

/-- In the environment `solo`, a call of the model is sent, and answered by `generate`, which sees
how many requests were sent before. -/
theorem run_callModel_solo (request : ModelRequest) (sent : List ModelRequest) :
    (App.callModel request).run (executor.solo generate) sent =
      (.ok (generate sent.length request), sent ++ [request]) := by
  unfold App.callModel
  rw [Coro.run_bind_of_ok _ (Coro.run_perform (executor.solo generate) (.generate request) sent),
    Coro.run_perform]
  simp only [solo, List.getLast?_concat, List.length_append, List.length_singleton,
    Nat.add_sub_cancel]

/-- In the environment `solo`, the tools of the registry answer the calls of an iteration, each its
own. -/
theorem exists_run_awaitTools_solo (executor : AgentExecutor)
    (generate : ℕ → ModelRequest → ModelResponse) (k : ℕ) (calls : List PyValue)
    (sent : List ModelRequest) :
    ∃ outcomes, (awaitTools k calls).run (executor.solo generate) sent = (.ok outcomes, sent) ∧
      ∀ position toolCall, calls[position]? = some toolCall →
        outcomes position = executor.executeTool k position toolCall := by
  cases calls with
  | nil => exact ⟨_, rfl, fun position toolCall h => nomatch h⟩
  | cons call calls =>
    refine ⟨_, Coro.run_perform _ _ _, fun position toolCall h => ?_⟩
    show executor.executeTool k position ((call :: calls).getD position .none) = _
    rw [List.getD_eq_getElem?_getD, h, Option.getD_some]

/-- From iteration `k` on, the coroutine does what `BoundedLoop.run` does: it sends the same
requests, and comes to the same end. By induction on the iterations that are left. -/
theorem run_loopStepwise (system : PyStr) (left : ℕ) (s : LoopState) {sent : List ModelRequest}
    (hsent : sent.length = k) :
    (executor.loopStepwise lim loads system left k s).run (executor.solo generate) sent =
      ((BoundedLoop.run (executor.body lim loads generate system) executor.giveUp left k s).2,
        sent ++
          (BoundedLoop.run (executor.body lim loads generate system) executor.giveUp left k
            s).1) := by
  induction left generalizing k s sent with
  | zero =>
    show (Coro.ofExcept (executor.giveUp s)).run _ sent = (executor.giveUp s, sent ++ [])
    rw [Coro.run_ofExcept, List.append_nil]
  | succ left ih =>
    rw [loopStepwise, Coro.run_bind_of_ok _ (run_callModel_solo _ sent), hsent, BoundedLoop.run,
      body]
    cases hcalls : toolCalls loads (generate k (request system s)) with
    | error e =>
      have hiteration : executor.iteration lim loads k (generate k (request system s)) s =
          .error e := by
        rw [iteration, hcalls]
        rfl
      rw [Coro.run_bind_of_error _ (Coro.run_ofExcept _ _ _), hiteration]
    | ok calls =>
      obtain ⟨outcomes, hawait, houtcomes⟩ :=
        exists_run_awaitTools_solo executor generate k calls (sent ++ [request system s])
      rw [Coro.run_bind_of_ok _ (Coro.run_ofExcept _ _ _), Coro.run_bind_of_ok _ hawait,
        iteration_answering hcalls houtcomes]
      cases executor.iteration lim loads k (generate k (request system s)) s with
      | error e => rfl
      | ok r =>
        rw [Coro.run_bind_of_ok _ (Coro.run_ofExcept _ _ _)]
        cases r with
        | inr result => rfl
        | inl s' =>
          have hlength : (sent ++ [request system s]).length = k + 1 := by
            rw [List.length_append, hsent, List.length_singleton]
          show (executor.loopStepwise lim loads system left (k + 1) s').run _ _ = _
          rw [ih s' hlength, List.append_assoc]
          rfl

/-- On its own, the coroutine that the gateway awaits sends the requests of `run` and has its
outcome. -/
theorem run_runStepwise (task : PyStr) :
    (executor.runStepwise lim loads task).run (executor.solo generate) [] =
      ((executor.run lim loads generate task).2, (executor.run lim loads generate task).1) := by
  unfold runStepwise run
  cases executor.buildSystemPrompt lim with
  | error e => rfl
  | ok system =>
    rw [Coro.run_bind_of_ok _ (Coro.run_ofExcept _ _ _)]
    cases AgentStatus.CREATED.transition .RUNNING with
    | error e => rfl
    | ok status =>
      rw [Coro.run_bind_of_ok _ (Coro.run_ofExcept _ _ _)]
      exact run_loopStepwise system executor.maxIterations (start status task) rfl

end AgentExecutor
