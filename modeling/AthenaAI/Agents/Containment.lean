import AthenaAI.Agents.Executor

/-!
# Tool outcomes and the run

When a run of `AgentExecutor` returns, and what it then says of the tool calls.

* `Contained`: the run returns a result in whose trace every tool call has its own entry, with the
  name of the tool and the outcome of the call.
* `Usable` is the condition under which the loop can go on from the outcome of a call, `Guard` the
  condition on the calls of a response.
* `contained_iff`: a run is contained exactly if its system prompt can be written and every response
  that it gets meets the guard.
-/

namespace AgentExecutor

/-- The entry of `tool_results` that belongs to a call with the given outcome. -/
def OwnEntry (toolCall : PyValue) (outcome : Except PyExc PyValue) (entry : PyDict) : Prop :=
  ∃ name, toolCall.getItem "name".toList = .ok name ∧
    match returned outcome with
    | .exception e =>
      ∃ text, e.str = .ok text ∧
        entry = [(.str "name".toList, name), (.str "error".toList, .str text)]
    | result => entry = [(.str "name".toList, name), (.str "result".toList, result)]

variable (executor : AgentExecutor) (lim : Json.Limits) (loads : Loads)
  (generate : ℕ → ModelRequest → ModelResponse) (task : PyStr)

/-- Every tool call of a step has its own entry among the results. -/
def Surfaced (step : AgentStep) : Prop :=
  step.toolResults.length = step.toolCalls.length ∧
    ∀ j toolCall, step.toolCalls[j]? = some toolCall →
      ∃ entry, step.toolResults[j]? = some entry ∧
        OwnEntry toolCall (executor.executeTool step.iteration j toolCall) entry

/-- The run returns, and every tool call has its own entry in the trace. -/
def Contained : Prop :=
  ∃ result, (executor.run lim loads generate task).2 = .ok result ∧
    ∀ step ∈ result.steps, executor.Surfaced step

/-! ## The condition on a response -/

/-- The result can be sent back to the model: an exception with a text, or a value with a payload,
which is a string or what `json.dumps` writes. -/
def UsableResult : PyValue → Prop
  | .exception e => ∃ text, e.str = .ok text
  | result => ∃ text, payload lim result = .ok text

/-- The loop can go on from the call: it has a name, and its result can be sent back. -/
def Usable (k j : ℕ) (toolCall : PyValue) : Prop :=
  (∃ name, toolCall.getItem "name".toList = .ok name) ∧
    UsableResult lim (returned (executor.executeTool k j toolCall))

/-- The tool calls of a response can be read, and the loop can go on from each of them. -/
def Guard (k : ℕ) (response : ModelResponse) : Prop :=
  Readable loads response ∧
    ∀ j toolCall, (callsOf loads response)[j]? = some toolCall → executor.Usable lim k j toolCall

/-! ## One call -/

variable {executor lim loads generate task} {k : ℕ} {response : ModelResponse} {s : LoopState}
  {toolCall result : PyValue}

/-- What `record` makes of an exception: an entry with its text, and a message with the same text as
JSON. It fails if `str` of the exception does, or if the call has no name. -/
theorem record_exception_eq_ok_iff {e : PyExc} {entry : PyDict × Message} :
    record lim toolCall (.exception e) = .ok entry ↔
      ∃ text content name, e.str = .ok text ∧
        Json.dumps lim (.dict [(.str "error".toList, .str text)]) = .ok content ∧
        toolCall.getItem "name".toList = .ok name ∧
        entry = ([(.str "name".toList, name), (.str "error".toList, .str text)],
          ⟨"tool".toList, content, some name⟩) := by
  simp only [record, Except.bind_eq_ok_iff]
  constructor
  · rintro ⟨text, htext, content, hcontent, name, hname, hentry⟩
    exact ⟨text, content, name, htext, hcontent, hname, (Except.ok.inj hentry).symm⟩
  · rintro ⟨text, content, name, htext, hcontent, hname, rfl⟩
    exact ⟨text, htext, content, hcontent, name, hname, rfl⟩

/-- What `record` makes of any other result: an entry with the result itself, and a message with its
`payload`. It fails if there is no payload, or if the call has no name. -/
theorem record_result_eq_ok_iff {result : PyValue} {entry : PyDict × Message}
    (hresult : ∀ e, result ≠ .exception e) :
    record lim toolCall result = .ok entry ↔
      ∃ content name, payload lim result = .ok content ∧
        toolCall.getItem "name".toList = .ok name ∧
        entry = ([(.str "name".toList, name), (.str "result".toList, result)],
          ⟨"tool".toList, content, some name⟩) := by
  unfold record
  split
  · next e => exact absurd rfl (hresult e)
  · simp only [Except.bind_eq_ok_iff]
    constructor
    · rintro ⟨content, hcontent, name, hname, hentry⟩
      exact ⟨content, name, hcontent, hname, (Except.ok.inj hentry).symm⟩
    · rintro ⟨content, name, hcontent, hname, rfl⟩
      exact ⟨content, hcontent, name, hname, rfl⟩

/-- The loop over the results gets past a call exactly if it has a name and its result can be sent
back. -/
theorem exists_record_eq_ok_iff :
    (∃ entry, record lim toolCall result = .ok entry) ↔
      (∃ name, toolCall.getItem "name".toList = .ok name) ∧ UsableResult lim result := by
  unfold UsableResult
  split
  · next e =>
    simp only [record_exception_eq_ok_iff]
    constructor
    · rintro ⟨_, text, content, name, htext, -, hname, -⟩
      exact ⟨⟨name, hname⟩, text, htext⟩
    · rintro ⟨⟨name, hname⟩, text, htext⟩
      -- the text of an exception can always be written as JSON
      obtain ⟨content, hcontent⟩ := Json.exists_dumps_singleton lim "error".toList text
      exact ⟨_, text, content, name, htext, hcontent, hname, rfl⟩
  · next hresult =>
    simp only [record_result_eq_ok_iff hresult]
    constructor
    · rintro ⟨_, content, name, hcontent, hname, -⟩
      exact ⟨⟨name, hname⟩, content, hcontent⟩
    · rintro ⟨⟨name, hname⟩, content, hcontent⟩
      exact ⟨_, content, name, hcontent, hname, rfl⟩

/-- What the loop adds to `tool_results` is the entry of the call (`OwnEntry`): its name, and its
own result or the text of its own exception. -/
theorem ownEntry_of_record {outcome : Except PyExc PyValue} {entry : PyDict × Message}
    (h : record lim toolCall (returned outcome) = .ok entry) :
    OwnEntry toolCall outcome entry.1 := by
  unfold OwnEntry
  split
  · next e heq =>
    rw [heq] at h
    obtain ⟨text, _, name, htext, -, hname, rfl⟩ := record_exception_eq_ok_iff.mp h
    exact ⟨name, hname, text, htext, rfl⟩
  · next hresult =>
    obtain ⟨_, name, -, hname, rfl⟩ := (record_result_eq_ok_iff hresult).mp h
    exact ⟨name, hname, rfl⟩

/-! ## One iteration -/

/-- In a running agent, an iteration goes through, to the next one or to a result, exactly if the
response meets the `Guard`. -/
theorem exists_iteration_eq_ok_iff (hstatus : s.status = .RUNNING) :
    (∃ r, executor.iteration lim loads k response s = .ok r) ↔
      executor.Guard lim loads k response := by
  simp only [iteration_eq_ok_iff hstatus, exists_and_left, Guard, Usable,
    ← exists_record_eq_ok_iff, ← exists_recorded_iff]
  refine and_congr_right fun _ => ?_
  generalize callsOf loads response = toolCalls
  constructor
  -- what a list of calls comes to, without calls nothing
  · rintro ⟨_, hcase⟩
    cases hcase with
    | final => exact ⟨[], rfl, fun j tc hcall => by simp at hcall⟩
    | tools _ recorded _ hrecorded => exact ⟨recorded, hrecorded⟩
  · rintro ⟨recorded, hrecorded⟩
    cases toolCalls with
    | nil => exact ⟨_, .final⟩
    | cons call calls => exact ⟨_, .tools _ recorded (List.cons_ne_nil _ _) hrecorded⟩

/-- The agent is running, and every tool call so far has its own entry. -/
structure Good (executor : AgentExecutor) (s : LoopState) : Prop where
  /-- The agent is running. -/
  running : s.status = .RUNNING
  /-- Every tool call has its own entry. -/
  surfaced : ∀ step ∈ s.steps, executor.Surfaced step

/-- A run begins with a state that is `Good`: there is no step yet, and the agent is running. -/
theorem good_start : executor.Good (start .RUNNING task) :=
  ⟨rfl, fun _ hstep => absurd hstep List.not_mem_nil⟩

/-- The results of a step are the entries of its calls, in order, so the step is `Surfaced`. -/
theorem surfaced_of_recorded {toolCalls : List PyValue} {recorded : List (PyDict × Message)}
    (h : executor.Recorded lim k toolCalls recorded) :
    executor.Surfaced ⟨k, response.content, toolCalls, recorded.map Prod.fst⟩ := by
  obtain ⟨hlength, hall⟩ := h
  refine ⟨by rw [List.length_map, hlength], fun j toolCall hcall => ?_⟩
  obtain ⟨entry, hentry, hrecord⟩ := hall j toolCall hcall
  exact ⟨entry.1, by rw [List.getElem?_map, hentry]; rfl, ownEntry_of_record hrecord⟩

/-- An iteration that goes on keeps the agent running, and adds a step to the trace in which every
tool call has its own entry. -/
theorem good_of_iteration {s' : LoopState} (hgood : executor.Good s)
    (h : executor.iteration lim loads k response s = .ok (.inl s')) : executor.Good s' := by
  obtain ⟨-, hcase⟩ := (iteration_eq_ok_iff hgood.running).mp h
  generalize callsOf loads response = toolCalls at hcase
  cases hcase with
  | tools _ recorded _ hrecorded =>
    refine ⟨rfl, fun step hstep => ?_⟩
    -- the steps so far, and the one that is added
    rcases List.mem_append.mp hstep with hold | hnew
    · exact hgood.surfaced step hold
    · rw [List.mem_singleton.mp hnew]
      exact surfaced_of_recorded hrecorded

/-- The final answer comes with the trace so far, whose steps are `Surfaced`, and a step without
tool calls, which is so as well. -/
theorem surfaced_of_iteration {result : AgentResult} (hgood : executor.Good s)
    (h : executor.iteration lim loads k response s = .ok (.inr result)) :
    ∀ step ∈ result.steps, executor.Surfaced step := by
  obtain ⟨-, hcase⟩ := (iteration_eq_ok_iff hgood.running).mp h
  generalize callsOf loads response = toolCalls at hcase
  cases hcase with
  | final =>
    intro step hstep
    rcases List.mem_append.mp hstep with hold | hnew
    · exact hgood.surfaced step hold
    · rw [List.mem_singleton.mp hnew]
      exact ⟨rfl, fun j tc hcall => by simp at hcall⟩

/-- A running agent can `giveUp`, since `FAILED` is a transition of `RUNNING`, and it does so with
the trace so far. -/
theorem exists_giveUp (hstatus : s.status = .RUNNING) :
    ∃ result, executor.giveUp s = .ok result ∧ result.steps = s.steps := by
  have hfailed : s.status.transition .FAILED = .ok .FAILED :=
    AgentStatus.transition_of_mem (by rw [hstatus]; decide)
  unfold giveUp
  rw [hfailed]
  exact ⟨_, rfl, rfl⟩

/-! ## A whole run -/

variable (executor lim loads generate task)

/-- A run returns exactly if its system prompt can be written and every response that it gets meets
the guard. -/
theorem exists_run_eq_ok_iff :
    (∃ result, (executor.run lim loads generate task).2 = .ok result) ↔
      ∃ system, executor.buildSystemPrompt lim = .ok system ∧
        ∀ k s, BoundedLoop.Reaches (executor.body lim loads generate system) 0
            (start .RUNNING task) k s → k < executor.maxIterations →
          executor.Guard lim loads k (generate k (request system s)) := by
  cases hsystem : executor.buildSystemPrompt lim with
  | error e =>
    rw [run_of_prompt_error _ _ _ hsystem]
    simp
  | ok system =>
    rw [run_of_prompt _ _ _ hsystem]
    simp only [Except.ok.injEq, exists_eq_left']
    have hreturns : (∃ result, (BoundedLoop.run (executor.body lim loads generate system)
          executor.giveUp executor.maxIterations 0 (start .RUNNING task)).2 = .ok result) ↔
        ∀ k s, BoundedLoop.Reaches (executor.body lim loads generate system) 0
            (start .RUNNING task) k s → k < 0 + executor.maxIterations →
          executor.Guard lim loads k (generate k (request system s)) := by
      refine BoundedLoop.run_ok_iff (P := fun _ s => executor.Good s) ?_ ?_ ?_ good_start
      · exact fun k s hgood => exists_iteration_eq_ok_iff hgood.running
      · exact fun k s s' hgood hbody => good_of_iteration hgood hbody
      · exact fun k s hgood => (executor.exists_giveUp hgood.running).imp fun _ h => h.1
    rw [Nat.zero_add] at hreturns
    exact hreturns

/-- In the trace of a run that returns, every tool call has its own entry: `Good` is an invariant of
the loop, and each of the two ends keeps the steps. -/
theorem surfaced_of_run {result : AgentResult}
    (h : (executor.run lim loads generate task).2 = .ok result) :
    ∀ step ∈ result.steps, executor.Surfaced step := by
  cases hsystem : executor.buildSystemPrompt lim with
  | error e =>
    rw [run_of_prompt_error _ _ _ hsystem] at h
    cases h
  | ok system =>
    rw [run_of_prompt _ _ _ hsystem] at h
    -- what holds of every result that can be made holds of the one that is returned
    refine BoundedLoop.run_post (P := fun _ s => executor.Good s)
      (Q := fun result => ∀ step ∈ result.steps, executor.Surfaced step) ?_ ?_ ?_ good_start h
    · exact fun k s s' hgood hbody => good_of_iteration hgood hbody
    · exact fun k s result hgood hbody => surfaced_of_iteration hgood hbody
    · intro k s result hgood hgiveUp
      obtain ⟨result', hok, hsteps⟩ := executor.exists_giveUp hgood.running
      obtain rfl := Except.ok.inj (hok.symm.trans hgiveUp)
      exact hsteps ▸ hgood.surfaced

/-- A run returns, with every tool call in its own entry of the trace (`Contained`), exactly if its
system prompt can be written and every response that it gets, in the states that the loop `Reaches`
from the start, meets the `Guard`: its calls can be read, and each of them has a name and a result
that can be sent back to the model, an exception with a text or a value that is a string or that
`json.dumps` writes. -/
theorem contained_iff :
    executor.Contained lim loads generate task ↔
      ∃ system, executor.buildSystemPrompt lim = .ok system ∧
        ∀ k s, BoundedLoop.Reaches (executor.body lim loads generate system) 0
            (start .RUNNING task) k s → k < executor.maxIterations →
          executor.Guard lim loads k (generate k (request system s)) := by
  rw [← exists_run_eq_ok_iff]
  unfold Contained
  -- of what is returned, the trace says what it should
  exact exists_congr fun result =>
    and_iff_left_of_imp (executor.surfaced_of_run lim loads generate task)

/-! ### A row with a date -/

/-- A tool whose answer is a row of a table, with a date in it. -/
def rowTool : Tool where
  name := "sql_query".toList
  description := "Execute read-only SQL SELECT queries against the database.".toList
  inputSchema := .dict [(.str "type".toList, .str "object".toList)]
  execute _ _ _ := .ok (.list [.dict [(.str "at".toList, .object "datetime".toList)]])

/-- The JSON text of a call of that tool. -/
def rowCall : PyStr :=
  "\x7b\"name\": \"sql_query\", \"arguments\": \x7b\"query\": \"SELECT now() AS at\"\x7d\x7d".toList

/-- `json.loads` on that text. -/
def rowLoads : Loads := fun text =>
  if text = rowCall then
    .ok (.dict [(.str "name".toList, .str "sql_query".toList), (.str "arguments".toList,
      .dict [(.str "query".toList, .str "SELECT now() AS at".toList)])])
  else .error (.of .JSONDecodeError "Expecting value: line 1 column 1 (char 0)".toList)

/-- A model that asks for the row. -/
def rowModel : ℕ → ModelRequest → ModelResponse := fun _ _ =>
  ⟨toolCallPrefix ++ [' '] ++ rowCall, "agent".toList, 10, 10, "stop".toList, []⟩

/-- A tool that returns a row with a date in it aborts the run: the call has gone through, so that
nothing turns an exception into a message, and `json.dumps` raises a `TypeError` on the result. -/
theorem dateRow_not_contained :
    let executor : AgentExecutor := ⟨ToolRegistry.empty.register rowTool, 10⟩
    (executor.run ⟨1000, by decide, 4300⟩ rowLoads rowModel "What time is it?".toList).2 =
        .error (Json.notSerializable "datetime".toList) ∧
      ¬executor.Contained ⟨1000, by decide, 4300⟩ rowLoads rowModel "What time is it?".toList := by
  intro executor
  have hrun : (executor.run ⟨1000, by decide, 4300⟩ rowLoads rowModel
      "What time is it?".toList).2 = .error (Json.notSerializable "datetime".toList) := by
    rw [← Except.error?_eq_some_iff]
    decide +kernel
  -- the run has raised, so there is no result
  refine ⟨hrun, ?_⟩
  rintro ⟨result, hresult, -⟩
  rw [hrun] at hresult
  cases hresult

end AgentExecutor
