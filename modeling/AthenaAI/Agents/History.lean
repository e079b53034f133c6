import AthenaAI.Agents.Containment
import AthenaAI.ToMathlib.List

/-!
# The messages of a run

Every request to the model carries the conversation so far: the task, and a turn for each earlier
iteration, made of the message of the assistant and the messages about the results of its tool
calls.

* `Ordered arrange` says of the requests of a run that the two parts of every turn are put together
  by `arrange`. `callsFirst` puts the assistant before the results, `resultsFirst` the other way.
* `ordered_resultsFirst`: the requests of every run are ordered the second way.
* `wellOrdered_iff`: they are ordered the first way exactly if there is no second request.
-/

namespace AgentExecutor

variable (executor : AgentExecutor) (lim : Json.Limits) (loads : Loads)
  (generate : ℕ → ModelRequest → ModelResponse) (task : PyStr)

/-- The message of the user. -/
def taskMessage : Message := ⟨"user".toList, task, none⟩

/-- The message of the assistant. -/
def assistantMessage (response : ModelResponse) : Message :=
  ⟨"assistant".toList, response.content, none⟩

/-- The messages about the results of the tool calls in the response of iteration `k`: one for each
call, in the order of the calls. -/
def ToolMessages (k : ℕ) (response : ModelResponse) (messages : List Message) : Prop :=
  ∃ recorded, executor.Recorded lim k (callsOf loads response) recorded ∧
    messages = recorded.map Prod.snd

/-- How the message of the assistant and the tool messages make a turn. -/
abbrev Arrangement := Message → List Message → List Message

/-- The assistant speaks, and then come the results of what it has asked for. -/
def callsFirst : Arrangement := fun assistant tools => assistant :: tools

/-- The results come before the message that has asked for them. -/
def resultsFirst : Arrangement := fun assistant tools => tools ++ [assistant]

/-- The conversation `messages` is the task followed by one turn for each of the requests `earlier`,
in their order. -/
def Spoken (arrange : Arrangement) (earlier : List ModelRequest) (messages : List Message) : Prop :=
  ∃ turns : List (List Message), turns.length = earlier.length ∧
    messages = taskMessage task :: turns.flatten ∧
    ∀ i request, earlier[i]? = some request → ∃ tools,
      executor.ToolMessages lim loads i (generate i request) tools ∧
        turns[i]? = some (arrange (assistantMessage (generate i request)) tools)

/-- Every request carries the task and the turns of the requests before it. -/
def Ordered (arrange : Arrangement) (requests : List ModelRequest) : Prop :=
  ∀ k request, requests[k]? = some request →
    executor.Spoken lim loads generate task arrange (requests.take k) request.messages

/-- The messages of every request are well ordered: in every turn the assistant comes first. -/
def WellOrdered (requests : List ModelRequest) : Prop :=
  executor.Ordered lim loads generate task callsFirst requests

variable {executor lim loads generate task} {arrange : Arrangement} {requests : List ModelRequest}
  {sent : ModelRequest} {messages : List Message}

/-! ## Growing conversations -/

/-- Before the first request only the task has been said: `Spoken` of no requests is the message of
the task. -/
theorem spoken_nil_iff :
    executor.Spoken lim loads generate task arrange [] messages ↔
      messages = [taskMessage task] := by
  unfold Spoken
  refine ⟨?_, fun h => ⟨[], rfl, by rw [h]; rfl, fun i request hi => by simp at hi⟩⟩
  rintro ⟨turns, hlength, hmessages, -⟩
  obtain rfl := List.length_eq_zero_iff.mp hlength
  exact hmessages

/-- A turn is added at the end: the response to the request `sent` and the tool messages about its
calls, as `arrange` puts them. -/
theorem Spoken.concat (h : executor.Spoken lim loads generate task arrange requests messages)
    {tools : List Message}
    (htools : executor.ToolMessages lim loads requests.length (generate requests.length sent)
      tools) :
    executor.Spoken lim loads generate task arrange (requests ++ [sent])
      (messages ++ arrange (assistantMessage (generate requests.length sent)) tools) := by
  obtain ⟨turns, hlength, hmessages, hturns⟩ := h
  refine ⟨turns ++ [arrange (assistantMessage (generate requests.length sent)) tools],
    by simp [hlength], by simp [hmessages], fun i earlier hi => ?_⟩
  simp only [List.getElem?_concat_eq_some_iff, hlength]
  -- the turn in question is one of the others or the new one
  rcases List.getElem?_concat_eq_some_iff.mp hi with hold | ⟨rfl, rfl⟩
  · obtain ⟨tools', htools', hturn⟩ := hturns i earlier hold
    exact ⟨tools', htools', .inl hturn⟩
  · exact ⟨tools, htools, .inr ⟨rfl, rfl⟩⟩

/-- A request whose messages are those `Spoken` so far joins the requests before it, and they are
all `Ordered`. -/
theorem Ordered.concat (h : executor.Ordered lim loads generate task arrange requests)
    (hsent : executor.Spoken lim loads generate task arrange requests sent.messages) :
    executor.Ordered lim loads generate task arrange (requests ++ [sent]) := by
  intro k request' hk
  rcases List.getElem?_concat_eq_some_iff.mp hk with hold | ⟨rfl, rfl⟩
  · have hlt := (List.getElem?_eq_some_iff.mp hold).1
    rw [List.take_append_of_le_length hlt.le]
    exact h k request' hold
  · rw [List.take_left]
    exact hsent

/-! ## The order of the code -/

/-- The state in which an iteration begins, after the requests of those before it. -/
structure Underway (executor : AgentExecutor) (lim : Json.Limits) (loads : Loads)
    (generate : ℕ → ModelRequest → ModelResponse) (task : PyStr) (requests : List ModelRequest)
    (k : ℕ) (s : LoopState) : Prop where
  /-- The agent is running. -/
  running : s.status = .RUNNING
  /-- There was one request in each iteration. -/
  length_eq : requests.length = k
  /-- The requests are ordered. -/
  ordered : executor.Ordered lim loads generate task resultsFirst requests
  /-- The messages are the task and the turns so far. -/
  spoken : executor.Spoken lim loads generate task resultsFirst requests s.messages

/-- A run begins `Underway`: no request has been made, and the task is all that has been said. -/
theorem underway_start :
    executor.Underway lim loads generate task [] 0 (start .RUNNING task) where
  running := rfl
  length_eq := rfl
  ordered k request hk := by simp at hk
  spoken := spoken_nil_iff.mpr rfl

variable {k : ℕ} {s : LoopState}

/-- The request of an iteration carries the turns so far, with the tool messages in front of the
response (`resultsFirst`). -/
theorem Underway.ordered_concat (h : executor.Underway lim loads generate task requests k s)
    (system : PyStr) :
    executor.Ordered lim loads generate task resultsFirst (requests ++ [request system s]) :=
  h.ordered.concat h.spoken

/-- What an iteration that goes on adds to the conversation: the messages about its calls
(`ToolMessages`), and its own response behind them. -/
theorem exists_toolMessages_of_inl {s' : LoopState} {response : ModelResponse}
    (hstatus : s.status = .RUNNING)
    (h : executor.iteration lim loads k response s = .ok (.inl s')) :
    s'.status = .RUNNING ∧ ∃ tools, executor.ToolMessages lim loads k response tools ∧
      s'.messages = s.messages ++ resultsFirst (assistantMessage response) tools := by
  obtain ⟨-, hcase⟩ := (iteration_eq_ok_iff hstatus).mp h
  generalize hcalls : callsOf loads response = toolCalls at hcase
  cases hcase with
  | tools _ recorded _ hrecorded =>
    refine ⟨rfl, recorded.map Prod.snd, ⟨recorded, hcalls ▸ hrecorded, rfl⟩, ?_⟩
    rw [resultsFirst, ← List.append_assoc]
    rfl

/-- An iteration that goes on adds its turn, and the run is `Underway` with one more request. -/
theorem Underway.next {s' : LoopState} {system : PyStr}
    (h : executor.Underway lim loads generate task requests k s)
    (hnext : executor.iteration lim loads k (generate k (request system s)) s =
      .ok (.inl s')) :
    executor.Underway lim loads generate task (requests ++ [request system s])
      (k + 1) s' := by
  obtain ⟨hrunning, tools, htools, hmessages⟩ := exists_toolMessages_of_inl h.running hnext
  obtain rfl := h.length_eq
  refine ⟨hrunning, by simp, h.ordered_concat system, ?_⟩
  rw [hmessages]
  exact h.spoken.concat htools

variable (executor lim loads generate task)

/-- In the requests of every run, the results of the tool calls come before the message of the
assistant that asked for them. -/
theorem ordered_resultsFirst :
    executor.Ordered lim loads generate task resultsFirst
      (executor.run lim loads generate task).1 := by
  cases hsystem : executor.buildSystemPrompt lim with
  | error e =>
    rw [run_of_prompt_error _ _ _ hsystem]
    intro k request hk
    simp at hk
  | ok system =>
    rw [run_of_prompt _ _ _ hsystem]
    -- whichever way the loop ends, its last request is one more that is ordered
    refine BoundedLoop.run_spec (P := executor.Underway lim loads generate task)
      (Q := fun requests _ => executor.Ordered lim loads generate task resultsFirst requests)
      ?_ ?_ ?_ ?_ (Nat.zero_add _) underway_start
    · rintro requests k s _ s' - h hbody
      obtain ⟨rfl, hnext⟩ := Prod.mk.inj hbody
      exact h.next hnext
    · rintro requests k s _ result - h hbody
      obtain ⟨rfl, -⟩ := Prod.mk.inj hbody
      exact h.ordered_concat system
    · rintro requests k s _ e - h hbody
      obtain ⟨rfl, -⟩ := Prod.mk.inj hbody
      exact h.ordered_concat system
    · exact fun requests s h => h.ordered

/-! ## The order of the conversation -/

variable {executor lim loads generate task}

/-- The loop over the results writes messages in the role of a tool. -/
theorem role_of_record {toolCall result : PyValue} {entry : PyDict × Message}
    (h : record lim toolCall result = .ok entry) : entry.2.role = "tool".toList := by
  by_cases hexc : ∃ e, result = .exception e
  · obtain ⟨e, rfl⟩ := hexc
    obtain ⟨_, _, _, -, -, -, rfl⟩ := record_exception_eq_ok_iff.mp h
    rfl
  · obtain ⟨_, _, -, -, rfl⟩ :=
      (record_result_eq_ok_iff fun e he => hexc ⟨e, he⟩).mp h
    rfl

/-- The messages about the results are in the role of a tool, whatever the results are. -/
theorem role_of_toolMessages {response : ModelResponse} {tools : List Message}
    (h : executor.ToolMessages lim loads k response tools) :
    ∀ m ∈ tools, m.role = "tool".toList := by
  obtain ⟨recorded, ⟨hlength, hrecorded⟩, rfl⟩ := h
  intro m hm
  obtain ⟨entry, hentry, rfl⟩ := List.mem_map.mp hm
  obtain ⟨j, hj⟩ := List.mem_iff_getElem?.mp hentry
  -- the entry belongs to the call in its position
  have hlt : j < (callsOf loads response).length := by
    rw [← hlength]
    exact (List.getElem?_eq_some_iff.mp hj).1
  obtain ⟨entry', hentry', hrecord⟩ := hrecorded j _ (List.getElem?_eq_getElem hlt)
  rw [hj] at hentry'
  obtain rfl := Option.some.inj hentry'
  exact role_of_record hrecord

/-- There is a message for each call. -/
theorem ToolMessages.ne_nil {response : ModelResponse} {tools : List Message}
    (h : executor.ToolMessages lim loads k response tools)
    (hcalls : callsOf loads response ≠ []) : tools ≠ [] := by
  obtain ⟨recorded, ⟨hlength, -⟩, rfl⟩ := h
  intro hnil
  rw [List.map_eq_nil_iff.mp hnil] at hlength
  exact hcalls (List.length_eq_zero_iff.mp hlength.symm)

/-- The first turn of a conversation follows the task: the tool messages about the first response,
arranged with it, and then the rest. -/
theorem Spoken.first (h : executor.Spoken lim loads generate task arrange requests messages)
    (hfirst : requests[0]? = some sent) :
    ∃ tools rest, executor.ToolMessages lim loads 0 (generate 0 sent) tools ∧
      messages =
        taskMessage task :: (arrange (assistantMessage (generate 0 sent)) tools ++ rest) := by
  obtain ⟨turns, -, hmessages, hturns⟩ := h
  obtain ⟨tools, htools, hturn⟩ := hturns 0 sent hfirst
  cases turns with
  | nil => simp at hturn
  | cons turn turns =>
    obtain rfl := Option.some.inj hturn
    exact ⟨tools, turns.flatten, htools, hmessages⟩

/-- If calls come first (`callsFirst`), then the second message of every later request is that of
the assistant, and so not one of a tool. -/
theorem Spoken.role_second
    (h : executor.Spoken lim loads generate task callsFirst requests messages)
    (hne : requests ≠ []) :
    messages[1]?.map Message.role = some "assistant".toList := by
  obtain ⟨sent, requests, rfl⟩ := List.exists_cons_of_ne_nil hne
  obtain ⟨tools, rest, -, rfl⟩ := h.first rfl
  rfl

/-- A list with a second element has a first one. -/
private theorem take_one_ne_nil {α : Type} {l : List α} {a : α} (h : l[1]? = some a) :
    l.take 1 ≠ [] := by
  cases l with
  | nil => simp at h
  | cons b l => exact List.cons_ne_nil _ _

/-- An iteration goes on exactly if it goes through, that is, its response meets the `Guard`, and
there are tool calls in the response. -/
theorem exists_iteration_inl_iff {response : ModelResponse} (hstatus : s.status = .RUNNING) :
    (∃ s', executor.iteration lim loads k response s = .ok (.inl s')) ↔
      executor.Guard lim loads k response ∧ callsOf loads response ≠ [] := by
  rw [← exists_iteration_eq_ok_iff hstatus]
  simp only [iteration_eq_ok_iff hstatus]
  generalize callsOf loads response = toolCalls
  refine ⟨fun ⟨s', hschema, hcase⟩ => ⟨⟨_, hschema, hcase⟩, ?_⟩, ?_⟩
  · cases hcase with
    | tools _ _ hne _ => exact hne
  · rintro ⟨⟨r, hschema, hcase⟩, hne⟩
    cases hcase with
    | final => exact absurd rfl hne
    | tools _ recorded _ hrecorded => exact ⟨_, hschema, .tools _ recorded hne hrecorded⟩

variable (executor lim loads generate task)

/-- The response to the first request of a run. -/
def firstResponse (system : PyStr) : ModelResponse :=
  generate 0 (request system (start .RUNNING task))

/-- The first request of a run has the system prompt and the task, and nothing else. -/
theorem getElem?_zero_run {system : PyStr} (hsystem : executor.buildSystemPrompt lim = .ok system)
    (hmax : 0 < executor.maxIterations) :
    (executor.run lim loads generate task).1[0]? = some (request system (start .RUNNING task)) := by
  obtain ⟨left, hleft⟩ := Nat.exists_eq_add_one.mpr hmax
  rw [run_of_prompt _ _ _ hsystem, hleft]
  obtain ⟨rest, hrest⟩ := BoundedLoop.run_succ_outputs left 0 (start .RUNNING task)
  rw [hrest]
  rfl

/-- There is a second request exactly if a second iteration is allowed and the first response has
tool calls on which the run does not fail. -/
theorem one_lt_length_run_iff :
    1 < (executor.run lim loads generate task).1.length ↔
      ∃ system, executor.buildSystemPrompt lim = .ok system ∧ 1 < executor.maxIterations ∧
        executor.Guard lim loads 0 (firstResponse generate task system) ∧
          callsOf loads (firstResponse generate task system) ≠ [] := by
  cases hsystem : executor.buildSystemPrompt lim with
  | error e =>
    rw [run_of_prompt_error _ _ _ hsystem]
    simp
  | ok system =>
    rw [run_of_prompt _ _ _ hsystem, BoundedLoop.one_lt_length_run_iff]
    simp only [Except.ok.injEq, exists_eq_left']
    exact and_congr_right fun _ => exists_iteration_inl_iff rfl

/-- The requests of a run are `WellOrdered` exactly if there is no second one: a single iteration is
allowed, or the first response has no tool calls, or the run fails on them, since that response does
not meet `Guard`. Wherever there is a second request, it has the tool messages in front of the
response that asked for them. -/
theorem wellOrdered_iff :
    executor.WellOrdered lim loads generate task (executor.run lim loads generate task).1 ↔
      ∀ system, executor.buildSystemPrompt lim = .ok system → 1 < executor.maxIterations →
        executor.Guard lim loads 0 (firstResponse generate task system) →
          callsOf loads (firstResponse generate task system) = [] := by
  have hsecond := executor.one_lt_length_run_iff lim loads generate task
  have hresults := executor.ordered_resultsFirst lim loads generate task
  refine Iff.trans (b := ¬1 < (executor.run lim loads generate task).1.length)
    ⟨fun hwell hlength => ?_, fun hlength k sent hk => ?_⟩ ?_
  · -- in the second request the results come second, and the assistant should
    obtain ⟨system, hsystem, hmax, -, hcalls⟩ := hsecond.mp hlength
    have hfirst := executor.getElem?_zero_run lim loads generate task hsystem (by omega)
    have hget := List.getElem?_eq_getElem hlength
    obtain ⟨tools, rest, htools, hmessages⟩ := (hresults 1 _ hget).first
      ((List.getElem?_take_of_lt Nat.one_pos).trans hfirst)
    obtain ⟨m, tools, rfl⟩ := List.exists_cons_of_ne_nil (htools.ne_nil hcalls)
    have hassistant := (hwell 1 _ hget).role_second (take_one_ne_nil hget)
    have hrole := role_of_toolMessages htools m List.mem_cons_self
    rw [hmessages] at hassistant
    change some m.role = _ at hassistant
    rw [hrole] at hassistant
    exact absurd hassistant (by decide)
  · cases k with
    | zero => exact spoken_nil_iff.mpr (spoken_nil_iff.mp (hresults 0 sent hk))
    | succ k =>
      have hlt := (List.getElem?_eq_some_iff.mp hk).1
      omega
  · rw [hsecond]
    simp only [not_exists, not_and, not_not]

/-! ### One call -/

/-- A tool that computes one product. -/
def productTool : Tool where
  name := "calculator".toList
  description := "Evaluate an arithmetic expression.".toList
  inputSchema := .dict [(.str "type".toList, .str "object".toList)]
  execute _ _ _ := .ok (.int 42)

/-- The JSON text of a call of that tool. -/
def productCall : PyStr :=
  "\x7b\"name\": \"calculator\", \"arguments\": \x7b\"expression\": \"6*7\"\x7d\x7d".toList

/-- `json.loads` on that text. -/
def productLoads : Loads := fun text =>
  if text = productCall then
    .ok (.dict [(.str "name".toList, .str "calculator".toList), (.str "arguments".toList,
      .dict [(.str "expression".toList, .str "6*7".toList)])])
  else .error (.of .JSONDecodeError "Expecting value: line 1 column 1 (char 0)".toList)

/-- A model that asks for the product and then answers. -/
def productModel : ℕ → ModelRequest → ModelResponse := fun k _ =>
  ⟨if k = 0 then toolCallPrefix ++ [' '] ++ productCall else "The answer is 42.".toList,
    "agent".toList, 10, 10, "stop".toList, []⟩

/-- In the second request the result of the call stands before the message that asked for it, and
that message is the last one: `executor.run` has appended the tool messages first. -/
theorem product_not_wellOrdered :
    let executor : AgentExecutor := ⟨ToolRegistry.empty.register productTool, 10⟩
    let requests := (executor.run ⟨1000, by decide, 4300⟩ productLoads productModel
      "What is 6 * 7?".toList).1
    requests.map (fun r => r.messages.map Message.role) =
        [["user".toList], ["user".toList, "tool".toList, "assistant".toList]] ∧
      ¬executor.WellOrdered ⟨1000, by decide, 4300⟩ productLoads productModel
        "What is 6 * 7?".toList requests := by
  intro executor requests
  have hroles : requests.map (fun r => r.messages.map Message.role) =
      [["user".toList], ["user".toList, "tool".toList, "assistant".toList]] := by
    decide +kernel
  have hsecond : requests[1]?.map (fun r => r.messages.map Message.role) =
      some ["user".toList, "tool".toList, "assistant".toList] := by
    rw [← List.getElem?_map, hroles]
    rfl
  obtain ⟨second, hget, hmessages⟩ := Option.map_eq_some_iff.mp hsecond
  refine ⟨hroles, fun hwell => ?_⟩
  -- the second message of the second request is not the assistant's
  have hassistant := (hwell 1 second hget).role_second (take_one_ne_nil hget)
  rw [← List.getElem?_map, hmessages] at hassistant
  exact absurd hassistant (by decide)

end AgentExecutor
