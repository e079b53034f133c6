import AthenaAI.Agents.Containment
import AthenaAI.ToMathlib.List

/-!
# The trace of a run

What the result of a run says of it: how many iterations there were, what was answered and called in
each of them, and how the run ended.

* `slots` are the slots of `asyncio.gather` when the calls complete in a given order.
  `gather_eq_of_perm`: in the end they hold the same results for every order.
* `StepOf` says that a step of the trace is true of an iteration, whatever the order in which its
  calls complete, and `TraceOf` that a result is true of a run.
* `traceOf_run`: the result of every run is true of it.
* `faithful_iff`: a run returns a result that is true of it exactly if its system prompt can be
  written and every response that it gets meets the guard.
-/

namespace AgentExecutor

variable (executor : AgentExecutor) (lim : Json.Limits) (loads : Loads)
  (generate : ℕ → ModelRequest → ModelResponse) (task : PyStr)

/-! ## Completion orders -/

/-- The slots of `asyncio.gather` when the calls complete in the given order: each call puts its
outcome into its own slot. -/
def slots (k : ℕ) (toolCalls : List PyValue) (order : List ℕ) : List (Option PyValue) :=
  order.foldl (fun slots j => slots.set j
      (toolCalls[j]?.map fun toolCall => returned (executor.executeTool k j toolCall)))
    (List.replicate toolCalls.length none)

/-- When all calls have completed, in whatever order, the `slots` hold what `gather` returns: each
result is put where its call stands, not when it comes. -/
theorem gather_eq_of_perm {k : ℕ} {toolCalls : List PyValue} {order : List ℕ}
    (h : order.Perm (List.range toolCalls.length)) :
    executor.slots k toolCalls order = (executor.gather k toolCalls).map some := by
  apply List.ext_getElem?
  intro i
  rw [slots, List.getElem?_foldl_set (fun j => toolCalls[j]?.map fun toolCall =>
    returned (executor.executeTool k j toolCall))]
  simp only [h.mem_iff, List.mem_range, List.length_replicate, and_self, List.getElem?_map, gather,
    List.getElem?_mapIdx, List.getElem?_replicate]
  -- every call has completed, so no slot is empty
  by_cases hlt : i < toolCalls.length
  · rw [if_pos hlt, List.getElem?_eq_getElem hlt]
    rfl
  · rw [if_neg hlt, if_neg hlt, List.getElem?_eq_none (Nat.le_of_not_lt hlt)]
    rfl

/-! ## True traces -/

/-- The step is true of iteration `i`: it has the number of the iteration, the response to its
request, the tool calls in that response, and for each of them an entry of its own. -/
structure StepOf (requests : List ModelRequest) (i : ℕ) (step : AgentStep) : Prop where
  /-- The steps are numbered. -/
  iteration_eq : step.iteration = i
  /-- The response and the tool calls are those of the iteration. -/
  response : ∃ request, requests[i]? = some request ∧
    step.modelResponse = (generate i request).content ∧
    step.toolCalls = callsOf loads (generate i request)
  /-- Every tool call has its own entry, with its name and its outcome. -/
  surfaced : executor.Surfaced step
  /-- In whatever order the calls complete, their outcomes are in their own slots in the end. -/
  slots_eq : ∀ order : List ℕ, order.Perm (List.range step.toolCalls.length) →
    ∀ j toolCall, step.toolCalls[j]? = some toolCall →
      (executor.slots step.iteration step.toolCalls order)[j]? =
        some (some (returned (executor.executeTool step.iteration j toolCall)))

/-- The result is true of a run with the given requests. -/
structure TraceOf (requests : List ModelRequest) (result : AgentResult) : Prop where
  /-- The iterations are counted. -/
  totalIterations_eq : result.totalIterations = result.steps.length
  /-- Every iteration asks the model once. -/
  requests_length : requests.length = result.steps.length
  /-- There are not too many iterations. -/
  le_maxIterations : result.totalIterations ≤ executor.maxIterations
  /-- Every step is true of its iteration. -/
  stepOf : ∀ i step, result.steps[i]? = some step → executor.StepOf loads generate requests i step
  /-- Only the last step may be without tool calls. -/
  toolCalls_ne_nil : ∀ i step, result.steps[i]? = some step → i + 1 < result.steps.length →
    step.toolCalls ≠ []
  /-- A run is completed by a response without tool calls. -/
  completed_iff : result.status = .COMPLETED ↔
    ∃ step, result.steps.getLast? = some step ∧ step.toolCalls = []
  /-- Any other run has failed, after all the iterations that it was allowed. -/
  failed : result.status ≠ .COMPLETED →
    result.status = .FAILED ∧ result.steps.length = executor.maxIterations
  /-- The answer is the last response. -/
  finalAnswer_eq : ∀ step, result.steps.getLast? = some step →
    result.finalAnswer = step.modelResponse

/-- The run returns, so that no transition has raised, with a result that is true of it. -/
def Faithful : Prop :=
  ∃ result, (executor.run lim loads generate task).2 = .ok result ∧
    executor.TraceOf loads generate (executor.run lim loads generate task).1 result

variable {executor lim loads generate task} {requests : List ModelRequest} {k : ℕ} {s : LoopState}
  {toolCall : PyValue}

/-! ## Steps -/

/-- The slot of a call holds its outcome when all calls have completed, in whatever order: this is
`gather_eq_of_perm` for one call. -/
theorem getElem?_slots {toolCalls : List PyValue} {order : List ℕ}
    (horder : order.Perm (List.range toolCalls.length)) {j : ℕ}
    (hj : toolCalls[j]? = some toolCall) :
    (executor.slots k toolCalls order)[j]? =
      some (some (returned (executor.executeTool k j toolCall))) := by
  rw [gather_eq_of_perm executor horder, gather, List.getElem?_map, List.getElem?_mapIdx, hj]
  rfl

/-- A step that is true of the requests stays so (`StepOf`) when further requests are made. -/
theorem StepOf.append {i : ℕ} {step : AgentStep}
    (h : executor.StepOf loads generate requests i step) (more : List ModelRequest) :
    executor.StepOf loads generate (requests ++ more) i step where
  iteration_eq := h.iteration_eq
  response := by
    obtain ⟨request, hrequest, hstep⟩ := h.response
    refine ⟨request, ?_, hstep⟩
    rw [List.getElem?_append_left (List.getElem?_eq_some_iff.mp hrequest).1, hrequest]
  surfaced := h.surfaced
  slots_eq := h.slots_eq

/-- The state in which an iteration begins, with the trace of those before it. -/
structure Traced (executor : AgentExecutor) (loads : Loads)
    (generate : ℕ → ModelRequest → ModelResponse) (requests : List ModelRequest) (k : ℕ)
    (s : LoopState) : Prop where
  /-- The agent is running. -/
  running : s.status = .RUNNING
  /-- There was one request in each iteration. -/
  requests_length : requests.length = k
  /-- There is one step for each iteration. -/
  steps_length : s.steps.length = k
  /-- Every step is true of its iteration. -/
  stepOf : ∀ i step, s.steps[i]? = some step → executor.StepOf loads generate requests i step
  /-- All iterations so far had tool calls. -/
  toolCalls_ne_nil : ∀ step ∈ s.steps, step.toolCalls ≠ []

/-- A run begins `Traced`: with the empty trace, and before any request. -/
theorem traced_start : executor.Traced loads generate [] 0 (start .RUNNING task) where
  running := rfl
  requests_length := rfl
  steps_length := rfl
  stepOf i step hi := by simp [start] at hi
  toolCalls_ne_nil step hstep := absurd hstep List.not_mem_nil

/-- The step that an iteration adds is true of it (`StepOf`), and so are those before it, which
speak of earlier requests. -/
theorem Traced.stepOf_concat {request : ModelRequest} {step : AgentStep}
    (h : executor.Traced loads generate requests k s) (hiteration : step.iteration = k)
    (hresponse : step.modelResponse = (generate k request).content)
    (hcalls : step.toolCalls = callsOf loads (generate k request))
    (hsurfaced : executor.Surfaced step) :
    ∀ i step', (s.steps ++ [step])[i]? = some step' →
      executor.StepOf loads generate (requests ++ [request]) i step' := by
  intro i step' hi
  rcases List.getElem?_concat_eq_some_iff.mp hi with hold | ⟨rfl, rfl⟩
  · exact (h.stepOf i step' hold).append [request]
  · rw [h.steps_length]
    refine ⟨hiteration, ⟨request, ?_, hresponse, hcalls⟩, hsurfaced,
      fun _ horder _ _ => getElem?_slots horder⟩
    exact List.getElem?_concat_eq_some_iff.mpr (Or.inr ⟨h.requests_length.symm, rfl⟩)

/-- An iteration that goes on keeps `Traced`: it adds one request, and one step that is true of
it. -/
theorem Traced.next {request : ModelRequest} {s' : LoopState}
    (h : executor.Traced loads generate requests k s)
    (hnext : executor.iteration lim loads k (generate k request) s = .ok (.inl s')) :
    executor.Traced loads generate (requests ++ [request]) (k + 1) s' := by
  obtain ⟨-, hcase⟩ := (iteration_eq_ok_iff h.running).mp hnext
  generalize hcalls : callsOf loads (generate k request) = toolCalls at hcase
  cases hcase with
  | tools _ recorded hne hrecorded =>
    refine ⟨rfl, by simp [h.requests_length], by simp [h.steps_length], ?_, ?_⟩
    · exact h.stepOf_concat rfl rfl hcalls.symm (surfaced_of_recorded hrecorded)
    · intro step hstep
      rcases List.mem_append.mp hstep with hold | hnew
      · exact h.toolCalls_ne_nil step hold
      · rw [List.mem_singleton.mp hnew]
        exact hne

/-! ## Results -/

/-- The result of an iteration without tool calls is true of the run (`TraceOf`): it is completed,
and its answer is that of the last response. -/
theorem Traced.traceOf_of_inr {request : ModelRequest} {result : AgentResult}
    (h : executor.Traced loads generate requests k s) (hlt : k < executor.maxIterations)
    (hresult : executor.iteration lim loads k (generate k request) s = .ok (.inr result)) :
    executor.TraceOf loads generate (requests ++ [request]) result := by
  obtain ⟨-, hcase⟩ := (iteration_eq_ok_iff h.running).mp hresult
  generalize hcalls : callsOf loads (generate k request) = toolCalls at hcase
  cases hcase with
  | final =>
    have hsurfaced : executor.Surfaced ⟨k, (generate k request).content, [], []⟩ :=
      ⟨rfl, fun j toolCall hj => by simp at hj⟩
    refine ⟨by simp [h.steps_length], by simp [h.requests_length, h.steps_length], hlt,
      h.stepOf_concat rfl rfl hcalls.symm hsurfaced, fun i step hi hnotLast => ?_, ?_,
      fun hne => absurd rfl hne, fun step hstep => ?_⟩
    -- the step without calls is the last one
    · rcases List.getElem?_concat_eq_some_iff.mp hi with hold | ⟨rfl, -⟩
      · exact h.toolCalls_ne_nil step (List.mem_of_getElem? hold)
      · simp at hnotLast
    · exact iff_of_true rfl ⟨_, List.getLast?_concat, rfl⟩
    · rw [List.getLast?_concat] at hstep
      rw [← Option.some.inj hstep]

/-- The result of a run that has used up its iterations is true of it (`TraceOf`): it has failed,
and its answer is the last response of the trace. -/
theorem Traced.traceOf_of_giveUp {result : AgentResult}
    (h : executor.Traced loads generate requests executor.maxIterations s)
    (hresult : executor.giveUp s = .ok result) :
    executor.TraceOf loads generate requests result := by
  have hfailed : s.status.transition .FAILED = .ok .FAILED :=
    AgentStatus.transition_of_mem (by rw [h.running]; decide)
  unfold giveUp at hresult
  rw [hfailed] at hresult
  obtain rfl := Except.ok.inj hresult
  have hlast : ∀ step, s.steps.getLast? = some step → step.toolCalls ≠ [] :=
    fun step hstep => h.toolCalls_ne_nil step (List.mem_of_getLast? hstep)
  refine ⟨h.steps_length.symm, h.requests_length.trans h.steps_length.symm, le_rfl, h.stepOf,
    fun i step hi _ => h.toolCalls_ne_nil step (List.mem_of_getElem? hi), ?_,
    fun _ => ⟨rfl, h.steps_length⟩, fun step hstep => ?_⟩
  · refine iff_of_false nofun ?_
    rintro ⟨step, hstep, hnil⟩
    exact hlast step hstep hnil
  · have hlast : s.steps.getLast? = some step := hstep
    simp only [hlast]

variable (executor lim loads generate task)

/-- Whatever a run returns is true of it (`TraceOf`): `Traced` is an invariant of the loop, and each
of its two ends makes such a result. -/
theorem traceOf_run {result : AgentResult}
    (h : (executor.run lim loads generate task).2 = .ok result) :
    executor.TraceOf loads generate (executor.run lim loads generate task).1 result := by
  cases hsystem : executor.buildSystemPrompt lim with
  | error e =>
    rw [run_of_prompt_error _ _ _ hsystem] at h
    cases h
  | ok system =>
    rw [run_of_prompt _ _ _ hsystem] at h ⊢
    revert result
    refine BoundedLoop.run_spec (P := executor.Traced loads generate)
      (Q := fun requests outcome => ∀ {result}, outcome = .ok result →
        executor.TraceOf loads generate requests result)
      ?_ ?_ ?_ ?_ (Nat.zero_add _) traced_start
    · intro requests k s _ s' _ h hbody
      obtain ⟨rfl, hnext⟩ := Prod.mk.inj hbody
      exact h.next hnext
    · intro requests k s _ result hlt h hbody result' hresult
      obtain ⟨rfl, hnext⟩ := Prod.mk.inj hbody
      obtain rfl := Except.ok.inj hresult
      exact h.traceOf_of_inr hlt hnext
    -- a run that raises has no result
    · exact fun _ _ _ _ _ _ _ _ result hresult => nomatch hresult
    · exact fun requests s h result hresult => h.traceOf_of_giveUp hresult

/-- A run returns a result that is true of it (`Faithful`: status, answer, number of steps, and in
each step the response and the calls of that iteration) exactly if its system prompt can be written
and every response that it gets, in the states that the loop `Reaches`, meets the `Guard`. -/
theorem faithful_iff :
    executor.Faithful lim loads generate task ↔
      ∃ system, executor.buildSystemPrompt lim = .ok system ∧
        ∀ k s, BoundedLoop.Reaches (executor.body lim loads generate system) 0
            (start .RUNNING task) k s → k < executor.maxIterations →
          executor.Guard lim loads k (generate k (request system s)) := by
  rw [← exists_run_eq_ok_iff]
  unfold Faithful
  exact exists_congr fun result =>
    and_iff_left_of_imp (executor.traceOf_run lim loads generate task)

/-! ### A number with too many digits -/

variable {executor lim loads generate task}

/-- The response with a directive and nothing else. -/
def directiveResponse (text : PyStr) : ModelResponse :=
  ⟨toolCallPrefix ++ ' ' :: text, "agent".toList, 10, 10, "stop".toList, []⟩

/-- A directive of digits on which `json.loads` raises an exception that is not expected of it ends
the iteration with that exception. -/
theorem iteration_of_digits {text : PyStr} {e : PyExc} (hdigits : ∀ c ∈ text, c = '1')
    (hloads : loads text = .error e) (htype : e.type ≠ .JSONDecodeError) :
    executor.iteration lim loads k (directiveResponse text) s = .error e := by
  have hdirective : directive? (toolCallPrefix ++ ' ' :: text) = some text := by
    rw [directive?_toolCallPrefix_append, PyStr.strip_eq_self]
    · intro c hc
      rw [hdigits c (List.mem_of_mem_head? hc)]
      decide
    · intro c hc
      rw [hdigits c (List.mem_of_getLast? hc)]
      decide
  -- the text is one line, and that line is the directive
  have hlines : PyStr.splitlines (toolCallPrefix ++ ' ' :: text) =
      [toolCallPrefix ++ ' ' :: text] :=
    splitlines_directive fun c hc => by
      rw [hdigits c hc]
      decide
  have hparse : parseToolCalls loads (toolCallPrefix ++ ' ' :: text) = .error e := by
    unfold parseToolCalls
    rw [hlines, List.foldlM_cons, parseLine_of_error hdirective hloads htype]
    rfl
  have hcalls : toolCalls loads (directiveResponse text) = .error e := hparse
  unfold iteration
  rw [hcalls]
  rfl

/-- An exception in the first iteration ends the run: nothing is caught between the iterations. -/
theorem run_of_first_error {system : PyStr} {e : PyExc}
    (hsystem : executor.buildSystemPrompt lim = .ok system) (hmax : 0 < executor.maxIterations)
    (h : executor.iteration lim loads 0 (generate 0 (request system (start .RUNNING task)))
      (start .RUNNING task) = .error e) :
    (executor.run lim loads generate task).2 = .error e := by
  obtain ⟨left, hleft⟩ := Nat.exists_eq_add_one.mpr hmax
  rw [run_of_prompt _ _ _ hsystem, hleft]
  exact BoundedLoop.run_of_error h

/-- A number that the interpreter does not convert. -/
def hugeNumber : PyStr := List.replicate 4301 '1'

/-- What converting it raises. -/
def hugeError : PyExc :=
  .of .ValueError ("Exceeds the limit (4300 digits) for integer string conversion: value has " ++
    "4301 digits; use sys.set_int_max_str_digits() to increase the limit").toList

/-- `json.loads` on numbers. -/
def numberLoads : Loads := fun text =>
  if text = [] ∨ ¬text.all Char.isDigit then
    .error (.of .JSONDecodeError "Expecting value: line 1 column 1 (char 0)".toList)
  else if 4300 < text.length then .error hugeError
  else .ok (.int (text.foldl (fun n c => 10 * n + (c.toNat - 48)) 0))

/-- On a long text of ones it raises. -/
theorem numberLoads_of_long {text : PyStr} (hdigits : ∀ c ∈ text, c = '1')
    (hlong : 4300 < text.length) : numberLoads text = .error hugeError := by
  have hall : text.all Char.isDigit := by
    rw [List.all_eq_true]
    intro c hc
    rw [hdigits c hc]
    decide
  unfold numberLoads
  rw [if_neg, if_pos hlong]
  rintro (rfl | hnot)
  · exact absurd hlong (Nat.not_lt_zero _)
  · exact hnot hall

/-- A model that writes the number in a directive. -/
def numberModel : ℕ → ModelRequest → ModelResponse := fun _ _ => directiveResponse hugeNumber

/-- A directive with a number that is too long for `json.loads` ends the run with an exception, and
there is no result that could be true of it. -/
theorem hugeNumber_not_faithful :
    let executor : AgentExecutor := ⟨ToolRegistry.empty, 10⟩
    (executor.run ⟨1000, by decide, 4300⟩ numberLoads numberModel "Hello".toList).2 =
        .error hugeError ∧
      ¬executor.Faithful ⟨1000, by decide, 4300⟩ numberLoads numberModel "Hello".toList := by
  intro executor
  have hdigits : ∀ c ∈ hugeNumber, c = '1' := fun c hc => (List.mem_replicate.mp hc).2
  have hlength : hugeNumber.length = 4301 := List.length_replicate
  have hloads : numberLoads hugeNumber = .error hugeError :=
    numberLoads_of_long hdigits (by rw [hlength]; decide)
  have hrun : (executor.run ⟨1000, by decide, 4300⟩ numberLoads numberModel "Hello".toList).2 =
      .error hugeError :=
    run_of_first_error rfl (by decide)
      (iteration_of_digits hdigits hloads (by decide))
  refine ⟨hrun, ?_⟩
  rintro ⟨result, hresult, -⟩
  rw [hrun] at hresult
  cases hresult

end AgentExecutor
