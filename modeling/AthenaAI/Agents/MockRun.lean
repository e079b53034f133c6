import AthenaAI.Agents.History
import AthenaAI.Agents.Stepwise
import AthenaAI.Agents.Trace
import AthenaAI.Models.Base

/-!
# An agent over the mock model

The gateway runs its agent over a `MockModel` unless it is given an API key. This model echoes the
last message of the user, which in every request of a run is the task.

* `echoText` is what the model says. The calls that are found in it are those on the lines of the
  task after the first one (`directives_echoText`).
* `lastUserMsg_of_mem`: every request of a run has the task for its last message of the user, since
  the loop adds messages of the assistant and of tools only.
* `run_mock`: a run over this model is completed at once if there are no such calls. If there are
  some, they are executed in every iteration, and the run fails.
-/

namespace AgentExecutor

/-- What the mock model says about a task. -/
def echoText (model : MockModel) (task : PyStr) : PyStr :=
  ['['] ++ model.name ++ "] Echo: ".toList ++ task

variable {executor : AgentExecutor} {lim : Json.Limits} {loads : Loads} {model : MockModel}
  {task : PyStr}

/-! ## What the model says -/

/-- What the mock model says starts with a bracket, and so does its first line, which is therefore
no directive. -/
theorem directive?_of_bracket (line : PyStr) : directive? ('[' :: line) = none := by
  have hstrip : PyStr.strip ('[' :: line) = '[' :: line.rdropWhile PyStr.isSpace := by
    have hfront : ('[' :: line).dropWhile PyStr.isSpace = '[' :: line :=
      List.dropWhile_cons_of_neg (by decide)
    rw [PyStr.strip, hfront, ← List.singleton_append, PyStr.append_rdropWhile (by decide)]
    rfl
  have hstart : PyStr.startswith (PyStr.strip ('[' :: line)) toolCallPrefix = false := by
    rw [hstrip]
    rfl
  rw [directive?, hstart, if_neg Bool.false_ne_true]

/-- The directives in what the model says are those on the lines of the task, but for the first: its
prefix stands before that line, and ends none. -/
theorem directives_echoText (hname : ∀ c ∈ model.name, PyStr.isLineBreak c = false)
    (task : PyStr) :
    directives (echoText model task) = task.splitlines.tail.filterMap directive? := by
  have hbefore : ∀ c ∈ ['['] ++ model.name ++ "] Echo: ".toList, PyStr.isLineBreak c = false := by
    have hecho : "] Echo: ".toList.all (fun c => PyStr.isLineBreak c = false) = true := by decide
    rw [List.forall_mem_append, List.forall_mem_append, List.forall_mem_singleton]
    exact ⟨⟨by decide, hname⟩, fun c hc => of_decide_eq_true (List.all_eq_true.mp hecho c hc)⟩
  obtain ⟨first, hlines⟩ := PyStr.exists_splitlines_append (by simp) hbefore task
  rw [directives, echoText, hlines]
  exact List.filterMap_cons_none (directive?_of_bracket _)

/-! ## The requests -/

/-- No message after the task is one of the user: the turns of a run are of the assistant and of the
tools. -/
theorem role_ne_user_of_spoken {generate : ℕ → ModelRequest → ModelResponse}
    {requests : List ModelRequest} {messages : List Message}
    (h : executor.Spoken lim loads generate task resultsFirst requests messages) :
    ∃ later, messages = taskMessage task :: later ∧ ∀ m ∈ later, m.role ≠ "user".toList := by
  obtain ⟨turns, hlength, rfl, hturns⟩ := h
  refine ⟨turns.flatten, rfl, fun m hm => ?_⟩
  obtain ⟨turn, hturn, hm⟩ := List.mem_flatten.mp hm
  obtain ⟨i, hi, hget⟩ := List.getElem_of_mem hturn
  obtain ⟨tools, htools, hsome⟩ := hturns i requests[i] (List.getElem?_eq_getElem (hlength ▸ hi))
  rw [List.getElem?_eq_getElem hi, hget] at hsome
  rw [Option.some.inj hsome, resultsFirst, List.mem_append, List.mem_singleton] at hm
  rcases hm with hm | rfl
  · rw [role_of_toolMessages htools m hm]
    decide
  · show "assistant".toList ≠ "user".toList
    decide

/-- In every request of a run the last message of the user is the task, so this is what the model
echoes every time. -/
theorem lastUserMsg_of_mem {generate : ℕ → ModelRequest → ModelResponse} {request : ModelRequest}
    (h : request ∈ (executor.run lim loads generate task).1) :
    MockModel.lastUserMsg request = task := by
  obtain ⟨k, hk⟩ := List.getElem?_of_mem h
  obtain ⟨later, hmessages, hroles⟩ :=
    role_ne_user_of_spoken (ordered_resultsFirst executor lim loads generate task k request hk)
  have hnone : later.reverse.find? (fun m => m.role = "user".toList) = none := by
    rw [List.find?_eq_none]
    exact fun m hm => by simpa using hroles m (List.mem_reverse.mp hm)
  have hfind : request.messages.reverse.find? (fun m => m.role = "user".toList) =
      some (taskMessage task) := by
    rw [hmessages, List.reverse_cons, List.find?_append, hnone, Option.none_or]
    rfl
  rw [MockModel.lastUserMsg, hfind]
  rfl

/-! ## Runs -/

/-- The calls on the lines of a task after the first one. -/
def laterCalls (loads : Loads) (task : PyStr) : List PyValue :=
  (task.splitlines.tail.filterMap directive?).filterMap (call? loads)

/-- What the model answers in a run, to whichever request, and the calls that are found in it: the
`echoText` of the task, and its `laterCalls`. -/
theorem generate_of_mem (hname : ∀ c ∈ model.name, PyStr.isLineBreak c = false)
    {generate : ℕ → ModelRequest → ModelResponse} {request : ModelRequest}
    (h : request ∈ (executor.run lim loads generate task).1) :
    (model.generate request).content = echoText model task ∧
      callsOf loads (model.generate request) = laterCalls loads task := by
  have hcontent : (model.generate request).content = echoText model task := by
    rw [MockModel.generate, lastUserMsg_of_mem h]
    rfl
  refine ⟨hcontent, ?_⟩
  show (directives (model.generate request).content).filterMap (call? loads) = _
  rw [hcontent, directives_echoText hname]
  rfl

/-- A run over the mock model that returns, if there is an iteration at all and the name of the
model is on one line: in every iteration the model has echoed the task (`echoText`), and the calls
on its lines after the first one (`laterCalls`) have been executed. The run is completed, by its
first iteration, exactly if there are no such calls; else it goes on to the last iteration and
fails. The coroutine `runStepwise` that the gateway awaits returns the same. -/
theorem run_mock {result : AgentResult}
    (hname : ∀ c ∈ model.name, PyStr.isLineBreak c = false) (hmax : 0 < executor.maxIterations)
    (h : (executor.run lim loads (fun _ => model.generate) task).2 = .ok result) :
    result.finalAnswer = echoText model task ∧
      (∀ step ∈ result.steps, step.modelResponse = echoText model task ∧
        step.toolCalls = laterCalls loads task) ∧
      (laterCalls loads task = [] → result.status = .COMPLETED ∧ result.steps.length = 1) ∧
      (laterCalls loads task ≠ [] →
        result.status = .FAILED ∧ result.steps.length = executor.maxIterations) ∧
      ((executor.runStepwise lim loads task).run (executor.solo fun _ => model.generate) []).1 =
        .ok result := by
  have htrace := traceOf_run executor lim loads (fun _ => model.generate) task h
  have hsteps : ∀ step ∈ result.steps, step.modelResponse = echoText model task ∧
      step.toolCalls = laterCalls loads task := by
    intro step hstep
    obtain ⟨i, hi⟩ := List.getElem?_of_mem hstep
    obtain ⟨request, hrequest, hresponse, hcalls⟩ := (htrace.stepOf i step hi).response
    obtain ⟨hcontent, hlater⟩ := generate_of_mem hname (List.mem_of_getElem? hrequest)
    exact ⟨hresponse.trans hcontent, hcalls.trans hlater⟩
  -- there is a step: a run without one has used up its iterations
  have hne : result.steps ≠ [] := by
    intro hnil
    by_cases hcompleted : result.status = .COMPLETED
    · obtain ⟨step, hstep, -⟩ := htrace.completed_iff.mp hcompleted
      simp [hnil] at hstep
    · have hlength := (htrace.failed hcompleted).2
      rw [hnil, List.length_nil] at hlength
      omega
  have hlast : result.steps.getLast? = some (result.steps.getLast hne) :=
    List.getLast?_eq_some_getLast hne
  have hlastStep := hsteps _ (List.getLast_mem hne)
  have hanswer := htrace.finalAnswer_eq _ hlast
  refine ⟨hanswer.trans hlastStep.1, hsteps, fun hnil => ?_, fun hcalls => ?_, ?_⟩
  · refine ⟨htrace.completed_iff.mpr ⟨_, hlast, hlastStep.2.trans hnil⟩, ?_⟩
    -- only the last step may be without calls
    by_contra hlength
    have hpos := List.length_pos_iff.mpr hne
    have hfirst : result.steps[0]? = some result.steps[0] := List.getElem?_eq_getElem hpos
    refine htrace.toolCalls_ne_nil 0 _ hfirst (by omega) ?_
    exact (hsteps _ (List.getElem_mem hpos)).2.trans hnil
  · refine htrace.failed fun hcompleted => ?_
    obtain ⟨step, hstep, hnil⟩ := htrace.completed_iff.mp hcompleted
    rw [hlast] at hstep
    rw [← Option.some.inj hstep] at hnil
    exact hcalls (hlastStep.2.symm.trans hnil)
  · rw [run_runStepwise, h]

/-- An executor without tools. -/
def toolless : AgentExecutor := ⟨.empty, 3⟩

/-- `run_mock` for an executor without tools and a task of one line: the run is completed by its
first iteration, with the echo of the task as its answer. -/
theorem run_mock_toolless :
    ∃ result, (toolless.run .thousand (fun _ => .ok .none) (fun _ => MockModel.generate {})
        "hi".toList).2 = .ok result ∧
      result.finalAnswer = "[mock] Echo: hi".toList ∧ result.steps.length = 1 := by
  have hname : ∀ c ∈ ({} : MockModel).name, PyStr.isLineBreak c = false := by
    have hmock : "mock".toList.all (fun c => PyStr.isLineBreak c = false) = true := by decide
    exact fun c hc => of_decide_eq_true (List.all_eq_true.mp hmock c hc)
  obtain ⟨result, hresult⟩ : ∃ result, (toolless.run .thousand (fun _ => .ok .none)
      (fun _ => MockModel.generate {}) "hi".toList).2 = .ok result := ⟨_, rfl⟩
  obtain ⟨hanswer, -, hcompleted, -⟩ := run_mock hname (by decide) hresult
  exact ⟨result, hresult, hanswer, (hcompleted rfl).2⟩

end AgentExecutor
