import AthenaAI.Models.Base
import AthenaAI.ToMathlib.Except

/-!
# Tool calls in a response

How `athenai.agents.executor` finds the tool calls in the response of a model: in its metadata, or
else as directives in its text, one on a line.

* `parseToolCalls` is `_parse_tool_calls`. The only exception it expects of `json.loads` is a
  `JSONDecodeError`; any other one passes through.
* `directives` are the JSON texts of the directives; `parseToolCalls_eq_ok_iff` says what becomes of
  them.
* `toolCalls` are the calls of a response. `Readable` is the condition under which they can be read,
  and `callsOf` is what is read then (`toolCalls_eq_ok_iff`).
-/

/-- `json.loads`: the value of a JSON text. -/
abbrev Loads := PyStr → Except PyExc PyValue

namespace AgentExecutor

/-- `_TOOL_CALL_PREFIX`. -/
def toolCallPrefix : PyStr := "TOOL_CALL:".toList

/-- The value is a dict with a name and arguments. -/
def isCall : PyValue → Bool
  | .dict items =>
    (PyDict.get items "name".toList).isSome && (PyDict.get items "arguments".toList).isSome
  | _ => false

variable (loads : Loads)

/-- What the loop of `_parse_tool_calls` does with a line. -/
def parseLine (calls : List PyValue) (line : PyStr) : Except PyExc (List PyValue) :=
  let stripped := line.strip
  if !stripped.startswith toolCallPrefix then .ok calls
  else
    match loads (PyStr.strip (stripped.drop toolCallPrefix.length)) with
    -- valid JSON that is no call is skipped like a line that is no JSON
    | .ok call => .ok (if isCall call then calls ++ [call] else calls)
    -- `except json.JSONDecodeError: pass`
    | .error e => if e.type = .JSONDecodeError then .ok calls else .error e

/-- `AgentExecutor._parse_tool_calls`. -/
def parseToolCalls (content : PyStr) : Except PyExc (List PyValue) :=
  content.splitlines.foldlM (parseLine loads) []

/-- `list(response.metadata.get("tool_calls", []))`. -/
def metadataCalls (response : ModelResponse) : Except PyExc (List PyValue) :=
  ((response.metadata.get "tool_calls".toList).getD (.list [])).toList

/-- The tool calls of a response: those of its metadata, or else those of its text. -/
def toolCalls (response : ModelResponse) : Except PyExc (List PyValue) := do
  let listed ← metadataCalls response
  -- `if not tool_calls`
  if listed.isEmpty then parseToolCalls loads response.content else return listed

/-! ## Directives -/

/-- The JSON text of the directive on a line, if the line is one. -/
def directive? (line : PyStr) : Option PyStr :=
  if line.strip.startswith toolCallPrefix then
    some (PyStr.strip (line.strip.drop toolCallPrefix.length))
  else none

/-- The JSON texts of the directives in a text, in the order of the lines. -/
def directives (content : PyStr) : List PyStr := content.splitlines.filterMap directive?

/-- `json.loads` raises nothing but a `JSONDecodeError` on the text. -/
def Decodes (text : PyStr) : Prop := ∀ e, loads text = .error e → e.type = .JSONDecodeError

/-- The call in a JSON text, if it is one. -/
def call? (text : PyStr) : Option PyValue :=
  match loads text with
  | .ok call => if isCall call then some call else none
  | .error _ => none

variable {loads}

/-- A line that is no directive is skipped. -/
theorem parseLine_of_none {calls : List PyValue} {line : PyStr} (h : directive? line = none) :
    parseLine loads calls line = .ok calls := by
  unfold directive? at h
  unfold parseLine
  split_ifs at h with hstart
  simp [hstart]

/-- A directive adds the call in it, if its text decodes to one, and is skipped otherwise, unless
`json.loads` raises another exception than `JSONDecodeError` (`Decodes`). -/
theorem parseLine_of_some {calls calls' : List PyValue} {line text : PyStr}
    (h : directive? line = some text) :
    parseLine loads calls line = .ok calls' ↔
      Decodes loads text ∧ calls' = calls ++ (call? loads text).toList := by
  unfold directive? at h
  split_ifs at h with hstart
  obtain rfl := Option.some.inj h
  unfold parseLine call? Decodes
  simp only [hstart, Bool.not_true, Bool.false_eq_true, if_false]
  cases loads (PyStr.strip (line.strip.drop toolCallPrefix.length)) with
  -- the value of the JSON text is kept if it is a call
  | ok call =>
    have hcalls : (if isCall call then calls ++ [call] else calls) =
        calls ++ (if isCall call then some call else none).toList := by
      split_ifs <;> simp
    constructor
    · intro hok
      refine ⟨nofun, ?_⟩
      rw [← hcalls]
      exact (Except.ok.inj hok).symm
    · rintro ⟨-, rfl⟩
      exact congrArg Except.ok hcalls
  -- the exception is swallowed or passed on, by its class
  | error e =>
    by_cases htype : e.type = .JSONDecodeError
    · simp only [if_pos htype, Option.toList_none, List.append_nil]
      constructor
      · intro hok
        refine ⟨fun e' he => ?_, (Except.ok.inj hok).symm⟩
        exact Except.error.inj he ▸ htype
      · rintro ⟨-, rfl⟩
        rfl
    · simp only [if_neg htype]
      refine iff_of_false nofun ?_
      rintro ⟨hdecodes, -⟩
      exact htype (hdecodes e rfl)

/-- An exception that is not expected of `json.loads` passes through `parseLine`, and ends the
parsing. -/
theorem parseLine_of_error {calls : List PyValue} {line text : PyStr} {e : PyExc}
    (h : directive? line = some text) (hloads : loads text = .error e)
    (htype : e.type ≠ .JSONDecodeError) : parseLine loads calls line = .error e := by
  unfold directive? at h
  split_ifs at h with hstart
  obtain rfl := Option.some.inj h
  unfold parseLine
  simp [hstart, hloads, htype]

/-- The text of a directive is what stands after the prefix, stripped of white space at both
ends. -/
theorem directive?_toolCallPrefix_append (text : PyStr) :
    directive? (toolCallPrefix ++ ' ' :: text) = some text.strip := by
  have hstrip : PyStr.strip (toolCallPrefix ++ ' ' :: text) =
      toolCallPrefix ++ (' ' :: text).rdropWhile PyStr.isSpace := by
    -- the prefix neither begins nor ends with whitespace
    have hfront : (toolCallPrefix ++ ' ' :: text).dropWhile PyStr.isSpace =
        toolCallPrefix ++ ' ' :: text := List.dropWhile_cons_of_neg (by decide)
    rw [PyStr.strip, hfront, PyStr.append_rdropWhile (by decide)]
  have hstart : PyStr.startswith (toolCallPrefix ++ (' ' :: text).rdropWhile PyStr.isSpace)
      toolCallPrefix = true := List.isPrefixOf_iff_prefix.mpr (List.prefix_append _ _)
  rw [directive?, hstrip, if_pos hstart, List.drop_left, PyStr.strip_rdropWhile,
    PyStr.strip_cons (by decide)]

/-- A directive has no line breaks but those of its text. -/
theorem not_isLineBreak_of_mem_directive {text : PyStr}
    (h : ∀ c ∈ text, PyStr.isLineBreak c = false) :
    ∀ c ∈ toolCallPrefix ++ ' ' :: text, PyStr.isLineBreak c = false := by
  have hprefix : (toolCallPrefix ++ [' ']).all (fun c => PyStr.isLineBreak c = false) = true := by
    decide
  rw [← List.singleton_append, ← List.append_assoc]
  intro c hc
  rcases List.mem_append.mp hc with hc | hc
  · exact of_decide_eq_true (List.all_eq_true.mp hprefix c hc)
  · exact h c hc

/-- A directive whose text has no line breaks is one line of `str.splitlines`. -/
theorem splitlines_directive {text : PyStr} (h : ∀ c ∈ text, PyStr.isLineBreak c = false) :
    PyStr.splitlines (toolCallPrefix ++ ' ' :: text) = [toolCallPrefix ++ ' ' :: text] :=
  PyStr.splitlines_of_forall_not_isLineBreak (List.cons_ne_nil _ _)
    (not_isLineBreak_of_mem_directive h)

/-- The lines from some point on: the parsing comes through exactly if all directives on them decode
(`Decodes`), and adds the calls in these. -/
theorem foldlM_parseLine_eq_ok_iff (lines : List PyStr) (calls calls' : List PyValue) :
    lines.foldlM (parseLine loads) calls = .ok calls' ↔
      (∀ text ∈ lines.filterMap directive?, Decodes loads text) ∧
        calls' = calls ++ (lines.filterMap directive?).filterMap (call? loads) := by
  -- by induction on the lines; the calls found so far stay in front
  induction lines generalizing calls with
  | nil => simp [pure, Except.pure, eq_comm]
  | cons line lines ih =>
    rw [List.foldlM_cons, Except.bind_eq_ok_iff]
    cases hline : directive? line with
    | none =>
      rw [parseLine_of_none hline, List.filterMap_cons_none hline, ← ih]
      constructor
      · rintro ⟨_, hok, hrest⟩
        exact Except.ok.inj hok ▸ hrest
      · exact fun hrest => ⟨calls, rfl, hrest⟩
    | some text =>
      rw [List.filterMap_cons_some hline, List.forall_mem_cons]
      simp only [parseLine_of_some hline, ih]
      constructor
      · rintro ⟨_, ⟨hdecodes, rfl⟩, hrest, rfl⟩
        refine ⟨⟨hdecodes, hrest⟩, ?_⟩
        cases hcall : call? loads text <;> simp [hcall]
      · rintro ⟨⟨hdecodes, hrest⟩, rfl⟩
        refine ⟨_, ⟨hdecodes, rfl⟩, hrest, ?_⟩
        cases hcall : call? loads text <;> simp [hcall]

/-- The parser returns exactly if `json.loads` raises nothing but `JSONDecodeError` on the
directives; then it returns the calls in them, in the order of the lines. -/
theorem parseToolCalls_eq_ok_iff {content : PyStr} {calls : List PyValue} :
    parseToolCalls loads content = .ok calls ↔
      (∀ text ∈ directives content, Decodes loads text) ∧
        calls = (directives content).filterMap (call? loads) :=
  foldlM_parseLine_eq_ok_iff content.splitlines [] calls

/-! ## Reading a response -/

variable (loads)

/-- The tool calls of a response can be read: its metadata lists them in something that can be
iterated over, and if it lists none, the directives decode. -/
def Readable (response : ModelResponse) : Prop :=
  ∃ listed, metadataCalls response = .ok listed ∧
    (listed = [] → ∀ text ∈ directives response.content, Decodes loads text)

/-- The tool calls of a response that can be read. -/
def callsOf (response : ModelResponse) : List PyValue :=
  match metadataCalls response with
  | .ok (call :: calls) => call :: calls
  | _ => (directives response.content).filterMap (call? loads)

variable {loads}

/-- The tool calls are read exactly from a response that is `Readable`, and then they are its
`callsOf`: those of its metadata, or else those of its text. -/
theorem toolCalls_eq_ok_iff {response : ModelResponse} {calls : List PyValue} :
    toolCalls loads response = .ok calls ↔
      Readable loads response ∧ calls = callsOf loads response := by
  unfold toolCalls Readable callsOf
  rw [Except.bind_eq_ok_iff]
  cases metadataCalls response with
  | error e => simp
  | ok listed =>
    cases listed with
    | nil => simpa using parseToolCalls_eq_ok_iff
    | cons call rest =>
      constructor
      · rintro ⟨_, hlisted, hok⟩
        obtain rfl := Except.ok.inj hlisted
        exact ⟨⟨_, rfl, nofun⟩, (Except.ok.inj hok).symm⟩
      · rintro ⟨-, rfl⟩
        exact ⟨_, rfl, rfl⟩

end AgentExecutor
