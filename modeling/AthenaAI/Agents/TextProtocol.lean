import AthenaAI.Agents.ToolCalls
import AthenaAI.Python.JsonDecode
import AthenaAI.ToMathlib.List

/-!
# Tool calls written as text

What becomes of the calls that a model writes into its response the way `_build_system_prompt` tells
it to: each on a line of its own, `TOOL_CALL: ` and a JSON text.

* `Line` is a line of the response, `content` the response, `calls` the calls that are written in
  it.
* `Line.found` is what is found of a line. A JSON text may have U+0085, U+2028 or U+2029 in a
  string, where `splitlines` ends a line; then the call is lost (`found_of_not_unbroken`).
* `parseToolCalls_content`: the calls that are found are those of the lines, in order.
* `calls_survive_iff`: so they are the calls written exactly if the lines give them.
-/

namespace AgentExecutor

variable {float : PyStr → PyStr} {loads : Loads}

/-- `json.loads` returns the value of every JSON text, and raises a `JSONDecodeError` on every other
text. -/
structure JsonLoads (float : PyStr → PyStr) (loads : Loads) : Prop where
  /-- JSON texts are decoded. -/
  decodes : ∀ {text : PyStr} {v : PyValue}, Json.decode float text = some v → loads text = .ok v
  /-- Other texts are rejected. -/
  rejects : ∀ {text : PyStr}, Json.decode float text = none →
    ∃ message, loads text = .error (.of .JSONDecodeError message)

/-- A line of text that is no directive. -/
structure TextLine where
  /-- The text. -/
  text : PyStr
  /-- It does not start with the prefix. -/
  noPrefix : text.strip.startswith toolCallPrefix = false

/-- A call, with a JSON text of it on one line. -/
structure CallLine (float : PyStr → PyStr) where
  /-- The call: a dict with a name and arguments. -/
  call : PyValue
  /-- The JSON text. -/
  json : PyStr
  /-- The text is one of the call. -/
  decodes : Json.decode float json = some call
  /-- It has a name and arguments. -/
  isCall : isCall call
  /-- There is no line feed in the text. -/
  noLineFeed : '\n' ∉ json
  /-- There is no carriage return in the text. -/
  noCarriageReturn : '\r' ∉ json

/-- A line of a response. -/
inductive Line (float : PyStr → PyStr) where
  | text (line : TextLine)
  | call (line : CallLine float)

/-- The line as it is written. -/
def Line.written : Line float → PyStr
  | .text line => line.text
  | .call line => toolCallPrefix ++ ' ' :: line.json

/-- The call that is written on the line. -/
def Line.call? : Line float → Option PyValue
  | .text _ => none
  | .call line => some line.call

/-- The response. -/
def content (lines : List (Line float)) : PyStr := PyStr.join ['\n'] (lines.map Line.written)

/-- The calls that are written in the response. -/
def calls (lines : List (Line float)) : List PyValue := lines.filterMap Line.call?

/-- The call in a text, if it is a JSON text of one. -/
def decodedCall? (float : PyStr → PyStr) (text : PyStr) : Option PyValue :=
  (Json.decode float text).filter isCall

/-- The calls that a line of text has after line breaks in it. -/
def TextLine.hidden (float : PyStr → PyStr) (line : TextLine) : List PyValue :=
  (directives line.text).filterMap (decodedCall? float)

/-- `str.splitlines` does not break the JSON text. -/
def CallLine.Unbroken (line : CallLine float) : Prop := ∀ c ∈ line.json, PyStr.isLineBreak c = false

instance (line : CallLine float) : Decidable line.Unbroken := List.decidableBAll _ _

/-- What is found of a line. -/
def Line.found : Line float → List PyValue
  | .text line => line.hidden float
  | .call line => if line.Unbroken then [line.call] else []

/-! ## The lines of a response -/

/-- The directives of two texts with a line feed between them are those of the one and then those of
the other: a line feed ends a line wherever it stands. -/
theorem directives_append (a b : PyStr) :
    directives (a ++ '\n' :: b) = directives a ++ directives b :=
  PyStr.filterMap_splitlinesFrom_append (by decide) [] a b

/-- `str.join` puts the separator between the first part and the others. -/
theorem join_cons_cons (sep s t : PyStr) (parts : List PyStr) :
    PyStr.join sep (s :: t :: parts) = s ++ (sep ++ PyStr.join sep (t :: parts)) := by
  simp [PyStr.join, List.intercalate]

/-- The directives of a response that is joined of parts with line feeds are those of its parts, in
order: no directive goes over two lines. -/
theorem directives_join (parts : List PyStr) :
    directives (PyStr.join ['\n'] parts) = parts.flatMap directives := by
  induction parts with
  | nil => rfl
  | cons s parts ih =>
    cases parts with
    | nil =>
      have hjoin : PyStr.join ['\n'] [s] = s := by simp [PyStr.join, List.intercalate]
      rw [hjoin, List.flatMap_cons, List.flatMap_nil, List.append_nil]
    | cons t parts =>
      rw [join_cons_cons, List.singleton_append, directives_append, ih]
      rfl

/-! ## The line of a call -/

/-- What stands around the text of a directive, the prefix and white space, has no quotation mark
and no backslash in it. -/
theorem exists_of_directive?_eq_some {line text : PyStr} (h : directive? line = some text) :
    ∃ before after, line = before ++ (text ++ after) ∧
      ∀ c ∈ before, c ≠ Json.quotationMark ∧ c ≠ '\\' := by
  unfold directive? at h
  split_ifs at h with hstart
  obtain rfl := Option.some.inj h
  obtain ⟨rest, hrest⟩ := List.isPrefixOf_iff_prefix.mp hstart
  rw [← hrest, List.drop_left]
  obtain ⟨before, after, hline, hbefore, -⟩ := PyStr.exists_eq_append_strip line
  obtain ⟨before', after', hrest', hbefore', -⟩ := PyStr.exists_eq_append_strip rest
  have hspace {c : Char} (hc : PyStr.isSpace c) : c ≠ Json.quotationMark ∧ c ≠ '\\' :=
    ⟨Json.ne_of_isSpace hc (by decide), Json.ne_of_isSpace hc (by decide)⟩
  refine ⟨before ++ (toolCallPrefix ++ before'), after' ++ after, ?_, fun c hc => ?_⟩
  · calc line = before ++ (toolCallPrefix ++ rest ++ after) := by rw [hrest]; exact hline
      _ = before ++ (toolCallPrefix ++ (before' ++ (PyStr.strip rest ++ after')) ++ after) := by
        rw [← hrest']
      _ = before ++ (toolCallPrefix ++ before') ++ (PyStr.strip rest ++ (after' ++ after)) := by
        simp only [List.append_assoc]
  · have hprefix : toolCallPrefix.all (fun c => c ≠ Json.quotationMark ∧ c ≠ '\\') = true := by
      decide
    rcases List.mem_append.mp hc with hc | hc
    · exact hspace (hbefore c hc)
    · rcases List.mem_append.mp hc with hc | hc
      · exact of_decide_eq_true (List.all_eq_true.mp hprefix c hc)
      · exact hspace (hbefore' c hc)

/-- A dict that is a call has the key `name`, so its keys are not all without an `m`. -/
theorem not_keyed_of_isCall {items : PyDict} (h : isCall (.dict items)) :
    ¬Json.Keyed (fun s => 'm' ∉ s) items := by
  intro hkeyed
  have hname : (PyDict.get items "name".toList).isSome := (Bool.and_eq_true_iff.mp h).1
  obtain ⟨item, hitem, heq⟩ := List.lookup_isSome_iff.mp hname
  exact hkeyed item hitem "name".toList (beq_iff_eq.mp heq).symm (by decide)

/-- A line that begins inside a string of JSON is no call: what the directive on it takes for
strings is what stands between the strings, and no `name` stands there. -/
theorem bind_decodedCall?_of_inString {o o' : Json.Lexer} {line : PyStr} (ho : o.InString)
    (hrun : o.run line = some o') : (directive? line).bind (decodedCall? float) = none := by
  cases hline : directive? line with
  | none => rfl
  | some text =>
    obtain ⟨before, after, rfl, hbefore⟩ := exists_of_directive?_eq_some hline
    obtain ⟨start, hstart, hrun⟩ := Json.Lexer.run_append_eq_some_iff.mp hrun
    obtain ⟨stop, hstop, -⟩ := Json.Lexer.run_append_eq_some_iff.mp hrun
    have hstring : start.InString := Json.Lexer.inString_run ho hbefore hstart
    by_contra hsome
    obtain ⟨v, hv⟩ := Option.ne_none_iff_exists'.mp hsome
    obtain ⟨hdecode, hcall⟩ := Option.filter_eq_some_iff.mp hv
    obtain ⟨tokens, hlex, hparse⟩ := Option.bind_eq_some_iff.mp hdecode
    cases v with
    | dict items =>
      exact not_keyed_of_isCall hcall
        (Json.keys_of_parse (Json.structural_lex hstring hstop hlex) hparse)
    | _ => exact nomatch hcall

/-- None of the lines that begin inside a string of JSON is a call. -/
theorem bind_decodedCall?_of_mem_splitlinesFrom {start o stop : Json.Lexer} {current rest : PyStr}
    (hstart : start.InString) (hcurrent : start.run current = some o)
    (hrest : o.run rest = some stop) (hlf : '\n' ∉ rest) (hcr : '\r' ∉ rest) :
    ∀ line ∈ PyStr.splitlinesFrom current rest,
      (directive? line).bind (decodedCall? float) = none := by
  -- by induction on what is left of the text; `current` has been read of the line
  induction rest generalizing start o current with
  | nil =>
    intro line hline
    rw [PyStr.splitlinesFrom] at hline
    split_ifs at hline
    · exact absurd hline List.not_mem_nil
    · obtain rfl := List.mem_singleton.mp hline
      exact bind_decodedCall?_of_inString hstart hcurrent
  | cons c rest ih =>
    rw [List.mem_cons, not_or] at hlf hcr
    obtain ⟨m, hm, hrest⟩ := Json.Lexer.run_cons_eq_some_iff.mp hrest
    rw [PyStr.splitlinesFrom_cons fun h => hcr.1 h.1.symm]
    split_ifs with hc
    · intro line hline
      rcases List.mem_cons.mp hline with rfl | hline
      · exact bind_decodedCall?_of_inString hstart hcurrent
      -- a line break is in a string, so the next line begins inside it
      · have hstring := Json.Lexer.inString_of_isLineBreak hc (Ne.symm hlf.1) (Ne.symm hcr.1) hm
        exact ih hstring.2 rfl hrest hlf.2 hcr.2 line hline
    · have hrun : start.run (current ++ [c]) = some m :=
        Json.Lexer.run_append_eq_some_iff.mpr
          ⟨o, hcurrent, Json.Lexer.run_cons_eq_some_iff.mpr ⟨m, hm, rfl⟩⟩
      exact ih hstart hrun hrest hlf.2 hcr.2

/-- Of a line whose text is not broken (`Unbroken`) the call is found, and nothing else. -/
theorem found_of_unbroken {line : CallLine float} (hline : line.Unbroken) :
    (directives (toolCallPrefix ++ ' ' :: line.json)).filterMap (decodedCall? float) =
      [line.call] := by
  have hcall : decodedCall? float line.json.strip = some line.call :=
    Option.filter_eq_some_iff.mpr ⟨Json.decode_strip line.decodes, line.isCall⟩
  have hsome : (directive? (toolCallPrefix ++ ' ' :: line.json)).bind (decodedCall? float) =
      some line.call := by
    rw [directive?_toolCallPrefix_append]
    exact hcall
  rw [directives, List.filterMap_filterMap, splitlines_directive hline]
  exact List.filterMap_cons_some (f := fun s => (directive? s).bind (decodedCall? float)) hsome

/-- A JSON text that is broken is read up to the first line break, which is in a string, and then to
its end. -/
theorem exists_of_not_unbroken {line : CallLine float} (hline : ¬line.Unbroken) :
    ∃ a c b before after stop, line.json = a ++ c :: b ∧ PyStr.isLineBreak c ∧
      (∀ d ∈ a, PyStr.isLineBreak d = false) ∧ Json.Lexer.run {} a = some before ∧
      before.InString ∧ after.InString ∧ Json.Lexer.run after b = some stop := by
  obtain ⟨c, hfind⟩ : ∃ c, line.json.find? PyStr.isLineBreak = some c := by
    rw [← Option.isSome_iff_exists, List.find?_isSome]
    simpa [CallLine.Unbroken] using hline
  obtain ⟨hc, a, b, heq, ha⟩ := List.find?_eq_some_iff_append.mp hfind
  have hmem : c ∈ line.json := List.mem_of_find?_eq_some hfind
  obtain ⟨tokens, hlex, -⟩ := Option.bind_eq_some_iff.mp line.decodes
  obtain ⟨stop, hrun, -⟩ := Option.bind_eq_some_iff.mp hlex
  rw [heq] at hrun
  obtain ⟨before, hbefore, hrun⟩ := Json.Lexer.run_append_eq_some_iff.mp hrun
  obtain ⟨after, hafter, hrun⟩ := Json.Lexer.run_cons_eq_some_iff.mp hrun
  obtain ⟨hstring, hstring'⟩ := Json.Lexer.inString_of_isLineBreak hc
    (fun h => line.noLineFeed (h ▸ hmem)) (fun h => line.noCarriageReturn (h ▸ hmem)) hafter
  have ha' : ∀ d ∈ a, PyStr.isLineBreak d = false := fun d hd => by simpa using ha d hd
  exact ⟨a, c, b, before, after, stop, heq, hc, ha', hbefore, hstring, hstring', hrun⟩

/-- Of a line whose text is broken nothing is found: its first part is no JSON text, and the later
ones begin inside a string. -/
theorem found_of_not_unbroken {line : CallLine float} (hline : ¬line.Unbroken) :
    (directives (toolCallPrefix ++ ' ' :: line.json)).filterMap (decodedCall? float) = [] := by
  obtain ⟨a, c, b, before, after, stop, heq, hc, ha, hbefore, hstring, hstring', hrun⟩ :=
    exists_of_not_unbroken hline
  have hlf : '\n' ∉ b := fun h => line.noLineFeed (by simp [heq, h])
  have hcr : '\r' ∉ b := fun h => line.noCarriageReturn (by simp [heq, h])
  have hne : c ≠ '\r' := fun h => line.noCarriageReturn (by simp [heq, h])
  have hlines : PyStr.splitlines (toolCallPrefix ++ ' ' :: (a ++ c :: b)) =
      (toolCallPrefix ++ ' ' :: a) :: PyStr.splitlinesFrom [] b := by
    rw [← List.cons_append, ← List.append_assoc]
    exact PyStr.splitlinesFrom_append_cons (not_isLineBreak_of_mem_directive ha) hc hne
  rw [directives, List.filterMap_filterMap, heq, hlines, List.filterMap_eq_nil_iff,
    List.forall_mem_cons]
  constructor
  -- the first piece ends in a string
  · obtain ⟨left, right, hsplit, hleft, hright⟩ := PyStr.exists_eq_append_strip a
    have hnone : Json.lex (PyStr.strip a) = none :=
      Json.lex_eq_none_of_inString hleft hright (hsplit ▸ hbefore) hstring
    rw [directive?_toolCallPrefix_append]
    show decodedCall? float (PyStr.strip a) = none
    rw [decodedCall?, Json.decode, hnone]
    rfl
  · exact bind_decodedCall?_of_mem_splitlinesFrom hstring' rfl hrun hlf hcr

/-- `found` says what the parser finds of the line of a call: the call, or nothing if its text is
broken. -/
theorem found_of_call (line : CallLine float) :
    (directives (toolCallPrefix ++ ' ' :: line.json)).filterMap (decodedCall? float) =
      (Line.call line).found := by
  rw [Line.found]
  split_ifs with hline
  · exact found_of_unbroken hline
  · exact found_of_not_unbroken hline

/-! ## The calls of a response -/

/-- Where `json.loads` returns the value of a JSON text and rejects what is none, the call in the
text is the one that is written there. -/
theorem call?_of_decode (text : PyStr)
    (hsome : ∀ {v : PyValue}, Json.decode float text = some v → loads text = .ok v)
    (hnone : Json.decode float text = none →
      ∃ message, loads text = .error (.of .JSONDecodeError message)) :
    Decodes loads text ∧ AgentExecutor.call? loads text = decodedCall? float text := by
  unfold Decodes AgentExecutor.call? decodedCall?
  cases hdecode : Json.decode float text with
  | none =>
    obtain ⟨message, hmessage⟩ := hnone hdecode
    rw [hmessage]
    refine ⟨fun e he => ?_, rfl⟩
    rw [← Except.error.inj he]
    rfl
  | some v =>
    rw [hsome hdecode]
    exact ⟨nofun, (Option.filter_some).symm⟩

/-- The calls that the parser finds in a response are those that are `found` of its lines, one line
after the other. -/
theorem parseToolCalls_content (hloads : JsonLoads float loads) (lines : List (Line float)) :
    parseToolCalls loads (content lines) = .ok (lines.flatMap Line.found) := by
  rw [parseToolCalls_eq_ok_iff]
  have hdecode (text : PyStr) := call?_of_decode text hloads.decodes hloads.rejects
  refine ⟨fun text _ => (hdecode text).1, ?_⟩
  have hcall : AgentExecutor.call? loads = decodedCall? float := funext fun text => (hdecode text).2
  rw [hcall, content, directives_join, List.flatMap_map, List.filterMap_flatMap]
  refine congrArg (lines.flatMap ·) (funext fun line => ?_)
  cases line with
  | text line => rfl
  | call line => exact (found_of_call line).symm

/-- The calls of a text that was written are those of its lines, in order. -/
theorem calls_eq_flatMap (lines : List (Line float)) :
    calls lines = lines.flatMap fun line => line.call?.toList :=
  List.filterMap_eq_flatMap_toList _ _

/-- Of the line of a call no more than the call is found, so calls can be lost on such lines, and
none can be made up. -/
theorem found_sublist (line : CallLine float) : (Line.call line).found.Sublist [line.call] := by
  rw [Line.found]
  split_ifs
  · exact List.Sublist.refl _
  · exact List.nil_sublist _

/-- The call of a line is found again exactly if its JSON text has no line break in it
(`CallLine.Unbroken`). -/
theorem found_eq_iff (line : CallLine float) :
    (Line.call line).found = [line.call] ↔ line.Unbroken := by
  rw [Line.found]
  split_ifs with hline
  · exact iff_of_true rfl hline
  · exact iff_of_false nofun hline

/-- For every response: the parser returns the calls written in it, in order, if and only if what is
`found` of its lines, one after the other, is these calls. Where no line of text hides a call, this
is so if and only if every call is `Unbroken`, its JSON text having no character at which
`str.splitlines` ends a line; and where every call is, if and only if no line of text has a call
`hidden` in it. -/
theorem calls_survive_iff (hloads : JsonLoads float loads) (lines : List (Line float)) :
    (parseToolCalls loads (content lines) = .ok (calls lines) ↔
      lines.flatMap Line.found = calls lines) ∧
    ((∀ line, .text line ∈ lines → line.hidden float = []) →
      (parseToolCalls loads (content lines) = .ok (calls lines) ↔
        ∀ line, .call line ∈ lines → line.Unbroken)) ∧
    ((∀ line, .call line ∈ lines → line.Unbroken) →
      (parseToolCalls loads (content lines) = .ok (calls lines) ↔
        ∀ line, .text line ∈ lines → line.hidden float = [])) := by
  have hfound : parseToolCalls loads (content lines) = .ok (calls lines) ↔
      lines.flatMap Line.found = calls lines := by
    rw [parseToolCalls_content hloads, Except.ok.injEq]
  refine ⟨hfound, fun hhidden => ?_, fun hunbroken => ?_⟩
  · have hsublist : ∀ line ∈ lines, line.found.Sublist line.call?.toList := by
      rintro (line | line) hline
      · rw [Line.found, hhidden line hline]
        exact List.nil_sublist _
      · exact found_sublist line
    rw [hfound, calls_eq_flatMap, List.flatMap_eq_flatMap_iff hsublist]
    constructor
    · exact fun h line hline => (found_eq_iff line).mp (h _ hline)
    · rintro h (line | line) hline
      · exact hhidden line hline
      · exact (found_eq_iff line).mpr (h line hline)
  · have hsublist : ∀ line ∈ lines, line.call?.toList.Sublist line.found := by
      rintro (line | line) hline
      · exact List.nil_sublist _
      · rw [(found_eq_iff line).mpr (hunbroken line hline)]
        exact List.Sublist.refl _
    rw [hfound, eq_comm, calls_eq_flatMap, List.flatMap_eq_flatMap_iff hsublist]
    constructor
    · exact fun h line hline => (h _ hline).symm
    · rintro h (line | line) hline
      · exact (h line hline).symm
      · exact ((found_eq_iff line).mpr (hunbroken line hline)).symm

/-- `json.loads`, of which no caller reads the message. -/
def decoding (float : PyStr → PyStr) : Loads := fun text =>
  match Json.decode float text with
  | some v => .ok v
  | none => .error (.of .JSONDecodeError "Expecting value".toList)

/-- The `json.loads` that decodes what `Json.decode` reads, and raises `JSONDecodeError` for all
else, is one as `JsonLoads` describes it. -/
theorem jsonLoads_decoding (float : PyStr → PyStr) : JsonLoads float (decoding float) where
  decodes h := by rw [decoding, h]
  rejects h := ⟨"Expecting value".toList, by rw [decoding, h]⟩

/-- A call whose text has U+2028 in a string. -/
def brokenCall : CallLine id where
  call := .dict [(.str "name".toList, .str "calculator".toList),
    (.str "arguments".toList, .dict [(.str "expression".toList, .str "1\u2028".toList)])]
  json := ("\x7b\"name\": \"calculator\", ".toList ++
    "\"arguments\": \x7b\"expression\": \"1\u2028\"\x7d\x7d".toList)
  decodes := by rfl
  isCall := by rfl
  noLineFeed := by decide
  noCarriageReturn := by decide

/-- The call is lost: `str.splitlines` ends the line at the character in its string, and what stands
before it is no JSON text. -/
theorem brokenCall_lost :
    parseToolCalls (decoding id) (content [.call brokenCall]) = .ok [] ∧
      parseToolCalls (decoding id) (content [.call brokenCall]) ≠
        .ok (calls [.call brokenCall]) := by
  have hlost : parseToolCalls (decoding id) (content [.call brokenCall]) = .ok [] := by
    have hbroken : ¬brokenCall.Unbroken := by decide
    rw [parseToolCalls_content (jsonLoads_decoding id), List.flatMap_singleton, Line.found,
      if_neg hbroken]
  refine ⟨hlost, ?_⟩
  rw [hlost]
  exact nofun

/-- A line of text. -/
def letMeSee : TextLine := ⟨"Let me see.".toList, by decide⟩

/-- A call whose text is not broken. -/
def plainCall : CallLine id where
  call := .dict [(.str "name".toList, .str "clock".toList), (.str "arguments".toList, .dict [])]
  json := "\x7b\"name\": \"clock\", \"arguments\": \x7b\x7d\x7d".toList
  decodes := by rfl
  isCall := by rfl
  noLineFeed := by decide
  noCarriageReturn := by decide

/-- `calls_survive_iff` for a line of text and a call: the text hides nothing, the call is
`Unbroken`, and the parser returns it. -/
theorem plainCall_survives :
    parseToolCalls (decoding id) (content [.text letMeSee, .call plainCall]) =
      .ok (calls [.text letMeSee, .call plainCall]) := by
  refine ((calls_survive_iff (jsonLoads_decoding id) _).2.1 ?_).mpr ?_
  · intro line hline
    simp only [List.mem_cons, Line.text.injEq, reduceCtorEq, List.not_mem_nil, or_false] at hline
    subst hline
    rfl
  · intro line hline
    simp only [List.mem_cons, Line.call.injEq, reduceCtorEq, List.not_mem_nil, false_or,
      or_false] at hline
    subst hline
    decide

end AgentExecutor
