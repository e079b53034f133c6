import AthenaAI.Agents.TextProtocol

/-!
# Malformed tool calls

A model may write anything after `TOOL_CALL:`, and `_parse_tool_calls` is to skip what is no call.
`json.loads` fails in two ways: it raises a `JSONDecodeError` where the text is no JSON, and a
`ValueError` that is none where it comes to an integer with more digits than `int` converts.

* `LimitedLoads` is a `json.loads` with that limit: what it decodes, and which error it raises for
  which text.
* `Json.MeetsLongInteger`: reading a text from the left, `json.loads` comes to such an integer.
* `skipsMalformed_iff`: the parser skips everything that is no call, and returns the calls,
  exactly if that happens in no directive. `longArgument_raises` is one in which it does.
-/

namespace Json

/-- A text that goes on like this ends an integer: neither a digit follows, nor a fraction, nor an
exponent. -/
def endsInteger (after : PyStr) : Bool :=
  after.head?.all (fun c => !c.isDigit) &&
    (dropFraction after = none || dropFraction after = some after &&
      (dropExponent after = none || dropExponent after = some after))

/-- The text begins with an integer of more than `limit` digits. -/
def startsLongInteger (limit : ℕ) (text : PyStr) : Bool :=
  let unsigned := if text.head? = some '-' then text.tail else text
  let digits := unsigned.takeWhile Char.isDigit
  -- a zero in front is an integer of its own
  limit < digits.length && digits.head? ≠ some '0' && endsInteger (unsigned.dropWhile Char.isDigit)

/-- After this text a value may begin. -/
def awaitsValue (float : PyStr → PyStr) (before : PyStr) : Bool :=
  match Lexer.run {} before with
  | some ⟨tokens, .code []⟩ =>
    match tokens.foldlM (Parser.step float) (.value []) with
    | some (.value _) => true
    | some (.firstValue _) => true
    | _ => false
  | _ => false

/-- Reading the text from the left, an integer of more than `limit` digits comes where a value may
begin. -/
def MeetsLongInteger (limit : ℕ) (float : PyStr → PyStr) (text : PyStr) : Prop :=
  ∃ i < text.length, awaitsValue float (text.take i) ∧ startsLongInteger limit (text.drop i)

instance (limit : ℕ) (float : PyStr → PyStr) (text : PyStr) :
    Decidable (MeetsLongInteger limit float text) :=
  Nat.decidableExistsLT _

/-- An integer of more than `limit` digits is met by `json.loads` if it stands after a text after
which a value may begin (`awaitsValue`) and before one that ends it (`endsInteger`). -/
theorem meetsLongInteger_append {limit : ℕ} {float : PyStr → PyStr} {before digits after : PyStr}
    (hbefore : awaitsValue float before) (hdigits : ∀ c ∈ digits, c.isDigit)
    (hlong : limit < digits.length) (hzero : digits.head? ≠ some '0') (hafter : endsInteger after) :
    MeetsLongInteger limit float (before ++ (digits ++ after)) := by
  obtain ⟨d, ds, rfl⟩ := List.exists_cons_of_length_pos (Nat.zero_lt_of_lt hlong)
  have hafter' : ∀ c, after.head? = some c → c.isDigit = false := by
    intro c hc
    simpa [endsInteger, hc] using (Bool.and_eq_true_iff.mp hafter).1
  have htake : after.takeWhile Char.isDigit = [] := by
    cases after with
    | nil => rfl
    | cons c after => exact List.takeWhile_cons_of_neg (by simp [hafter' c rfl])
  have hdrop : after.dropWhile Char.isDigit = after := by
    cases after with
    | nil => rfl
    | cons c after => exact List.dropWhile_cons_of_neg (by simp [hafter' c rfl])
  have hminus : d ≠ '-' := by
    rintro rfl
    exact absurd (hdigits '-' List.mem_cons_self) (by decide)
  refine ⟨before.length, by simp, by rwa [List.take_left], ?_⟩
  rw [List.drop_left, startsLongInteger]
  have hunsigned : (if (d :: ds ++ after).head? = some '-' then (d :: ds ++ after).tail
      else d :: ds ++ after) = d :: ds ++ after :=
    if_neg fun h => hminus (Option.some.inj h)
  rw [hunsigned, List.takeWhile_append_of_pos hdigits, List.dropWhile_append_of_pos hdigits, htake,
    hdrop, List.append_nil]
  have hhead : decide ((d :: ds).head? ≠ some '0') = true := decide_eq_true hzero
  rw [hafter, hhead, Bool.and_true, Bool.and_true]
  exact decide_eq_true hlong

end Json

namespace AgentExecutor

variable {limit : ℕ} {float : PyStr → PyStr} {loads : Loads}

/-- `json.loads` with the limit of `int`. -/
structure LimitedLoads (limit : ℕ) (float : PyStr → PyStr) (loads : Loads) : Prop where
  /-- An integer that is too long is a `ValueError`. -/
  tooLong : ∀ {text : PyStr}, Json.MeetsLongInteger limit float text →
    ∃ message, loads text = .error (.of .ValueError message)
  /-- Other JSON texts are decoded. -/
  decodes : ∀ {text : PyStr} {v : PyValue}, ¬Json.MeetsLongInteger limit float text →
    Json.decode float text = some v → loads text = .ok v
  /-- Other texts are rejected. -/
  rejects : ∀ {text : PyStr}, ¬Json.MeetsLongInteger limit float text →
    Json.decode float text = none → ∃ message, loads text = .error (.of .JSONDecodeError message)

/-- The parser returns the calls among the JSON texts of the directives, in the order of the lines,
and skips all other directives. -/
def SkipsMalformed (float : PyStr → PyStr) (loads : Loads) (content : PyStr) : Prop :=
  parseToolCalls loads content = .ok ((directives content).filterMap (decodedCall? float))

/-- A `json.loads` that is `LimitedLoads` raises another exception than `JSONDecodeError` exactly on
a text in which it meets an integer that is too long. -/
theorem decodes_iff (hloads : LimitedLoads limit float loads) (text : PyStr) :
    Decodes loads text ↔ ¬Json.MeetsLongInteger limit float text := by
  constructor
  · intro hdecodes hmeets
    obtain ⟨message, hmessage⟩ := hloads.tooLong hmeets
    exact nomatch hdecodes _ hmessage
  · exact fun hnot => (call?_of_decode text (hloads.decodes hnot) (hloads.rejects hnot)).1

/-- For every response and every `json.loads` that is limited as CPython's (`LimitedLoads`): the
parser returns exactly the calls in its directives and skips all other directives
(`SkipsMalformed`), if and only if `json.loads` comes in none of them to an integer that is too
long. `Json.MeetsLongInteger` says what that is, on the text alone. -/
theorem skipsMalformed_iff (hloads : LimitedLoads limit float loads) (content : PyStr) :
    SkipsMalformed float loads content ↔
      ∀ text ∈ directives content, ¬Json.MeetsLongInteger limit float text := by
  rw [SkipsMalformed, parseToolCalls_eq_ok_iff]
  simp only [decodes_iff hloads]
  refine and_iff_left_of_imp fun hall => List.filterMap_congr fun text htext => ?_
  have hnot := hall text htext
  exact (call?_of_decode text (hloads.decodes hnot) (hloads.rejects hnot)).2.symm

/-- `json.loads` with the limit of `int`, of which no caller reads the messages. -/
def limited (limit : ℕ) (float : PyStr → PyStr) : Loads := fun text =>
  if Json.MeetsLongInteger limit float text then
    .error (.of .ValueError "Exceeds the limit for integer string conversion".toList)
  else decoding float text

/-- The `json.loads` that refuses exactly the integers with more than `limit` digits is one as
`LimitedLoads` describes it. -/
theorem limitedLoads_limited (limit : ℕ) (float : PyStr → PyStr) :
    LimitedLoads limit float (limited limit float) where
  tooLong h := ⟨_, if_pos h⟩
  decodes h hdecode := (if_neg h).trans ((jsonLoads_decoding float).decodes hdecode)
  rejects h hdecode := by
    obtain ⟨message, hmessage⟩ := (jsonLoads_decoding float).rejects hdecode
    exact ⟨message, (if_neg h).trans hmessage⟩

/-- A response with a directive that is no JSON, and a call. -/
def unfinished : PyStr :=
  "TOOL_CALL: \x7b\"name\": \"clo\nTOOL_CALL: \x7b\"name\": \"clock\", \"arguments\": 1\x7d".toList

/-- `skipsMalformed_iff` for a directive that is no JSON, with a call in the line after it: the one
is skipped, and the other returned. -/
theorem unfinished_skipped : SkipsMalformed id (limited 4300 id) unfinished :=
  (skipsMalformed_iff (limitedLoads_limited 4300 id) unfinished).mpr (by decide +kernel)

/-- The JSON text of a call up to the value of an argument. -/
def untilArgument : PyStr := "\x7b\"name\": \"add\", \"arguments\": \x7b\"x\": ".toList

/-- The JSON text of a call with a long integer among its arguments. -/
def longArgument : PyStr :=
  untilArgument ++ (List.replicate 4301 '1' ++ "\x7d\x7d".toList)

/-- With the usual limit of 4300 digits, `json.loads` meets the integer in the arguments. -/
theorem meetsLongInteger_longArgument : Json.MeetsLongInteger 4300 id longArgument := by
  refine Json.meetsLongInteger_append (by decide) (fun c hc => ?_) ?_ ?_ (by decide)
  · rw [List.eq_of_mem_replicate hc]
    decide
  · rw [List.length_replicate]
    decide
  · rw [List.head?_replicate]
    decide

/-- The text has no whitespace at its ends, so it is what stands behind the prefix of its line. -/
theorem strip_longArgument : longArgument.strip = longArgument := by
  have hhead : longArgument.head? = some (Char.ofNat 0x7B) := by
    rw [longArgument, List.head?_append]
    rfl
  have hlast : longArgument.getLast? = some (Char.ofNat 0x7D) := by
    rw [longArgument, List.getLast?_append, List.getLast?_append]
    rfl
  refine PyStr.strip_eq_self (fun c hc => ?_) fun c hc => ?_
  · obtain rfl := Option.some.inj (hhead.symm.trans hc)
    decide
  · obtain rfl := Option.some.inj (hlast.symm.trans hc)
    decide

/-- The directive with this integer ends the parsing: `json.loads` raises a plain `ValueError` for
it, which is no `JSONDecodeError`, so the calls before and after it are lost. -/
theorem longArgument_raises :
    (∃ message, parseToolCalls (limited 4300 id) (toolCallPrefix ++ ' ' :: longArgument) =
      .error (.of .ValueError message)) ∧
      ¬SkipsMalformed id (limited 4300 id) (toolCallPrefix ++ ' ' :: longArgument) := by
  have hline : ∀ c ∈ longArgument, PyStr.isLineBreak c = false := by
    have hall : longArgument.all (fun c => PyStr.isLineBreak c = false) = true := by
      rw [longArgument, List.all_append, List.all_append, List.all_replicate]
      decide
    exact fun c hc => of_decide_eq_true (List.all_eq_true.mp hall c hc)
  obtain ⟨message, hmessage⟩ :=
    (limitedLoads_limited 4300 id).tooLong meetsLongInteger_longArgument
  have hraises : parseToolCalls (limited 4300 id) (toolCallPrefix ++ ' ' :: longArgument) =
      .error (.of .ValueError message) := by
    rw [parseToolCalls, splitlines_directive hline, List.foldlM_cons,
      parseLine_of_error (directive?_toolCallPrefix_append longArgument)
        (by rwa [strip_longArgument]) (show ExcType.ValueError ≠ .JSONDecodeError from nofun)]
    rfl
  refine ⟨⟨message, hraises⟩, ?_⟩
  rw [SkipsMalformed, hraises]
  exact nofun

end AgentExecutor
