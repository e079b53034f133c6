import AthenaAI.Postgres.Lexer
import AthenaAI.Python.Json
import AthenaAI.ToMathlib.Except
import Mathlib.Algebra.Order.Ring.Int

/-!
# The SQL tool

`athenai.tools.sql`. `SQLTool` wraps the query of the caller as a subquery with a `LIMIT`, and sends
the text. What the server makes of the text depends on its lexical structure, so the query is read
by the lexer of `Postgres.Lexer`.

* `boundedQuery` is the text that `execute` sends: `opening`, the query, and `closing` with the
  limit of the call, which is at most the limit of the tool.
* `Capped` says that the appended suffix is code, that it closes the parenthesis of the wrapper, and
  that its limit is one of at most `maxRows`.
* `capped_iff`: the text is `Capped`, if and only if the query by itself ends in code with matching
  parentheses. `commentedOut_not_capped` is a query that ends in a comment.
-/

/-- The tool. -/
structure SQLTool where
  /-- The largest number of rows. -/
  maxRows : ℤ := 100

namespace SQLTool

open Postgres

section Execute

-- `str.upper`, `int` and the database are parameters
variable (upper : PyStr → PyStr) (int : PyValue → Except PyExc ℤ) (lim : Json.Limits)
  (fetch : PyStr → Except PyExc (List PyDict))

/-- `_reject_writes`. -/
def rejectWrites (query : PyStr) : Except PyExc Unit :=
  let firstToken : PyStr := if query.strip.isEmpty then [] else upper (query.split.headD [])
  if firstToken ≠ "SELECT".toList then
    .error (.of .ToolDeniedError
      ("only SELECT queries are permitted; got ".toList ++ firstToken.repr))
  else .ok ()

/-- `value.strip()`. -/
def strip : PyValue → Except PyExc PyStr
  | .str s => .ok s.strip
  | v => .error (.of (.other "AttributeError".toList)
      ("'".toList ++ v.className ++ "' object has no attribute 'strip'".toList))

/-- What comes before the query. -/
def opening : PyStr := "SELECT * FROM (".toList

/-- What comes after the query. -/
def closing (limit : PyStr) : PyStr := ") _q LIMIT ".toList ++ limit

/-- The text that `SQLTool.execute` sends. -/
def boundedQuery (tool : SQLTool) (arguments : PyDict) : Except PyExc PyStr := do
  let query ← strip (← (PyValue.dict arguments).getItem "query".toList)
  rejectWrites upper query
  -- the caller can lower the limit, and not raise it
  let limit := min (← int ((arguments.get "limit".toList).getD (.int tool.maxRows))) tool.maxRows
  let limitText ← Json.intText lim limit
  return opening ++ query ++ closing limitText

/-- `SQLTool.execute`. -/
def execute (tool : SQLTool) (arguments : PyDict) : Except PyExc (List PyDict) := do
  fetch (← tool.boundedQuery upper int lim arguments)

end Execute

/-- The place of the parenthesis that the wrapper opens. -/
def wrapperParen : ℕ := 14

/-- In the text that is sent for the query, everything after the query is code, the parenthesis that
comes first there closes the one that the wrapper opens, and the limit is at most `maxRows`. -/
def Capped (maxRows : ℤ) (query text : PyStr) : Prop :=
  ∃ limit ≤ maxRows, text = opening ++ query ++ closing (PyStr.ofInt limit) ∧
    (∀ k, (opening ++ query).length ≤ k → k ≤ text.length →
      (Reading.read {} (text.take k)).state.isCode) ∧
    (Reading.read {} (text.take (opening ++ query).length)).opened.head? = some wrapperParen

/-- What `boundedQuery` sends for a query: the text of it within a subselect, with the limit of the
call behind it. -/
theorem boundedQuery_eq_ok {upper : PyStr → PyStr} {int : PyValue → Except PyExc ℤ}
    {lim : Json.Limits} {tool : SQLTool} {arguments : PyDict} {query text : PyStr}
    (hquery : arguments.get "query".toList = some (.str query))
    (hsent : tool.boundedQuery upper int lim arguments = .ok text) :
    ∃ limit ≤ tool.maxRows, text = opening ++ query.strip ++ closing (PyStr.ofInt limit) := by
  have hitem : (PyValue.dict arguments).getItem "query".toList = .ok (.str query) := by
    rw [PyValue.getItem, hquery]
  simp only [boundedQuery, Except.bind_eq_ok_iff] at hsent
  obtain ⟨value, hvalue, stripped, hstrip, _, -, n, -, limitText, hlimit, hreturn⟩ := hsent
  obtain rfl := Except.ok.inj (hitem.symm.trans hvalue)
  obtain rfl : query.strip = stripped := Except.ok.inj hstrip
  refine ⟨min n tool.maxRows, min_le_right _ _, ?_⟩
  rw [Json.intText] at hlimit
  split at hlimit
  · exact nomatch hlimit
  · obtain rfl := Except.ok.inj hlimit
    exact (Except.ok.inj hreturn).symm

/-- Read as code, the digits of the limit leave the lexer in code: they open no string and no
comment. -/
theorem isCode_foldl_ofInt (limit : ℤ) (word : Word) (k : ℕ) :
    (((PyStr.ofInt limit).take k).foldl LexState.step (.code word)).isCode := by
  have hdigits (n k : ℕ) : ∀ c ∈ (Nat.toDigits 10 n).take k, LexState.Plain c := by
    intro c hc
    have hdigit : c.isDigit := Nat.isDigit_of_mem_toDigits (by decide) (by decide)
      (List.mem_of_mem_take hc)
    refine ⟨?_, ?_, ?_, ?_, ?_⟩ <;> rintro rfl <;> exact absurd hdigit (by decide)
  cases limit with
  | ofNat n =>
    have htext : PyStr.ofInt (Int.ofNat n) = Nat.toDigits 10 n := Nat.toList_repr
    rw [htext]
    obtain ⟨word', hword⟩ := LexState.foldl_step_of_plain (hdigits n k) word
    rw [hword]
    rfl
  | negSucc n =>
    have htext : PyStr.ofInt (Int.negSucc n) = '-' :: Nat.toDigits 10 (n + 1) := by
      rw [← Nat.toList_repr]
      exact String.toList_append
    rw [htext]
    cases k with
    | zero => rfl
    | succ k =>
      -- the sign is followed by a digit, so it begins no comment
      have hplain := hdigits (n + 1) k
      rw [List.take_succ_cons, List.foldl_cons]
      show (List.foldl LexState.step .dash _).isCode
      cases hrest : (Nat.toDigits 10 (n + 1)).take k with
      | nil => rfl
      | cons c rest =>
        rw [hrest, List.forall_mem_cons] at hplain
        rw [List.foldl_cons, LexState.step, if_neg hplain.1.2.2.1,
          LexState.codeStep_of_plain hplain.1]
        obtain ⟨word', hword⟩ := LexState.foldl_step_of_plain hplain.2 (Word.none.next c)
        rw [hword]
        rfl

/-- Read as code, `closing` leaves the lexer in code up to any point, so nothing of it is hidden. -/
theorem isCode_foldl_closing {s : LexState} (hs : s.isCode) (limit : ℤ) (k : ℕ) :
    (((closing (PyStr.ofInt limit)).take k).foldl LexState.step s).isCode := by
  cases k with
  | zero => exact hs
  | succ k =>
    have hclosing : closing (PyStr.ofInt limit) =
        ')' :: (" _q LIMIT ".toList ++ PyStr.ofInt limit) := rfl
    have hplain : ∀ c ∈ " _q LIMIT ".toList.take k, LexState.Plain c := fun c hc => by
      have hmem := List.mem_of_mem_take hc
      simp at hmem
      rcases hmem with rfl | rfl | rfl | rfl | rfl | rfl | rfl | rfl | rfl | rfl
      all_goals refine ⟨?_, ?_, ?_, ?_, ?_⟩ <;> decide
    rw [hclosing, List.take_succ_cons, List.foldl_cons, LexState.step_closing hs, List.take_append,
      List.foldl_append]
    obtain ⟨word, hword⟩ := LexState.foldl_step_of_plain hplain .none
    rw [hword]
    exact isCode_foldl_ofInt limit word _

/-- For every query and limit that the tool accepts: in the text that it sends, what comes after the
query is code and closes the parenthesis of the wrapper (`Capped`), if and only if the query is
`SelfContained`: read by itself, from its first character to its last, it ends in code and its
parentheses match. Comments, quoted names, strings and dollar quotes are read as PostgreSQL reads
them. -/
theorem capped_iff {upper : PyStr → PyStr} {int : PyValue → Except PyExc ℤ} {lim : Json.Limits}
    {tool : SQLTool} {arguments : PyDict} {query text : PyStr}
    (hquery : arguments.get "query".toList = some (.str query))
    (hsent : tool.boundedQuery upper int lim arguments = .ok text) :
    Capped tool.maxRows query.strip text ↔ SelfContained query.strip := by
  obtain ⟨limit, hlimit, rfl⟩ := boundedQuery_eq_ok hquery hsent
  have hopened : ({} : Reading).read opening =
      { state := .code .none, position := opening.length, opened := [wrapperParen] } := by
    decide
  have hiff := head_opened_iff (r := ({} : Reading).read opening) (p := wrapperParen)
    (by rw [hopened]) (by rw [hopened]) (by rw [hopened]; decide) query.strip
  rw [← Reading.read_append] at hiff
  have htake (rest : PyStr) :
      (opening ++ query.strip ++ rest).take (opening ++ query.strip).length =
        opening ++ query.strip := List.take_left
  constructor
  · rintro ⟨limit', -, -, hcode, hhead⟩
    rw [htake] at hhead
    have hstate := hcode _ le_rfl (by simp)
    rw [htake] at hstate
    exact hiff.mp ⟨hstate, hhead⟩
  · intro hself
    obtain ⟨hcode, hhead⟩ := hiff.mpr hself
    refine ⟨limit, hlimit, rfl, fun k hk _ => ?_, ?_⟩
    · obtain ⟨j, rfl⟩ := Nat.exists_eq_add_of_le hk
      rw [List.take_length_add_append, Reading.read_append, Reading.state_read]
      exact isCode_foldl_closing hcode limit j
    · rw [htake]
      exact hhead

/-- The arguments of a call with a query and no limit. -/
def queryOnly (query : PyStr) : PyDict := [(.str "query".toList, .str query)]

/-- `int` of an integer. -/
def intOf : PyValue → Except PyExc ℤ
  | .int n => .ok n
  | v => .error (.of .TypeError
    ("int() argument must be a string, a bytes-like object or a real number, not '".toList ++
      v.className ++ "'".toList))

/-- `str.upper` of a text in capital letters. -/
def upperOf (s : PyStr) : PyStr := s.map Char.toUpper

/-- An interpreter without a bound on the digits of an integer. -/
def unlimited : Json.Limits := { Json.Limits.thousand with digits := 0 }

/-- A query that closes the wrapper's parenthesis and comments out the limit. -/
def commentedOut : PyStr := "SELECT n FROM t) a --".toList

/-- The text that is sent for `commentedOut`: its `--` turns the closing bracket and the limit into
a comment. -/
theorem boundedQuery_commentedOut :
    SQLTool.boundedQuery upperOf intOf unlimited {} (queryOnly commentedOut) =
      .ok "SELECT * FROM (SELECT n FROM t) a --) _q LIMIT 100".toList := by
  rfl

/-- The tool sends the query with its limit in a comment: the query closes the parenthesis of the
wrapper itself, and ends with `--`. -/
theorem commentedOut_not_capped :
    SQLTool.boundedQuery upperOf intOf unlimited {} (queryOnly commentedOut) =
        .ok "SELECT * FROM (SELECT n FROM t) a --) _q LIMIT 100".toList ∧
      ¬Capped 100 commentedOut.strip
        "SELECT * FROM (SELECT n FROM t) a --) _q LIMIT 100".toList := by
  refine ⟨boundedQuery_commentedOut, ?_⟩
  rintro ⟨limit, -, -, hcode, -⟩
  exact absurd (hcode 36 (by decide) (by decide)) (by decide)

theorem boundedQuery_select :
    SQLTool.boundedQuery upperOf intOf unlimited {} (queryOnly "SELECT (1)".toList) =
      .ok "SELECT * FROM (SELECT (1)) _q LIMIT 100".toList := by
  rfl

/-- `capped_iff` for a query with matching parentheses: it is `SelfContained`, so the limit applies
to it. -/
theorem capped_select :
    Capped 100 (PyStr.strip "SELECT (1)".toList)
      "SELECT * FROM (SELECT (1)) _q LIMIT 100".toList :=
  have hquery : (queryOnly "SELECT (1)".toList).get "query".toList =
      some (.str "SELECT (1)".toList) := rfl
  (capped_iff hquery boundedQuery_select).mpr (by decide)

end SQLTool
