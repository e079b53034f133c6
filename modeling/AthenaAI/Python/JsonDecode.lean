import AthenaAI.Python.Value

/-!
# Reading JSON

`json.loads`, as it is documented: the texts that it accepts, and their values. A text is read in
two steps, both by a machine that takes one piece after the other: characters into tokens, and
tokens into a value.

* `lex` is the first step, `parse` the second one, and `decode` is both.
* `Lexer.Swapped`: one reading of a text that begins outside the strings, and another one that
  begins inside a string, are never both outside or both inside. So the strings of the first are
  made of what is between strings in the second (`structural_lex`).
* `strung_of_parse`: the strings of a value are strings of the text, and so are the keys of a dict
  (`keys_of_parse`).

`NaN` and `Infinity` are accepted, as `json.loads` does. What `float` makes of the text of a number
is a parameter. A lone surrogate, which a `Char` cannot be, is read as U+FFFD.
-/

namespace Json

/-- A token. -/
inductive Token where
  | openList
  | closeList
  | openDict
  | closeDict
  | comma
  | colon
  | string (s : PyStr)
  -- a number or a literal
  | word (w : PyStr)
  deriving DecidableEq

/-! ## Characters into tokens -/

/-- The quotation mark. -/
def quotationMark : Char := Char.ofNat 0x22

/-- The token of a character. -/
def punctuation? (c : Char) : Option Token :=
  if c = '[' then some .openList
  else if c = ']' then some .closeList
  else if c = Char.ofNat 0x7B then some .openDict
  else if c = Char.ofNat 0x7D then some .closeDict
  else if c = ',' then some .comma
  else if c = ':' then some .colon
  else none

/-- The whitespace of JSON. -/
def isWhitespace (c : Char) : Bool := c = ' ' || c = '\t' || c = '\n' || c = '\r'

/-- The characters of numbers, `true`, `false`, `null`, `NaN` and `Infinity`. -/
def wordChars : PyStr := "0123456789+-.eEtrufalsnNIiy".toList

/-- What an escape of one character stands for. -/
def escaped? (c : Char) : Option Char :=
  if c = quotationMark ∨ c = '\\' ∨ c = '/' then some c
  else if c = 'b' then some (Char.ofNat 0x08)
  else if c = 'f' then some (Char.ofNat 0x0C)
  else if c = 'n' then some '\n'
  else if c = 'r' then some '\r'
  else if c = 't' then some '\t'
  else none

/-- The value of a hexadecimal digit. -/
def hexValue? (c : Char) : Option ℕ :=
  if c.isDigit then some (c.toNat - 48)
  else if 'a' ≤ c ∧ c ≤ 'f' then some (c.toNat - 87)
  else if 'A' ≤ c ∧ c ≤ 'F' then some (c.toNat - 55)
  else none

/-- The first half of a surrogate pair. -/
def isHigh (code : ℕ) : Bool := 0xD800 ≤ code && code < 0xDC00

/-- The second half of a surrogate pair. -/
def isLow (code : ℕ) : Bool := 0xDC00 ≤ code && code < 0xE000

/-- The character of a code point. -/
def charOf (code : ℕ) : Char :=
  if isHigh code || isLow code then Char.ofNat 0xFFFD else Char.ofNat code

/-- The text of code points: a surrogate pair is one character. -/
def ofCodes : List ℕ → PyStr
  | [] => []
  | [code] => [charOf code]
  | high :: low :: codes =>
    if isHigh high && isLow low then
      Char.ofNat (0x10000 + (high - 0xD800) * 0x400 + (low - 0xDC00)) :: ofCodes codes
    else charOf high :: ofCodes (low :: codes)

/-- Where the reading is. -/
inductive Mode where
  -- between the strings, in a word if it is not empty
  | code (word : PyStr)
  -- in a string, with the code points so far
  | string (codes : List ℕ)
  | escape (codes : List ℕ)
  -- after `\u`, with the digits so far
  | unicode (codes : List ℕ) (digits : List ℕ)
  deriving DecidableEq

/-- The state of the first machine. -/
structure Lexer where
  /-- The tokens so far. -/
  tokens : List Token := []
  /-- Where the reading is. -/
  mode : Mode := .code []
  deriving DecidableEq

namespace Lexer

/-- The tokens with the word that ends. -/
def endWord (tokens : List Token) (word : PyStr) : List Token :=
  if word.isEmpty then tokens else tokens ++ [.word word]

/-- A character is read. -/
def step : Lexer → Char → Option Lexer
  | ⟨tokens, .code word⟩, c =>
    if c = quotationMark then some ⟨endWord tokens word, .string []⟩
    else if isWhitespace c then some ⟨endWord tokens word, .code []⟩
    else if c ∈ wordChars then some ⟨tokens, .code (word ++ [c])⟩
    else (punctuation? c).map fun token => ⟨endWord tokens word ++ [token], .code []⟩
  | ⟨tokens, .string codes⟩, c =>
    if c = quotationMark then some ⟨tokens ++ [.string (ofCodes codes)], .code []⟩
    else if c = '\\' then some ⟨tokens, .escape codes⟩
    -- a control character has to be escaped
    else if c.toNat < 0x20 then none
    else some ⟨tokens, .string (codes ++ [c.toNat])⟩
  | ⟨tokens, .escape codes⟩, c =>
    if c = 'u' then some ⟨tokens, .unicode codes []⟩
    else (escaped? c).map fun d => ⟨tokens, .string (codes ++ [d.toNat])⟩
  | ⟨tokens, .unicode codes digits⟩, c =>
    (hexValue? c).map fun digit =>
      -- the fourth digit is the last one
      if digits.length = 3 then
        ⟨tokens, .string (codes ++ [(digits ++ [digit]).foldl (fun n d => 16 * n + d) 0])⟩
      else ⟨tokens, .unicode codes (digits ++ [digit])⟩

/-- A text is read. -/
def run (l : Lexer) (text : PyStr) : Option Lexer := text.foldlM step l

/-- The tokens of a text that ends here. -/
def finish : Lexer → Option (List Token)
  | ⟨tokens, .code word⟩ => some (endWord tokens word)
  | _ => none

end Lexer

/-- The tokens of a text. -/
def lex (text : PyStr) : Option (List Token) := (Lexer.run {} text).bind Lexer.finish

/-! ## Tokens into a value -/

section Numbers

/-- The text after one digit or more. -/
def dropDigits (s : PyStr) : Option PyStr :=
  if (s.takeWhile Char.isDigit).isEmpty then none else some (s.dropWhile Char.isDigit)

/-- The text after a fraction, if there is one. -/
def dropFraction : PyStr → Option PyStr
  | '.' :: s => dropDigits s
  | s => some s

/-- The text after an exponent, if there is one. -/
def dropExponent : PyStr → Option PyStr
  | c :: s =>
    if c = 'e' ∨ c = 'E' then
      match s with
      | d :: s => dropDigits (if d = '+' ∨ d = '-' then s else d :: s)
      | [] => none
    else some (c :: s)
  | [] => some []

/-- The value of a number without its sign: an integer, or what `float` makes of the text. -/
def number? (float : PyStr → PyStr) (word : PyStr) (negative : Bool) (s : PyStr) : Option PyValue :=
  let digits := s.takeWhile Char.isDigit
  let rest := s.dropWhile Char.isDigit
  -- no digits, or a zero in front of others
  if digits.isEmpty || (digits.head? = some '0' && digits.length ≠ 1) then none
  else if rest.isEmpty then
    let n : ℕ := digits.foldl (fun n c => 10 * n + (c.toNat - 48)) 0
    some (.int (if negative then -n else n))
  else if (dropFraction rest).bind dropExponent = some [] then some (.float (float word))
  else none

/-- The value of a word. -/
def wordValue? (float : PyStr → PyStr) (word : PyStr) : Option PyValue :=
  if word = "true".toList then some (.bool true)
  else if word = "false".toList then some (.bool false)
  else if word = "null".toList then some .none
  else if word = "NaN".toList then some (.float "nan".toList)
  else if word = "Infinity".toList then some (.float "inf".toList)
  else if word = "-Infinity".toList then some (.float "-inf".toList)
  else
    match word with
    | '-' :: s => number? float word true s
    | s => number? float word false s

end Numbers

/-- A container that is open while a value in it is read. -/
inductive Frame where
  | list (xs : List PyValue)
  | dict (items : PyDict) (key : PyStr)

/-- What the second machine waits for, in which containers. -/
inductive Parser where
  | value (stack : List Frame)
  -- the first value of a list, or its end
  | firstValue (stack : List Frame)
  -- the first key of a dict, or its end
  | firstKey (stack : List Frame)
  | nextKey (items : PyDict) (stack : List Frame)
  | colon (items : PyDict) (key : PyStr) (stack : List Frame)
  -- a value is complete
  | done (v : PyValue) (stack : List Frame)

namespace Parser

variable (float : PyStr → PyStr)

/-- A value begins. -/
def begin (stack : List Frame) : Token → Option Parser
  | .string s => some (.done (.str s) stack)
  | .word w => (wordValue? float w).map fun v => .done v stack
  | .openList => some (.firstValue stack)
  | .openDict => some (.firstKey stack)
  | _ => none

/-- A token is read. -/
def step : Parser → Token → Option Parser
  | .value stack, token => begin float stack token
  | .firstValue stack, .closeList => some (.done (.list []) stack)
  | .firstValue stack, token => begin float (.list [] :: stack) token
  | .firstKey stack, .closeDict => some (.done (.dict []) stack)
  | .firstKey stack, .string key => some (.colon [] key stack)
  | .nextKey items stack, .string key => some (.colon items key stack)
  | .colon items key stack, .colon => some (.value (.dict items key :: stack))
  | .done v (.list xs :: stack), .comma => some (.value (.list (xs ++ [v]) :: stack))
  | .done v (.list xs :: stack), .closeList => some (.done (.list (xs ++ [v])) stack)
  -- the last value of a key is the one that counts
  | .done v (.dict items key :: stack), .comma => some (.nextKey (items.set key v) stack)
  | .done v (.dict items key :: stack), .closeDict => some (.done (.dict (items.set key v)) stack)
  | _, _ => none

/-- The value, if it is complete and in no container. -/
def finish : Parser → Option PyValue
  | .done v [] => some v
  | _ => none

end Parser

/-- The value of tokens. -/
def parse (float : PyStr → PyStr) (tokens : List Token) : Option PyValue :=
  (tokens.foldlM (Parser.step float) (.value [])).bind Parser.finish

/-- The value of a JSON text. -/
def decode (float : PyStr → PyStr) (text : PyStr) : Option PyValue := (lex text).bind (parse float)

/-! ## Reading on -/

namespace Lexer

theorem run_cons (l : Lexer) (c : Char) (text : PyStr) :
    run l (c :: text) = (step l c).bind fun l => run l text := by
  rw [run, List.foldlM_cons]
  rfl

theorem run_append (l : Lexer) (a b : PyStr) :
    run l (a ++ b) = (run l a).bind fun l => run l b := by
  rw [run, List.foldlM_append]
  rfl

theorem run_cons_eq_some_iff {l l' : Lexer} {c : Char} {text : PyStr} :
    run l (c :: text) = some l' ↔ ∃ m, step l c = some m ∧ run m text = some l' := by
  rw [run_cons, Option.bind_eq_some_iff]

theorem run_append_eq_some_iff {l l' : Lexer} {a b : PyStr} :
    run l (a ++ b) = some l' ↔ ∃ m, run l a = some m ∧ run m b = some l' := by
  rw [run_append, Option.bind_eq_some_iff]

/-- The reading is between the strings. -/
def InCode (l : Lexer) : Prop := ∃ word, l.mode = .code word

/-- The reading is in a string. -/
def InString (l : Lexer) : Prop := ∃ codes, l.mode = .string codes

theorem InCode.not_inString {l : Lexer} (hcode : l.InCode) : ¬l.InString := by
  rintro ⟨codes, hstring⟩
  obtain ⟨word, hword⟩ := hcode
  exact nomatch hword.symm.trans hstring

/-- A text that ends is read to a point between the strings. -/
theorem inCode_of_finish {l : Lexer} {tokens : List Token} (h : l.finish = some tokens) :
    l.InCode := by
  obtain ⟨ts, mode⟩ := l
  cases mode with
  | code word => exact ⟨word, rfl⟩
  | string codes => exact nomatch h
  | escape codes => exact nomatch h
  | unicode codes digits => exact nomatch h

end Lexer

/-! ## Whitespace -/

/-- No whitespace is in a word. -/
theorem not_mem_wordChars {c : Char} (hc : PyStr.isSpace c) : c ∉ wordChars := by
  have hall : wordChars.all (fun d => !PyStr.isSpace d) = true := by decide
  intro hmem
  have hspace := List.all_eq_true.mp hall c hmem
  rw [hc] at hspace
  exact Bool.false_ne_true hspace

theorem ne_of_isSpace {c d : Char} (hc : PyStr.isSpace c) (hd : PyStr.isSpace d = false) :
    c ≠ d := by
  rintro rfl
  exact Bool.false_ne_true (hd.symm.trans hc)

theorem punctuation?_of_isSpace {c : Char} (hc : PyStr.isSpace c) : punctuation? c = none := by
  have hne (d : Char) (hd : PyStr.isSpace d = false) : ¬c = d := ne_of_isSpace hc hd
  rw [punctuation?, if_neg (hne _ (by decide)), if_neg (hne _ (by decide)),
    if_neg (hne _ (by decide)), if_neg (hne _ (by decide)), if_neg (hne _ (by decide)),
    if_neg (hne _ (by decide))]

/-- No whitespace is between two characters that are above the space and below U+0080. -/
theorem not_le_and_le {c a b : Char} (hc : PyStr.isSpace c) (ha : 0x20 < a.toNat)
    (hb : b.toNat < 0x80) : ¬(a ≤ c ∧ c ≤ b) := by
  simp only [PyStr.isSpace, Bool.or_eq_true, Bool.and_eq_true, decide_eq_true_eq, beq_iff_eq] at hc
  rintro ⟨hac, hcb⟩
  have hlower : a.toNat ≤ c.toNat := UInt32.le_iff_toNat_le.mp hac
  have hupper : c.toNat ≤ b.toNat := UInt32.le_iff_toNat_le.mp hcb
  omega

theorem hexValue?_of_isSpace {c : Char} (hc : PyStr.isSpace c) : hexValue? c = none := by
  have hdigit : ¬c.isDigit := by
    have hrange : ¬('0' ≤ c ∧ c ≤ '9') := not_le_and_le hc (by decide) (by decide)
    simpa [Char.isDigit, Char.le_def] using hrange
  rw [hexValue?, if_neg hdigit, if_neg (not_le_and_le hc (by decide) (by decide)),
    if_neg (not_le_and_le hc (by decide) (by decide))]

namespace Lexer

/-- Whitespace ends the word. -/
theorem step_code_of_isSpace {tokens : List Token} {word : PyStr} {c : Char} {l : Lexer}
    (hc : PyStr.isSpace c) (h : step ⟨tokens, .code word⟩ c = some l) :
    l = ⟨endWord tokens word, .code []⟩ := by
  rw [step, if_neg (ne_of_isSpace hc (by decide)), if_neg (not_mem_wordChars hc),
    punctuation?_of_isSpace hc] at h
  split_ifs at h with hwhite
  · exact (Option.some.inj h).symm
  · exact nomatch h

/-- After a word has ended, whitespace changes nothing. -/
theorem run_code_nil_of_isSpace {tokens : List Token} {s : PyStr} {l : Lexer}
    (hs : ∀ c ∈ s, PyStr.isSpace c) (h : run ⟨tokens, .code []⟩ s = some l) :
    l = ⟨tokens, .code []⟩ := by
  induction s with
  | nil => exact (Option.some.inj h).symm
  | cons c s ih =>
    rw [List.forall_mem_cons] at hs
    obtain ⟨m, hm, hrest⟩ := run_cons_eq_some_iff.mp h
    obtain rfl := step_code_of_isSpace hs.1 hm
    exact ih hs.2 hrest

/-- Between the strings, whitespace does not change the tokens. -/
theorem finish_eq_of_isSpace {l l' : Lexer} {s : PyStr} (hcode : l.InCode)
    (hs : ∀ c ∈ s, PyStr.isSpace c) (h : run l s = some l') : l'.finish = l.finish := by
  obtain ⟨tokens, mode⟩ := l
  obtain ⟨word, rfl⟩ := hcode
  cases s with
  | nil => rw [← Option.some.inj h]
  | cons c s =>
    rw [List.forall_mem_cons] at hs
    obtain ⟨m, hm, hrest⟩ := run_cons_eq_some_iff.mp h
    obtain rfl := step_code_of_isSpace hs.1 hm
    obtain rfl := run_code_nil_of_isSpace hs.2 hrest
    rfl

/-- A string goes on over what is no quotation mark and no backslash. -/
theorem inString_step {l l' : Lexer} {c : Char} (hstring : l.InString) (hquote : c ≠ quotationMark)
    (hescape : c ≠ '\\') (h : step l c = some l') : l'.InString := by
  obtain ⟨tokens, mode⟩ := l
  obtain ⟨codes, rfl⟩ := hstring
  rw [step, if_neg hquote, if_neg hescape] at h
  split_ifs at h
  exact ⟨codes ++ [c.toNat], by rw [← Option.some.inj h]⟩

/-- A string goes on where there is neither a quotation mark nor a backslash. -/
theorem inString_run {l l' : Lexer} {s : PyStr} (hstring : l.InString)
    (hs : ∀ c ∈ s, c ≠ quotationMark ∧ c ≠ '\\') (h : run l s = some l') : l'.InString := by
  induction s generalizing l with
  | nil => exact Option.some.inj h ▸ hstring
  | cons c s ih =>
    rw [List.forall_mem_cons] at hs
    obtain ⟨m, hm, hrest⟩ := run_cons_eq_some_iff.mp h
    exact ih (inString_step hstring hs.1.1 hs.1.2 hm) hs.2 hrest

/-- Only a quotation mark ends a string. -/
theorem not_inCode_step {l l' : Lexer} {c : Char} (hcode : ¬l.InCode) (hquote : c ≠ quotationMark)
    (h : step l c = some l') : ¬l'.InCode := by
  obtain ⟨tokens, mode⟩ := l
  rintro ⟨word, hword⟩
  cases mode with
  | code word => exact hcode ⟨word, rfl⟩
  | string codes =>
    rw [step, if_neg hquote] at h
    split_ifs at h
    · exact nomatch Option.some.inj h ▸ hword
    · exact nomatch Option.some.inj h ▸ hword
  | escape codes =>
    rw [step] at h
    split_ifs at h
    · exact nomatch Option.some.inj h ▸ hword
    · obtain ⟨d, -, rfl⟩ := Option.map_eq_some_iff.mp h
      exact nomatch hword
  | unicode codes digits =>
    obtain ⟨d, -, hd⟩ := Option.map_eq_some_iff.mp h
    split_ifs at hd
    · exact nomatch hd ▸ hword
    · exact nomatch hd ▸ hword

theorem not_inCode_run {l l' : Lexer} {s : PyStr} (hcode : ¬l.InCode)
    (hs : ∀ c ∈ s, c ≠ quotationMark) (h : run l s = some l') : ¬l'.InCode := by
  induction s generalizing l with
  | nil => exact Option.some.inj h ▸ hcode
  | cons c s ih =>
    rw [List.forall_mem_cons] at hs
    obtain ⟨m, hm, hrest⟩ := run_cons_eq_some_iff.mp h
    exact ih (not_inCode_step hcode hs.1 hm) hs.2 hrest

end Lexer

theorem ne_quotationMark {c : Char} (hc : PyStr.isSpace c) : c ≠ quotationMark :=
  ne_of_isSpace hc (by decide)

/-- Whitespace around a text adds nothing to its tokens. -/
theorem lex_append_append {before text after : PyStr} {tokens : List Token}
    (hbefore : ∀ c ∈ before, PyStr.isSpace c) (hafter : ∀ c ∈ after, PyStr.isSpace c)
    (h : lex (before ++ (text ++ after)) = some tokens) : lex text = some tokens := by
  obtain ⟨l, hrun, hfinish⟩ := Option.bind_eq_some_iff.mp h
  obtain ⟨first, hfirst, hrun⟩ := Lexer.run_append_eq_some_iff.mp hrun
  obtain rfl := Lexer.run_code_nil_of_isSpace hbefore hfirst
  obtain ⟨last, hlast, hrun⟩ := Lexer.run_append_eq_some_iff.mp hrun
  have hcode : last.InCode := by
    by_contra hnot
    exact Lexer.not_inCode_run hnot (fun c hc => ne_quotationMark (hafter c hc)) hrun
      (Lexer.inCode_of_finish hfinish)
  refine Option.bind_eq_some_iff.mpr ⟨last, hlast, ?_⟩
  rw [← Lexer.finish_eq_of_isSpace hcode hafter hrun]
  exact hfinish

/-- A text that ends in a string, but for whitespace, has no tokens. -/
theorem lex_eq_none_of_inString {before text after : PyStr} {l : Lexer}
    (hbefore : ∀ c ∈ before, PyStr.isSpace c) (hafter : ∀ c ∈ after, PyStr.isSpace c)
    (hrun : Lexer.run {} (before ++ (text ++ after)) = some l) (hstring : l.InString) :
    lex text = none := by
  obtain ⟨first, hfirst, hrun⟩ := Lexer.run_append_eq_some_iff.mp hrun
  obtain rfl := Lexer.run_code_nil_of_isSpace hbefore hfirst
  obtain ⟨last, hlast, hrun⟩ := Lexer.run_append_eq_some_iff.mp hrun
  by_contra hlex
  obtain ⟨tokens, htokens⟩ := Option.ne_none_iff_exists'.mp hlex
  obtain ⟨m, hm, hfinish⟩ := Option.bind_eq_some_iff.mp htokens
  obtain rfl := Option.some.inj (hlast.symm.trans hm)
  -- whitespace does not begin a string
  have hcode := Lexer.inCode_of_finish hfinish
  have hsame := Lexer.finish_eq_of_isSpace hcode hafter hrun
  exact (Lexer.inCode_of_finish (hsame.trans hfinish)).not_inString hstring

/-- Whitespace around a text does not change its value. -/
theorem decode_strip {float : PyStr → PyStr} {text : PyStr} {v : PyValue}
    (h : decode float text = some v) : decode float text.strip = some v := by
  obtain ⟨before, after, heq, hbefore, hafter⟩ := PyStr.exists_eq_append_strip text
  obtain ⟨tokens, hlex, hparse⟩ := Option.bind_eq_some_iff.mp h
  rw [heq] at hlex
  exact Option.bind_eq_some_iff.mpr ⟨tokens, lex_append_append hbefore hafter hlex, hparse⟩

/-- A line break that is neither a line feed nor a carriage return can only be read in a string. -/
theorem Lexer.inString_of_isLineBreak {l l' : Lexer} {c : Char} (hc : PyStr.isLineBreak c)
    (hlf : c ≠ '\n') (hcr : c ≠ '\r') (h : step l c = some l') : l.InString ∧ l'.InString := by
  have hspace : PyStr.isSpace c := by
    simp only [PyStr.isLineBreak, PyStr.isSpace, Bool.or_eq_true, Bool.and_eq_true,
      decide_eq_true_eq, beq_iff_eq] at hc ⊢
    omega
  have hne (d : Char) (hd : PyStr.isSpace d = false) : c ≠ d := ne_of_isSpace hspace hd
  have hbreak (d : Char) (hd : PyStr.isLineBreak d = false) : c ≠ d := by
    rintro rfl
    exact Bool.false_ne_true (hd.symm.trans hc)
  obtain ⟨tokens, mode⟩ := l
  cases mode with
  | code word =>
    have hwhite : ¬isWhitespace c := by
      simp [isWhitespace, hlf, hcr, hbreak ' ' (by decide), hbreak '\t' (by decide)]
    rw [step, if_neg (hne _ (by decide)), if_neg hwhite, if_neg (not_mem_wordChars hspace),
      punctuation?_of_isSpace hspace] at h
    exact nomatch h
  | string codes =>
    have hstring : Lexer.InString ⟨tokens, .string codes⟩ := ⟨codes, rfl⟩
    exact ⟨hstring, inString_step hstring (hne _ (by decide)) (hne _ (by decide)) h⟩
  | escape codes =>
    have hescaped : escaped? c = none := by
      simp [escaped?, hne quotationMark (by decide), hne '\\' (by decide), hne '/' (by decide),
        hne 'b' (by decide), hne 'f' (by decide), hne 'n' (by decide), hne 'r' (by decide),
        hne 't' (by decide)]
    rw [step, if_neg (hne _ (by decide)), hescaped] at h
    exact nomatch h
  | unicode codes digits =>
    rw [step, hexValue?_of_isSpace hspace] at h
    exact nomatch h

/-! ## Two readings -/

/-- The code points are those of characters of words and of punctuation, not of `m`. -/
def Structural (codes : List ℕ) : Prop := ∀ code ∈ codes, code < 0xD800 ∧ code ≠ 'm'.toNat

/-- The strings among the tokens have no `m` in them. -/
def Token.Structural (tokens : List Token) : Prop := ∀ s, .string s ∈ tokens → 'm' ∉ s

/-- `Structural` code points are decoded one by one: there are no surrogates among them. -/
theorem ofCodes_of_structural {codes : List ℕ} (h : Structural codes) :
    ofCodes codes = codes.map Char.ofNat := by
  have hchar {code : ℕ} (hcode : code < 0xD800) : charOf code = Char.ofNat code := by
    have hhigh : isHigh code = false := by simp [isHigh, hcode]
    have hlow : isLow code = false := by simp [isLow]; omega
    rw [charOf, hhigh, hlow]
    rfl
  induction codes using ofCodes.induct with
  | case1 => rfl
  | case2 code => rw [ofCodes, hchar (h code List.mem_cons_self).1, List.map_singleton]
  | case3 high low codes hpair _ =>
    have hhigh := (h high List.mem_cons_self).1
    simp [isHigh] at hpair
    omega
  | case4 high low codes hpair ih =>
    rw [ofCodes, if_neg hpair, hchar (h high List.mem_cons_self).1,
      ih fun code hcode => h code (List.mem_cons_of_mem _ hcode), List.map_cons, List.map_cons]
    rfl

theorem not_mem_ofCodes {codes : List ℕ} (h : Structural codes) : 'm' ∉ ofCodes codes := by
  rw [ofCodes_of_structural h, List.mem_map]
  rintro ⟨code, hcode, hm⟩
  obtain ⟨hlt, hne⟩ := h code hcode
  have hvalid : code.isValidChar := Or.inl hlt
  have hcode : (Char.ofNat code).toNat = code := by
    rw [Char.ofNat, dif_pos hvalid]
    rfl
  exact hne (hcode.symm.trans (congrArg Char.toNat hm))

namespace Lexer

/-- Of two readings of one text, one is between the strings where the other one is in a string. The
strings that the first one has read are made of what is between the strings of the second one. -/
def Swapped (l o : Lexer) : Prop :=
  Token.Structural l.tokens ∧
    ((l.InCode ∧ o.InString) ∨
      ∃ codes, l.mode = .string codes ∧ Structural codes ∧ o.InCode)

/-- The end of a word adds no string. -/
theorem string_mem_endWord {tokens : List Token} {word s : PyStr}
    (h : .string s ∈ endWord tokens word) : .string s ∈ tokens := by
  rw [endWord] at h
  split_ifs at h
  · exact h
  · rcases List.mem_append.mp h with hs | hs
    · exact hs
    · exact nomatch List.mem_singleton.mp hs

/-- Punctuation has no `m` in it and begins no escape, and is no string. -/
theorem structural_punctuation {c : Char} {token : Token} (h : punctuation? c = some token) :
    (c ≠ '\\' ∧ c ≠ 'm' ∧ c.toNat < 0xD800) ∧ ∀ s, token ≠ .string s := by
  unfold punctuation? at h
  split_ifs at h with h1 h2 h3 h4 h5 h6
  all_goals
    obtain rfl := Option.some.inj h
    subst_vars
    exact ⟨by decide, nofun⟩

/-- What is read between the strings, but for the quotation mark, adds no string. -/
theorem step_code_of_ne {tokens : List Token} {word : PyStr} {c : Char} {l : Lexer}
    (hquote : c ≠ quotationMark) (h : step ⟨tokens, .code word⟩ c = some l) :
    (c ≠ '\\' ∧ c ≠ 'm' ∧ c.toNat < 0xD800) ∧ l.InCode ∧
      ∀ s, .string s ∈ l.tokens → .string s ∈ tokens := by
  rw [step, if_neg hquote] at h
  split_ifs at h with hwhite hword
  · have hc : c = ' ' ∨ c = '\t' ∨ c = '\n' ∨ c = '\r' := by
      simpa [isWhitespace, or_assoc] using hwhite
    obtain rfl := Option.some.inj h
    exact ⟨by rcases hc with rfl | rfl | rfl | rfl <;> decide, ⟨[], rfl⟩,
      fun _ => string_mem_endWord⟩
  · have hall : wordChars.all (fun d => d ≠ '\\' ∧ d ≠ 'm' ∧ d.toNat < 0xD800) = true := by decide
    obtain rfl := Option.some.inj h
    exact ⟨of_decide_eq_true (List.all_eq_true.mp hall c hword), ⟨_, rfl⟩, fun _ => id⟩
  · obtain ⟨token, htoken, rfl⟩ := Option.map_eq_some_iff.mp h
    obtain ⟨hc, hstring⟩ := structural_punctuation htoken
    refine ⟨hc, ⟨[], rfl⟩, fun s hs => ?_⟩
    rcases List.mem_append.mp hs with hs | hs
    · exact string_mem_endWord hs
    · exact absurd (List.mem_singleton.mp hs).symm (hstring s)

/-- The two readings stay on different sides. -/
theorem swapped_step {l l' o o' : Lexer} {c : Char} (h : Swapped l o) (hl : step l c = some l')
    (ho : step o c = some o') : Swapped l' o' := by
  obtain ⟨tokens, mode⟩ := l
  obtain ⟨otokens, omode⟩ := o
  obtain ⟨hstruct, ⟨⟨word, rfl⟩, codes, rfl⟩ | ⟨codes, rfl, hcodes, word, rfl⟩⟩ := h
  · by_cases hquote : c = quotationMark
    -- the string of the second reading ends, and one of the first begins
    · subst hquote
      obtain rfl := Option.some.inj hl
      obtain rfl := Option.some.inj ho
      exact ⟨fun s hs => hstruct s (string_mem_endWord hs), Or.inr ⟨[], rfl, nofun, [], rfl⟩⟩
    · obtain ⟨⟨hescape, -⟩, hcode, hstrings⟩ := step_code_of_ne hquote hl
      exact ⟨fun s hs => hstruct s (hstrings s hs),
        Or.inl ⟨hcode, inString_step ⟨codes, rfl⟩ hquote hescape ho⟩⟩
  · by_cases hquote : c = quotationMark
    · subst hquote
      obtain rfl := Option.some.inj hl
      obtain rfl := Option.some.inj ho
      refine ⟨fun s hs => ?_, Or.inl ⟨⟨[], rfl⟩, [], rfl⟩⟩
      rcases List.mem_append.mp hs with hs | hs
      · exact hstruct s hs
      · obtain rfl := Token.string.inj (List.mem_singleton.mp hs)
        exact not_mem_ofCodes hcodes
    -- what the second reading has between its strings goes into the string of the first
    · obtain ⟨⟨hescape, hm, hlt⟩, hcode, -⟩ := step_code_of_ne hquote ho
      rw [step, if_neg hquote, if_neg hescape] at hl
      split_ifs at hl
      obtain rfl := Option.some.inj hl
      refine ⟨hstruct, Or.inr ⟨_, rfl, fun code hmem => ?_, hcode⟩⟩
      rcases List.mem_append.mp hmem with hmem | hmem
      · exact hcodes code hmem
      · obtain rfl := List.mem_singleton.mp hmem
        exact ⟨hlt, fun heq => hm (Char.toNat_inj.mp heq)⟩

/-- Two readings that are `Swapped` stay so for as long as both of them go on. By induction on the
text, with `swapped_step`. -/
theorem swapped_run {l l' o o' : Lexer} {s : PyStr} (h : Swapped l o) (hl : run l s = some l')
    (ho : run o s = some o') : Swapped l' o' := by
  induction s generalizing l o with
  | nil =>
    obtain rfl := Option.some.inj hl
    obtain rfl := Option.some.inj ho
    exact h
  | cons c s ih =>
    obtain ⟨m, hm, hl⟩ := run_cons_eq_some_iff.mp hl
    obtain ⟨n, hn, ho⟩ := run_cons_eq_some_iff.mp ho
    exact ih (swapped_step h hm hn) hl ho

end Lexer

/-- The strings of a text are those that the lexer has come to at its end. -/
theorem exists_run_of_lex {text : PyStr} {tokens : List Token} (h : lex text = some tokens) :
    ∃ l, Lexer.run {} text = some l ∧ ∀ s, .string s ∈ tokens → .string s ∈ l.tokens := by
  obtain ⟨⟨ts, mode⟩, hl, hfinish⟩ := Option.bind_eq_some_iff.mp h
  obtain ⟨word, hword⟩ := Lexer.inCode_of_finish hfinish
  obtain rfl : mode = .code word := hword
  obtain rfl := Option.some.inj hfinish
  exact ⟨_, hl, fun s hs => Lexer.string_mem_endWord hs⟩

/-- The strings of a text that another reading comes to inside a string have no `m` in them. -/
theorem structural_lex {o o' : Lexer} {text : PyStr} {tokens : List Token} (ho : o.InString)
    (hrun : o.run text = some o') (hlex : lex text = some tokens) : Token.Structural tokens := by
  obtain ⟨l, hl, hstrings⟩ := exists_run_of_lex hlex
  have hstart : Lexer.Swapped {} o := ⟨nofun, Or.inl ⟨⟨[], rfl⟩, ho⟩⟩
  obtain ⟨hstruct, -⟩ := Lexer.swapped_run hstart hl hrun
  exact fun s hs => hstruct s (hstrings s hs)

/-! ## The strings of a value -/

/-- The strings of the value and its keys satisfy `P`; the keys are strings. -/
inductive Strung (P : PyStr → Prop) : PyValue → Prop
  | none : Strung P .none
  | bool (b : Bool) : Strung P (.bool b)
  | int (n : ℤ) : Strung P (.int n)
  | float (repr : PyStr) : Strung P (.float repr)
  | str {s : PyStr} (hs : P s) : Strung P (.str s)
  | list {xs : List PyValue} (hxs : ∀ x ∈ xs, Strung P x) : Strung P (.list xs)
  | dict {items : PyDict} (hkeys : ∀ item ∈ items, ∃ key, item.1 = .str key ∧ P key)
    (hvalues : ∀ item ∈ items, Strung P item.2) : Strung P (.dict items)

section Strings

variable {P : PyStr → Prop} {float : PyStr → PyStr}

/-- The keys of the items satisfy `P`. -/
def Keyed (P : PyStr → Prop) (items : PyDict) : Prop := ∀ item ∈ items, ∀ s, item.1 = .str s → P s

/-- What has been read of an open container satisfies `P`. -/
def Frame.Strung (P : PyStr → Prop) : Frame → Prop
  | .list xs => Json.Strung P (.list xs)
  | .dict items key => Json.Strung P (.dict items) ∧ P key

/-- All that has been read satisfies `P`. -/
def Parser.Strung (P : PyStr → Prop) : Parser → Prop
  | .value stack | .firstValue stack | .firstKey stack => ∀ frame ∈ stack, frame.Strung P
  | .nextKey items stack => Json.Strung P (.dict items) ∧ ∀ frame ∈ stack, frame.Strung P
  | .colon items key stack =>
    Json.Strung P (.dict items) ∧ P key ∧ ∀ frame ∈ stack, frame.Strung P
  | .done v stack => Json.Strung P v ∧ ∀ frame ∈ stack, frame.Strung P

theorem strung_list_nil : Strung P (.list []) := .list (List.forall_mem_nil _)

theorem strung_dict_nil : Strung P (.dict []) :=
  .dict (List.forall_mem_nil _) (List.forall_mem_nil _)

/-- An item that satisfies `Strung P` can be put behind others. -/
theorem strung_list_append {xs : List PyValue} {x : PyValue} (hxs : Strung P (.list xs))
    (hx : Strung P x) : Strung P (.list (xs ++ [x])) := by
  cases hxs with
  | list hxs =>
    refine .list fun y hy => ?_
    rcases List.mem_append.mp hy with hy | hy
    · exact hxs y hy
    · exact List.mem_singleton.mp hy ▸ hx

theorem strung_set {items : PyDict} {key : PyStr} {v : PyValue} (h : Strung P (.dict items))
    (hkey : P key) (hv : Strung P v) : Strung P (.dict (items.set key v)) := by
  cases h with
  | dict hkeys hvalues =>
    rw [PyDict.set]
    split_ifs
    · refine .dict (fun item hitem => ?_) (fun item hitem => ?_)
      all_goals
        obtain ⟨old, hold, rfl⟩ := List.mem_map.mp hitem
        split_ifs
      · exact hkeys old hold
      · exact hkeys old hold
      · exact hv
      · exact hvalues old hold
    · refine .dict (fun item hitem => ?_) (fun item hitem => ?_)
      all_goals rcases List.mem_append.mp hitem with hitem | hitem
      · exact hkeys item hitem
      · exact ⟨key, by rw [List.mem_singleton.mp hitem], hkey⟩
      · exact hvalues item hitem
      · exact List.mem_singleton.mp hitem ▸ hv

theorem strung_of_number? {word s : PyStr} {negative : Bool} {v : PyValue}
    (h : number? float word negative s = some v) : Strung P v := by
  dsimp only [number?] at h
  split_ifs at h
  all_goals obtain rfl := Option.some.inj h
  · exact .int _
  · exact .int _
  · exact .float _

theorem strung_of_wordValue? {word : PyStr} {v : PyValue} (h : wordValue? float word = some v) :
    Strung P v := by
  unfold wordValue? at h
  split_ifs at h
  on_goal 7 =>
    split at h
    · exact strung_of_number? h
    · exact strung_of_number? h
  all_goals obtain rfl := Option.some.inj h
  · exact .bool _
  · exact .bool _
  · exact .none
  · exact .float _
  · exact .float _
  · exact .float _

theorem strung_begin {stack : List Frame} {token : Token} {p : Parser}
    (hstack : ∀ frame ∈ stack, frame.Strung P) (htoken : ∀ s, token = .string s → P s)
    (h : Parser.begin float stack token = some p) : p.Strung P := by
  cases token with
  | openList | openDict =>
    obtain rfl := Option.some.inj h
    exact hstack
  | string s =>
    obtain rfl := Option.some.inj h
    exact ⟨.str (htoken s rfl), hstack⟩
  | word w =>
    obtain ⟨v, hv, rfl⟩ := Option.map_eq_some_iff.mp h
    exact ⟨strung_of_wordValue? hv, hstack⟩
  | closeList | closeDict | comma | colon => exact nomatch h

/-- A list begins with a value, or it ends: in both cases what has been read satisfies `Strung
P`. -/
theorem strung_step_firstValue {stack : List Frame} {token : Token} {p : Parser}
    (hstack : ∀ frame ∈ stack, frame.Strung P) (htoken : ∀ s, token = .string s → P s)
    (h : (Parser.firstValue stack).step float token = some p) : p.Strung P := by
  by_cases hclose : token = .closeList
  · subst hclose
    obtain rfl := Option.some.inj h
    exact ⟨strung_list_nil, hstack⟩
  · have hbegin : Parser.begin float (.list [] :: stack) token = some p := by
      cases token with
      | closeList => exact absurd rfl hclose
      | _ => exact h
    refine strung_begin (List.forall_mem_cons.mpr ⟨?_, hstack⟩) htoken hbegin
    exact strung_list_nil

/-- A value in a list is followed by another one, or the list ends, and is a value that satisfies
`Strung P`. -/
theorem strung_step_list {v : PyValue} {xs : List PyValue} {stack : List Frame} {token : Token}
    {p : Parser} (hv : Strung P v) (hxs : Strung P (.list xs))
    (hstack : ∀ frame ∈ stack, frame.Strung P)
    (h : (Parser.done v (.list xs :: stack)).step float token = some p) : p.Strung P := by
  cases token with
  | comma =>
    obtain rfl := Option.some.inj h
    exact List.forall_mem_cons.mpr ⟨strung_list_append hxs hv, hstack⟩
  | closeList =>
    obtain rfl := Option.some.inj h
    exact ⟨strung_list_append hxs hv, hstack⟩
  | _ => exact nomatch h

/-- A value in a dict is set under the key before it, and the dict goes on to satisfy `Strung P`. -/
theorem strung_step_dict {v : PyValue} {items : PyDict} {key : PyStr} {stack : List Frame}
    {token : Token} {p : Parser} (hv : Strung P v) (hitems : Strung P (.dict items)) (hkey : P key)
    (hstack : ∀ frame ∈ stack, frame.Strung P)
    (h : (Parser.done v (.dict items key :: stack)).step float token = some p) : p.Strung P := by
  cases token with
  | comma =>
    obtain rfl := Option.some.inj h
    exact ⟨strung_set hitems hkey hv, hstack⟩
  | closeDict =>
    obtain rfl := Option.some.inj h
    exact ⟨strung_set hitems hkey hv, hstack⟩
  | _ => exact nomatch h

/-- One step of the parser: the strings of what has been read are among those of the tokens. One
case for each state of the parser. -/
theorem strung_step {p p' : Parser} {token : Token} (hp : p.Strung P)
    (htoken : ∀ s, token = .string s → P s) (h : p.step float token = some p') : p'.Strung P := by
  cases p with
  | value stack => exact strung_begin hp htoken h
  | firstValue stack => exact strung_step_firstValue hp htoken h
  | firstKey stack =>
    cases token with
    | closeDict =>
      obtain rfl := Option.some.inj h
      exact ⟨strung_dict_nil, hp⟩
    | string key =>
      obtain rfl := Option.some.inj h
      exact ⟨strung_dict_nil, htoken key rfl, hp⟩
    | _ => exact nomatch h
  | nextKey items stack =>
    cases token with
    | string key =>
      obtain rfl := Option.some.inj h
      exact ⟨hp.1, htoken key rfl, hp.2⟩
    | _ => exact nomatch h
  | colon items key stack =>
    cases token with
    | colon =>
      obtain rfl := Option.some.inj h
      exact List.forall_mem_cons.mpr ⟨⟨hp.1, hp.2.1⟩, hp.2.2⟩
    | _ => exact nomatch h
  | done v stack =>
    obtain ⟨hv, hstack⟩ := hp
    cases stack with
    | nil => exact nomatch h
    | cons frame stack =>
      obtain ⟨hframe, hrest⟩ := List.forall_mem_cons.mp hstack
      cases frame with
      | list xs => exact strung_step_list hv hframe hrest h
      | dict items key => exact strung_step_dict hv hframe.1 hframe.2 hrest h

/-- All strings of what has been parsed are among those of the tokens. By induction on the tokens,
with `strung_step`. -/
theorem strung_foldlM {p p' : Parser} {tokens : List Token} (hp : p.Strung P)
    (htokens : ∀ s, .string s ∈ tokens → P s) (h : tokens.foldlM (Parser.step float) p = some p') :
    p'.Strung P := by
  induction tokens generalizing p with
  | nil => exact Option.some.inj h ▸ hp
  | cons token tokens ih =>
    rw [List.foldlM_cons] at h
    obtain ⟨q, hq, hrest⟩ := Option.bind_eq_some_iff.mp h
    exact ih (strung_step hp (fun s hs => htokens s (hs ▸ List.mem_cons_self)) hq)
      (fun s hs => htokens s (List.mem_cons_of_mem _ hs)) hrest

/-- If the strings among the tokens satisfy `P`, then those of the value that is parsed do
(`Strung`), its keys included. -/
theorem strung_of_parse {tokens : List Token} {v : PyValue}
    (htokens : ∀ s, .string s ∈ tokens → P s) (h : parse float tokens = some v) : Strung P v := by
  obtain ⟨p, hp, hfinish⟩ := Option.bind_eq_some_iff.mp h
  have hstart : Parser.Strung P (.value []) := List.forall_mem_nil _
  have hstrung : p.Strung P := strung_foldlM hstart htokens hp
  cases p with
  | done v stack =>
    cases stack with
    | nil =>
      obtain rfl := Option.some.inj hfinish
      exact hstrung.1
    | cons frame stack => exact nomatch hfinish
  | _ => exact nomatch hfinish

/-- If the strings among the tokens satisfy `P`, then the keys of a dict that is parsed do
(`Keyed`). -/
theorem keys_of_parse {tokens : List Token} {items : PyDict}
    (htokens : ∀ s, .string s ∈ tokens → P s) (h : parse float tokens = some (.dict items)) :
    Keyed P items := by
  intro item hitem s hs
  cases strung_of_parse htokens h with
  | dict hkeys _ =>
    obtain ⟨key, hkey, hP⟩ := hkeys item hitem
    obtain rfl := PyKey.str.inj (hs.symm.trans hkey)
    exact hP

end Strings

end Json
