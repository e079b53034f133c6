import AthenaAI.Python.Json
import AthenaAI.Python.JsonDecode
import AthenaAI.ToMathlib.List
import Mathlib.Tactic.IntervalCases

/-!
# Reading JSON text piece by piece

What the two machines of `json.loads` make of a text that is put together of pieces. The lexer turns
characters into tokens, and a piece is a text that it reads as some tokens from wherever it stands
between two of them; the parser turns tokens into a value, and the tokens of a value are put
together as the value is.

* `Reads text tokens`: from a point between two tokens on, the text is read as these tokens;
  `Rejects text`: it is not read at all.
* `reads_join`, `rejects_join`: pieces with commas between them.
* `Keeps q text`: the text adds the character to no string that is read (`not_mem_of_lex`).
* `IsFloatText` are the texts of finite floats, and `IsFloatRepr float` the floats that `json.loads`
  gives back.
* `IsJson IsFloat v`: the value is one that JSON has, with floats as given; `IsFloatFree`: it has no
  floats. `tokens v` are its tokens, and `parse_tokens`: they are parsed to the value.
-/

namespace Json

/-! ## Pieces of a text -/

/-- From a point between two tokens on, the text is read as these tokens. The last one may be a word
that has not ended yet. -/
def Reads (text : PyStr) (tokens : List Token) : Prop :=
  ∀ before, ∃ l, Lexer.run ⟨before, .code []⟩ text = some l ∧ l.finish = some (before ++ tokens)

/-- The text is read as these tokens, and the last one has ended. -/
def ReadsWhole (text : PyStr) (tokens : List Token) : Prop :=
  ∀ before, Lexer.run ⟨before, .code []⟩ text = some ⟨before ++ tokens, .code []⟩

/-- From a point between two tokens on, the text is not read. -/
def Rejects (text : PyStr) : Prop := ∀ before, Lexer.run ⟨before, .code []⟩ text = none

section Pieces

variable {a b : PyStr} {s t : List Token}

/-- What has been read to the end of its last token has been read. -/
theorem ReadsWhole.reads (h : ReadsWhole a s) : Reads a s := by
  intro before
  exact ⟨_, h before, by simp [Lexer.finish, Lexer.endWord]⟩

/-- Pieces of text can be put together where the first of them has ended: this lemma and the next
two are the rules. -/
theorem readsWhole_nil : ReadsWhole [] [] := by
  intro before
  simp [Lexer.run, pure]

theorem ReadsWhole.append_reads (ha : ReadsWhole a s) (hb : Reads b t) :
    Reads (a ++ b) (s ++ t) := by
  intro before
  obtain ⟨l, hl, hfinish⟩ := hb (before ++ s)
  refine ⟨l, Lexer.run_append_eq_some_iff.mpr ⟨_, ha before, hl⟩, ?_⟩
  rw [hfinish, List.append_assoc]

theorem ReadsWhole.append (ha : ReadsWhole a s) (hb : ReadsWhole b t) :
    ReadsWhole (a ++ b) (s ++ t) := by
  intro before
  rw [Lexer.run_append, ha before, Option.bind_some, hb (before ++ s), List.append_assoc]

/-- A piece that is not read makes the whole text unreadable, wherever it stands. -/
theorem ReadsWhole.append_rejects (ha : ReadsWhole a s) (hb : Rejects b) : Rejects (a ++ b) := by
  intro before
  rw [Lexer.run_append, ha before, Option.bind_some, hb (before ++ s)]

theorem Rejects.append (ha : Rejects a) (b : PyStr) : Rejects (a ++ b) := by
  intro before
  rw [Lexer.run_append, ha before, Option.bind_none]

/-- After a piece that is read, the lexer is between tokens or in a word that has not ended; ending
it gives all the tokens. -/
theorem Reads.exists_word (ha : Reads a s) (before : List Token) :
    ∃ tokens word, Lexer.run ⟨before, .code []⟩ a = some ⟨tokens, .code word⟩ ∧
      Lexer.endWord tokens word = before ++ s := by
  obtain ⟨⟨tokens, mode⟩, hl, hfinish⟩ := ha before
  obtain ⟨word, hword⟩ := Lexer.inCode_of_finish hfinish
  obtain rfl : mode = .code word := hword
  exact ⟨tokens, word, hl, Option.some.inj hfinish⟩

/-- Punctuation behind a piece ends its last word, and is a token of its own. -/
theorem Reads.append_punctuation {c : Char} {token : Token} (ha : Reads a s)
    (hc : punctuation? c = some token) : ReadsWhole (a ++ [c]) (s ++ [token]) := by
  intro before
  obtain ⟨tokens, word, hl, htokens⟩ := ha.exists_word before
  have hother : c ≠ quotationMark ∧ isWhitespace c = false ∧ c ∉ wordChars := by
    unfold punctuation? at hc
    split_ifs at hc
    all_goals subst_vars; decide
  rw [Lexer.run_append, hl, Option.bind_some, Lexer.run_cons, Lexer.step, if_neg hother.1,
    if_neg (by simp [hother.2.1]), if_neg hother.2.2, hc, Option.map_some, htokens,
    List.append_assoc]
  rfl

/-- A space ends a word. -/
theorem Reads.append_space (ha : Reads a s) : ReadsWhole (a ++ [' ']) s := by
  intro before
  obtain ⟨tokens, word, hl, htokens⟩ := ha.exists_word before
  rw [Lexer.run_append, hl, Option.bind_some, ← htokens]
  rfl

/-- A character of punctuation is a token by itself, and it ends the word before it. -/
theorem readsWhole_punctuation {c : Char} {token : Token} (hc : punctuation? c = some token) :
    ReadsWhole [c] [token] :=
  readsWhole_nil.reads.append_punctuation hc

/-- A comma and a space come after a piece. -/
theorem Reads.append_comma (ha : Reads a s) : ReadsWhole (a ++ ", ".toList) (s ++ [.comma]) := by
  have hcomma : ReadsWhole (a ++ [',']) (s ++ [.comma]) := ha.append_punctuation rfl
  simpa using hcomma.reads.append_space

/-- The characters of `wordChars` are collected into the word. -/
theorem run_word {before : List Token} {word text : PyStr} (htext : ∀ c ∈ text, c ∈ wordChars) :
    Lexer.run ⟨before, .code word⟩ text = some ⟨before, .code (word ++ text)⟩ := by
  induction text generalizing word with
  | nil => simp [Lexer.run, pure]
  | cons c text ih =>
    rw [List.forall_mem_cons] at htext
    have hall : wordChars.all (fun d => d ≠ quotationMark && !isWhitespace d) = true := by decide
    have hc := List.all_eq_true.mp hall c htext.1
    simp only [ne_eq, decide_not, Bool.and_eq_true, Bool.not_eq_true',
      decide_eq_false_iff_not] at hc
    rw [Lexer.run_cons, Lexer.step, if_neg hc.1, if_neg (by simp [hc.2]), if_pos htext.1,
      Option.bind_some, ih htext.2, List.append_assoc]
    rfl

/-- A text of characters of `wordChars` is one word, which ends with the text or with what follows
it. -/
theorem reads_word {word : PyStr} (hword : ∀ c ∈ word, c ∈ wordChars) (hne : word ≠ []) :
    Reads word [.word word] := by
  intro before
  refine ⟨_, run_word hword, ?_⟩
  simp [Lexer.finish, Lexer.endWord, hne]

/-- Pieces that are read as their tokens, with `, ` between them, are read as these tokens with
commas between them. -/
theorem reads_join {texts : List PyStr} {tss : List (List Token)}
    (h : List.Forall₂ Reads texts tss) :
    Reads (PyStr.join ", ".toList texts) (List.intercalate [.comma] tss) := by
  induction h with
  | nil => exact readsWhole_nil.reads
  | @cons text ts texts tss htext hrest ih =>
    cases hrest with
    | nil => simpa [PyStr.join] using htext
    | cons htext' hrest' =>
      rw [PyStr.join, List.intercalate_cons_cons, List.intercalate_cons_cons]
      exact htext.append_comma.append_reads ih

/-- A text of pieces with `, ` between them is not read if one of the pieces is not; those before it
are read, so the lexer comes to it. -/
theorem rejects_join {texts : List PyStr} (h : ∀ text ∈ texts, (∃ ts, Reads text ts) ∨ Rejects text)
    (hrejects : ∃ text ∈ texts, Rejects text) : Rejects (PyStr.join ", ".toList texts) := by
  induction texts with
  | nil => exact absurd hrejects (by simp)
  | cons text texts ih =>
    rw [List.forall_mem_cons] at h
    by_cases htext : Rejects text
    · obtain ⟨rest, hrest⟩ := List.exists_intercalate_cons ", ".toList text texts
      rw [PyStr.join, hrest]
      exact htext.append rest
    · obtain ⟨ts, hts⟩ := h.1.resolve_right htext
      have hlater : ∃ text ∈ texts, Rejects text := by simpa [htext] using hrejects
      cases texts with
      | nil => exact absurd hlater (by simp)
      | cons text' texts =>
        rw [PyStr.join, List.intercalate_cons_cons]
        exact hts.append_comma.append_rejects (ih h.2 hlater)

end Pieces

/-! ## Strings -/

/-- The hexadecimal digits are read as their values. -/
theorem hexValue?_hexDigit {n : ℕ} (hn : n < 16) : hexValue? (PyStr.hexDigit n) = some n := by
  interval_cases n <;> decide

/-- A hexadecimal digit of `\uXXXX` is collected; the fourth one makes the code unit of the four. -/
theorem step_unicode {before : List Token} {codes digits : List ℕ} {n : ℕ} (hn : n < 16) :
    Lexer.step ⟨before, .unicode codes digits⟩ (PyStr.hexDigit n) =
      some (if digits.length = 3 then
        ⟨before, .string (codes ++ [(digits ++ [n]).foldl (fun n d => 16 * n + d) 0])⟩
      else ⟨before, .unicode codes (digits ++ [n])⟩) := by
  rw [Lexer.step, hexValue?_hexDigit hn, Option.map_some]

/-- In a string, an escape `\uXXXX` is read as the code unit of its four digits. -/
theorem run_unicodeEscape {n : ℕ} (hn : n < 0x10000) (before : List Token) (codes : List ℕ) :
    Lexer.run ⟨before, .string codes⟩ (unicodeEscape n) =
      some ⟨before, .string (codes ++ [n])⟩ := by
  have hvalue :
      [n / 4096, n / 256 % 16, n / 16 % 16, n % 16].foldl (fun n d => 16 * n + d) 0 = n := by
    simp only [List.foldl_cons, List.foldl_nil]
    omega
  calc Lexer.run ⟨before, .string codes⟩ (unicodeEscape n)
      = Lexer.run ⟨before, .unicode codes []⟩ [PyStr.hexDigit (n / 4096),
          PyStr.hexDigit (n / 256 % 16), PyStr.hexDigit (n / 16 % 16),
          PyStr.hexDigit (n % 16)] := rfl
    _ = some ⟨before, .string (codes ++
          [[n / 4096, n / 256 % 16, n / 16 % 16, n % 16].foldl (fun n d => 16 * n + d) 0])⟩ := by
        rw [Lexer.run_cons, step_unicode (by omega), Option.bind_some, if_neg (by decide),
          Lexer.run_cons, step_unicode (by omega), Option.bind_some, if_neg (by simp),
          Lexer.run_cons, step_unicode (by omega), Option.bind_some, if_neg (by simp),
          Lexer.run_cons, step_unicode (by omega), Option.bind_some, if_pos (by simp)]
        rfl
    _ = some ⟨before, .string (codes ++ [n])⟩ := by rw [hvalue]

/-- The code points of a text are read as the text: there are no surrogates among them. -/
theorem ofCodes_map_toNat (s : PyStr) : ofCodes (s.map Char.toNat) = s := by
  have hsurrogate (c : Char) : isHigh c.toNat = false ∧ isLow c.toNat = false := by
    have hvalid : c.toNat.isValidChar := c.valid
    simp only [isHigh, isLow, Bool.and_eq_false_iff, decide_eq_false_iff_not]
    rcases hvalid with hlt | ⟨hgt, -⟩
    · exact ⟨Or.inl (by omega), Or.inl (by omega)⟩
    · exact ⟨Or.inr (by omega), Or.inr (by omega)⟩
  have hchar (c : Char) : charOf c.toNat = c := by
    rw [charOf, (hsurrogate c).1, (hsurrogate c).2]
    exact Char.ofNat_toNat c
  induction s with
  | nil => rfl
  | cons c s ih =>
    cases s with
    | nil => rw [List.map_singleton, ofCodes, hchar]
    | cons d s =>
      rw [List.map_cons, List.map_cons, ofCodes, (hsurrogate c).1, hchar, ← List.map_cons, ih]
      rfl

/-! ## Characters that are in no string -/

/-- The strings that have been read, and the one that is being read, do not have the character. -/
def Kept (q : Char) (l : Lexer) : Prop :=
  (∀ s, .string s ∈ l.tokens → q ∉ s) ∧
    (l.InCode ∨ ∃ codes, l.mode = .string codes ∧ q.toNat ∉ codes)

/-- The text adds the character to no string. -/
def Keeps (q : Char) (text : PyStr) : Prop :=
  ∀ l l', Kept q l → Lexer.run l text = some l' → Kept q l'

section Kept

variable {q : Char} {a b : PyStr}

/-- The rules by which a text `Keeps` a character out of the strings: nothing, pieces, and the
pieces of many characters. -/
theorem keeps_nil : Keeps q [] := by
  intro l l' hl h
  exact Option.some.inj h ▸ hl

theorem Keeps.append (ha : Keeps q a) (hb : Keeps q b) : Keeps q (a ++ b) := by
  intro l l' hl h
  obtain ⟨m, hm, h⟩ := Lexer.run_append_eq_some_iff.mp h
  exact hb m l' (ha l m hl hm) h

theorem keeps_flatMap {f : Char → PyStr} {s : PyStr} (h : ∀ c ∈ s, Keeps q (f c)) :
    Keeps q (s.flatMap f) := by
  induction s with
  | nil => exact keeps_nil
  | cons c s ih =>
    rw [List.forall_mem_cons] at h
    exact h.1.append (ih h.2)

/-- `Char.ofNat` of a code that is no character is the character zero. -/
theorem toNat_ofNat (n : ℕ) : (Char.ofNat n).toNat = n ∨ (Char.ofNat n).toNat = 0 := by
  by_cases hvalid : n.isValidChar
  · rw [Char.ofNat, dif_pos hvalid]
    exact Or.inl rfl
  · rw [Char.ofNat, dif_neg hvalid]
    exact Or.inr rfl

theorem keeps_join {sep : PyStr} {texts : List PyStr} (hsep : Keeps q sep)
    (h : ∀ text ∈ texts, Keeps q text) : Keeps q (PyStr.join sep texts) := by
  induction texts with
  | nil => exact keeps_nil
  | cons text texts ih =>
    rw [List.forall_mem_cons] at h
    cases texts with
    | nil => simpa [PyStr.join] using h.1
    | cons text' texts =>
      rw [PyStr.join, List.intercalate_cons_cons]
      exact (h.1.append hsep).append (ih h.2)

/-- A character below U+0080 that is in a text is among its code points. -/
theorem toNat_mem_of_mem_ofCodes {codes : List ℕ} (hpos : 0 < q.toNat) (hq : q.toNat < 0x80)
    (h : q ∈ ofCodes codes) : q.toNat ∈ codes := by
  have hchar {code : ℕ} (hcode : q = charOf code) : q.toNat = code := by
    rw [charOf] at hcode
    split_ifs at hcode
    · rw [hcode] at hq
      exact absurd hq (by decide)
    · rcases toNat_ofNat code with hn | hn
      · rw [hcode, hn]
      · rw [hcode, hn] at hpos
        exact absurd hpos (by decide)
  induction codes using ofCodes.induct with
  | case1 => cases h
  | case2 code =>
    rw [ofCodes, List.mem_singleton] at h
    exact List.mem_singleton.mpr (hchar h)
  | case3 high low codes hpair ih =>
    rw [ofCodes, if_pos hpair, List.mem_cons] at h
    rcases h with h | h
    · have hn := toNat_ofNat (0x10000 + (high - 0xD800) * 0x400 + (low - 0xDC00))
      rw [← h] at hn
      omega
    · exact List.mem_cons_of_mem _ (List.mem_cons_of_mem _ (ih h))
  | case4 high low codes hpair ih =>
    rw [ofCodes, if_neg hpair, List.mem_cons] at h
    rcases h with h | h
    · rw [hchar h]
      exact List.mem_cons_self
    · exact List.mem_cons_of_mem _ (ih h)

/-- The string that is being read gets another character than `q`, and the lexer is still `Kept`. -/
theorem kept_string_concat {l l' : Lexer} {codes : List ℕ} {n : ℕ} (hl : Kept q l)
    (htokens : l'.tokens = l.tokens) (hmode : l'.mode = .string (codes ++ [n]))
    (hnot : q.toNat ∉ codes) (hne : q.toNat ≠ n) : Kept q l' := by
  refine ⟨fun s hs => hl.1 s (htokens ▸ hs), Or.inr ⟨_, hmode, fun hmem => ?_⟩⟩
  rcases List.mem_append.mp hmem with hmem | hmem
  · exact hnot hmem
  · exact hne (List.mem_singleton.mp hmem)

/-- A character that is read as it stands `Keeps` every other one out of the strings, and so does
the quotation mark itself. -/
theorem keeps_singleton {c : Char} (hpos : 0 < q.toNat) (hq : q.toNat < 0x80) (hescape : c ≠ '\\')
    (hc : c = q → c = quotationMark) : Keeps q [c] := by
  rintro ⟨tokens, mode⟩ l' ⟨htokens, hmode⟩ h
  obtain ⟨m, hm, hl⟩ := Lexer.run_cons_eq_some_iff.mp h
  obtain rfl := Option.some.inj hl
  rcases hmode with ⟨word, hword⟩ | ⟨codes, hcodes, hnot⟩
  · obtain rfl : mode = .code word := hword
    by_cases hquote : c = quotationMark
    · rw [Lexer.step, if_pos hquote] at hm
      obtain rfl := Option.some.inj hm
      exact ⟨fun s hs => htokens s (Lexer.string_mem_endWord hs),
        Or.inr ⟨[], rfl, List.not_mem_nil⟩⟩
    · obtain ⟨-, hcode, hstrings⟩ := Lexer.step_code_of_ne hquote hm
      exact ⟨fun s hs => htokens s (hstrings s hs), Or.inl hcode⟩
  · obtain rfl : mode = .string codes := hcodes
    by_cases hquote : c = quotationMark
    · rw [Lexer.step, if_pos hquote] at hm
      obtain rfl := Option.some.inj hm
      refine ⟨fun s hs => ?_, Or.inl ⟨[], rfl⟩⟩
      rcases List.mem_append.mp hs with hs | hs
      · exact htokens s hs
      · obtain rfl := Token.string.inj (List.mem_singleton.mp hs)
        exact fun hmem => hnot (toNat_mem_of_mem_ofCodes hpos hq hmem)
    · rw [Lexer.step, if_neg hquote, if_neg hescape] at hm
      split_ifs at hm
      obtain rfl := Option.some.inj hm
      have hl : Kept q ⟨tokens, .string codes⟩ := ⟨htokens, Or.inr ⟨codes, rfl, hnot⟩⟩
      exact kept_string_concat hl rfl rfl hnot fun heq => hquote (hc (Char.toNat_inj.mp heq).symm)

/-- A text without a backslash, in which the character can only be the quotation mark itself, adds
it to no string. -/
theorem keeps_of_forall {text : PyStr} (hpos : 0 < q.toNat) (hq : q.toNat < 0x80)
    (h : ∀ c ∈ text, c ≠ '\\' ∧ (c = q → c = quotationMark)) : Keeps q text := by
  induction text with
  | nil => exact keeps_nil
  | cons c text ih =>
    rw [List.forall_mem_cons] at h
    exact (keeps_singleton hpos hq h.1.1 h.1.2).append (ih h.2)

/-- A backslash is read in a string only, where it begins an escape. -/
theorem exists_of_run_escape {l l' : Lexer} {text : PyStr} (hl : Kept q l)
    (h : Lexer.run l ('\\' :: text) = some l') :
    ∃ codes, l.mode = .string codes ∧ q.toNat ∉ codes ∧
      Lexer.run ⟨l.tokens, .escape codes⟩ text = some l' := by
  obtain ⟨tokens, mode⟩ := l
  obtain ⟨-, ⟨word, hword⟩ | ⟨codes, hcodes, hnot⟩⟩ := hl
  · obtain rfl : mode = .code word := hword
    obtain ⟨m, hm, -⟩ := Lexer.run_cons_eq_some_iff.mp h
    exact absurd rfl (Lexer.step_code_of_ne (by decide) hm).1.1
  · obtain rfl : mode = .string codes := hcodes
    exact ⟨codes, rfl, hnot, h⟩

/-- A text that begins with an escape that JSON does not have is not read. -/
theorem keeps_of_escaped?_eq_none {d : Char} (hd : escaped? d = none) (hu : d ≠ 'u')
    (text : PyStr) : Keeps q ('\\' :: d :: text) := by
  intro l l' hl h
  obtain ⟨codes, -, -, h⟩ := exists_of_run_escape hl h
  rw [Lexer.run_cons, Lexer.step, if_neg hu, hd] at h
  cases h

/-- An escape of another character. -/
theorem keeps_escape {d e : Char} (hd : escaped? d = some e) (hu : d ≠ 'u') (he : e ≠ q) :
    Keeps q ['\\', d] := by
  rintro l l' hl h
  obtain ⟨codes, -, hnot, h⟩ := exists_of_run_escape hl h
  rw [Lexer.run_cons, Lexer.step, if_neg hu, hd] at h
  obtain rfl := Option.some.inj h
  exact kept_string_concat hl rfl rfl hnot fun heq => he (Char.toNat_inj.mp heq).symm

/-- An escape `\uXXXX` of another character. -/
theorem keeps_unicodeEscape {n : ℕ} (hn : n < 0x10000) (hne : q.toNat ≠ n) :
    Keeps q (unicodeEscape n) := by
  rintro ⟨tokens, mode⟩ l' hl h
  obtain ⟨codes, hcodes, hnot, -⟩ := exists_of_run_escape hl h
  obtain rfl : mode = .string codes := hcodes
  rw [run_unicodeEscape hn] at h
  obtain rfl := Option.some.inj h
  exact kept_string_concat hl rfl rfl hnot hne

/-- If a text `Keeps` a character out of its strings, then no string among its tokens has the
character in it. -/
theorem not_mem_of_lex {text : PyStr} {ts : List Token} (htext : Keeps q text)
    (h : lex text = some ts) : ∀ s, .string s ∈ ts → q ∉ s := by
  obtain ⟨l, hrun, hstrings⟩ := exists_run_of_lex h
  have hstart : Kept q {} := ⟨nofun, Or.inl ⟨[], rfl⟩⟩
  obtain ⟨hkept, -⟩ := htext {} l hstart hrun
  exact fun s hs => hkept s (hstrings s hs)

end Kept

/-! ## Integers -/

section Integers

variable {float : PyStr → PyStr}

/-- The digits of a positive number do not begin with a zero. -/
theorem head?_toDigits {n : ℕ} (hn : 0 < n) : (Nat.toDigits 10 n).head? ≠ some '0' := by
  induction n using Nat.strong_induction_on with
  | _ n ih =>
    rcases Nat.lt_or_ge n 10 with hlt | hge
    · rw [Nat.toDigits_of_lt_base hlt]
      interval_cases n <;> decide
    · have hdiv : 0 < n / 10 := Nat.div_pos hge (by decide)
      rw [Nat.toDigits_of_base_le (by decide) hge,
        List.head?_append_of_ne_nil _ Nat.toDigits_ne_nil]
      exact ih (n / 10) (Nat.div_lt_self hn (by decide)) hdiv

theorem isDigit_of_mem_toDigits {n : ℕ} {c : Char} (hc : c ∈ Nat.toDigits 10 n) : c.isDigit :=
  Nat.isDigit_of_mem_toDigits (by decide) (by decide) hc

/-- The decimal digits of a natural number are read as the number, negative if there was a sign
before them. -/
theorem number?_toDigits (word : PyStr) (negative : Bool) (n : ℕ) :
    number? float word negative (Nat.toDigits 10 n) =
      some (.int (if negative then -(n : ℤ) else n)) := by
  have htake : (Nat.toDigits 10 n).takeWhile Char.isDigit = Nat.toDigits 10 n :=
    List.takeWhile_eq_self_iff.mpr fun c hc => isDigit_of_mem_toDigits hc
  have hdrop : (Nat.toDigits 10 n).dropWhile Char.isDigit = [] :=
    List.dropWhile_eq_nil_iff.mpr fun c hc => isDigit_of_mem_toDigits hc
  have hvalue : (Nat.toDigits 10 n).foldl (fun n c => 10 * n + (c.toNat - 48)) 0 = n :=
    Nat.ofDigitChars_ten_toDigits
  have hzero : ¬((Nat.toDigits 10 n).head? = some '0' ∧ (Nat.toDigits 10 n).length ≠ 1) := by
    rintro ⟨hhead, hlength⟩
    rcases Nat.eq_zero_or_pos n with rfl | hn
    · exact hlength (by simp)
    · exact head?_toDigits hn hhead
  have hempty : ¬(Nat.toDigits 10 n).isEmpty := by simp
  dsimp only [number?]
  rw [htake, hdrop, if_neg (by simpa [hempty] using hzero), if_pos List.isEmpty_nil, hvalue]

/-- The text of an integer: digits, with a sign before them if it is negative. -/
theorem ofInt_eq (n : ℤ) :
    (0 ≤ n ∧ PyStr.ofInt n = Nat.toDigits 10 n.natAbs) ∨
      (n < 0 ∧ PyStr.ofInt n = '-' :: Nat.toDigits 10 n.natAbs) := by
  cases n with
  | ofNat n => exact Or.inl ⟨Int.natCast_nonneg n, Nat.toList_repr⟩
  | negSucc n =>
    refine Or.inr ⟨Int.negSucc_lt_zero n, ?_⟩
    rw [Int.natAbs_negSucc, ← Nat.toList_repr]
    exact String.toList_append

theorem isDigit_or_of_mem_ofInt {n : ℤ} {c : Char} (hc : c ∈ PyStr.ofInt n) :
    c.isDigit ∨ c = '-' := by
  rcases ofInt_eq n with ⟨-, hn⟩ | ⟨-, hn⟩
  · exact Or.inl (isDigit_of_mem_toDigits (hn ▸ hc))
  · rw [hn, List.mem_cons] at hc
    exact hc.symm.imp_left isDigit_of_mem_toDigits

/-- A digit may be in a word. -/
theorem mem_wordChars_of_isDigit {c : Char} (hc : c.isDigit) : c ∈ wordChars := by
  have hrange : 48 ≤ c.toNat ∧ c.toNat ≤ 57 := Char.isDigit_iff_toNat.mp hc
  rw [← Char.ofNat_toNat c]
  generalize c.toNat = code at hrange
  obtain ⟨hlower, hupper⟩ := hrange
  interval_cases code <;> decide

/-- The decimal text of an integer has characters of `wordChars` only. -/
theorem mem_wordChars_of_mem_ofInt {n : ℤ} {c : Char} (hc : c ∈ PyStr.ofInt n) :
    c ∈ wordChars := by
  rcases isDigit_or_of_mem_ofInt hc with hdigit | rfl
  · exact mem_wordChars_of_isDigit hdigit
  · decide

theorem ofInt_ne_nil (n : ℤ) : PyStr.ofInt n ≠ [] := by
  rcases ofInt_eq n with ⟨-, hn⟩ | ⟨-, hn⟩
  · rw [hn]
    exact Nat.toDigits_ne_nil
  · simp [hn]

/-- The text of an integer is read as the integer: its digits are neither a name nor the text of a
float. -/
theorem wordValue?_ofInt (n : ℤ) : wordValue? float (PyStr.ofInt n) = some (.int n) := by
  have hne (word : PyStr) (hword : word.any fun c => !c.isDigit && c ≠ '-') :
      PyStr.ofInt n ≠ word := by
    rintro rfl
    obtain ⟨c, hc, hother⟩ := List.any_eq_true.mp hword
    rcases isDigit_or_of_mem_ofInt hc with hdigit | rfl
    · simp [hdigit] at hother
    · simp at hother
  unfold wordValue?
  simp only [hne "true".toList (by decide), hne "false".toList (by decide),
    hne "null".toList (by decide), hne "NaN".toList (by decide),
    hne "Infinity".toList (by decide), hne "-Infinity".toList (by decide), if_false]
  rcases ofInt_eq n with ⟨hn, htext⟩ | ⟨hn, htext⟩
  · have hfirst (s : PyStr) : PyStr.ofInt n ≠ '-' :: s := by
      intro hs
      have hdigit : '-'.isDigit := isDigit_of_mem_toDigits (n := n.natAbs) (by simp [← htext, hs])
      exact absurd hdigit (by decide)
    split
    · exact absurd ‹_› (hfirst _)
    · rw [htext, number?_toDigits]
      simp [abs_of_nonneg hn]
  · rw [htext]
    simp only [number?_toDigits]
    simp [abs_of_neg hn]

/-- `str` of an integer is read as one word. -/
theorem reads_ofInt (n : ℤ) : Reads (PyStr.ofInt n) [.word (PyStr.ofInt n)] :=
  reads_word (fun _ => mem_wordChars_of_mem_ofInt) (ofInt_ne_nil n)

end Integers

/-! ## Floats -/

/-- The text of a number behind its sign. -/
def unsigned : PyStr → PyStr
  | '-' :: s => s
  | s => s

/-- The text is that of a finite float: a JSON number with a fraction or an exponent. -/
structure IsFloatText (text : PyStr) : Prop where
  /-- It begins with digits. -/
  digits : (unsigned text).takeWhile Char.isDigit ≠ []
  /-- A zero is not in front of others. -/
  leading : ((unsigned text).takeWhile Char.isDigit).head? = some '0' →
    ((unsigned text).takeWhile Char.isDigit).length = 1
  /-- It does not end behind them. -/
  rest : (unsigned text).dropWhile Char.isDigit ≠ []
  /-- There are no more than a fraction and an exponent. -/
  ends : (dropFraction ((unsigned text).dropWhile Char.isDigit)).bind dropExponent = some []

/-- The `repr` of a float that `json.loads` gives back, where `float` reads the texts of numbers: a
finite one has to be read as itself. -/
inductive IsFloatRepr (float : PyStr → PyStr) : PyStr → Prop
  | nan : IsFloatRepr float "nan".toList
  | inf : IsFloatRepr float "inf".toList
  | negInf : IsFloatRepr float "-inf".toList
  | finite {repr : PyStr} (htext : IsFloatText repr) (hfloat : float repr = repr) :
    IsFloatRepr float repr

section Floats

variable {float : PyStr → PyStr} {repr : PyStr}

/-- A word that is the text of a float is a number, and `float` decides which one. -/
theorem number?_of_isFloatText {word text : PyStr} {negative : Bool} (h : IsFloatText text) :
    number? float word negative (unsigned text) = some (.float (float word)) := by
  have hdigits : ¬(((unsigned text).takeWhile Char.isDigit).isEmpty ||
      (((unsigned text).takeWhile Char.isDigit).head? = some '0' &&
        ((unsigned text).takeWhile Char.isDigit).length ≠ 1)) = true := by
    simpa [List.isEmpty_iff, h.digits] using h.leading
  dsimp only [number?]
  rw [if_neg hdigits, if_neg (by simpa [List.isEmpty_iff] using h.rest), if_pos h.ends]

/-- The text of a finite float (`IsFloatText`) is read as what `float` makes of it. -/
theorem wordValue?_of_isFloatText (h : IsFloatText repr) :
    wordValue? float repr = some (.float (float repr)) := by
  have hne (word : PyStr) (hword : (unsigned word).takeWhile Char.isDigit = []) : repr ≠ word := by
    rintro rfl
    exact h.digits hword
  unfold wordValue?
  simp only [hne "true".toList (by decide), hne "false".toList (by decide),
    hne "null".toList (by decide), hne "NaN".toList (by decide),
    hne "Infinity".toList (by decide), hne "-Infinity".toList (by decide), if_false]
  split
  · exact @number?_of_isFloatText float ('-' :: _) ('-' :: _) true h
  · rename_i hsign
    have hunsigned : unsigned repr = repr := by
      unfold unsigned
      split
      · exact absurd rfl (hsign _)
      · rfl
    rw [← number?_of_isFloatText h, hunsigned]

/-- The three floats that are not finite have names of their own in JSON; every other one is written
with its `repr`. -/
theorem floatText_of_isFloatText (h : IsFloatText repr) : floatText repr = repr := by
  have hne (word : PyStr) (hword : (unsigned word).takeWhile Char.isDigit = []) : repr ≠ word := by
    rintro rfl
    exact h.digits hword
  rw [floatText, if_neg (hne _ (by decide)), if_neg (hne _ (by decide)), if_neg (hne _ (by decide))]

/-- What `json.dumps` writes for a float is read as the float, if `repr` and `float` are as
`IsFloatRepr` says. -/
theorem wordValue?_floatText (h : IsFloatRepr float repr) :
    wordValue? float (floatText repr) = some (.float repr) := by
  cases h with
  | nan => rfl
  | inf => rfl
  | negInf => rfl
  | finite htext hfloat =>
    rw [floatText_of_isFloatText htext, wordValue?_of_isFloatText htext, hfloat]

theorem mem_of_dropDigits {s t : PyStr} (h : dropDigits s = some t) :
    ∀ c ∈ s, c ∈ wordChars ∨ c ∈ t := by
  rw [dropDigits] at h
  split_ifs at h
  obtain rfl := Option.some.inj h
  intro c hc
  rw [← List.takeWhile_append_dropWhile (p := Char.isDigit) (l := s), List.mem_append] at hc
  exact hc.imp_left fun hdigit => mem_wordChars_of_isDigit (List.mem_takeWhile_imp hdigit)

theorem mem_of_dropFraction {s t : PyStr} (h : dropFraction s = some t) :
    ∀ c ∈ s, c ∈ wordChars ∨ c ∈ t := by
  unfold dropFraction at h
  split at h
  · exact List.forall_mem_cons.mpr ⟨.inl (by decide), mem_of_dropDigits h⟩
  · obtain rfl := Option.some.inj h
    exact fun c hc => .inr hc

theorem mem_of_dropExponent {s t : PyStr} (h : dropExponent s = some t) :
    ∀ c ∈ s, c ∈ wordChars ∨ c ∈ t := by
  unfold dropExponent at h
  split at h
  · rename_i c s
    split_ifs at h with hmark
    · refine List.forall_mem_cons.mpr ⟨.inl (by rcases hmark with rfl | rfl <;> decide), ?_⟩
      split at h
      · split_ifs at h with hsign
        · refine List.forall_mem_cons.mpr ⟨.inl ?_, mem_of_dropDigits h⟩
          rcases hsign with rfl | rfl <;> decide
        · exact mem_of_dropDigits h
      · cases h
    · obtain rfl := Option.some.inj h
      exact fun c hc => .inr hc
  · exact List.forall_mem_nil _

theorem mem_wordChars_of_isFloatText (h : IsFloatText repr) : ∀ c ∈ repr, c ∈ wordChars := by
  obtain ⟨t, hfraction, hexponent⟩ := Option.bind_eq_some_iff.mp h.ends
  have hunsigned : ∀ c ∈ unsigned repr, c ∈ wordChars := by
    intro c hc
    rw [← List.takeWhile_append_dropWhile (p := Char.isDigit) (l := unsigned repr),
      List.mem_append] at hc
    rcases hc with hdigit | hrest
    · exact mem_wordChars_of_isDigit (List.mem_takeWhile_imp hdigit)
    · rcases mem_of_dropFraction hfraction c hrest with hword | ht
      · exact hword
      · exact (mem_of_dropExponent hexponent c ht).resolve_right List.not_mem_nil
  unfold unsigned at hunsigned
  split at hunsigned
  · exact List.forall_mem_cons.mpr ⟨by decide, hunsigned⟩
  · exact hunsigned

/-- The text of a float is one word. -/
theorem mem_wordChars_of_mem_floatText (h : IsFloatRepr float repr) :
    ∀ c ∈ floatText repr, c ∈ wordChars := by
  have hword (word : PyStr) (hall : word.all (fun c => decide (c ∈ wordChars)) = true) :
      ∀ c ∈ word, c ∈ wordChars := fun c hc => of_decide_eq_true (List.all_eq_true.mp hall c hc)
  cases h with
  | nan => exact hword _ (by decide)
  | inf => exact hword _ (by decide)
  | negInf => exact hword _ (by decide)
  | finite htext _ =>
    rw [floatText_of_isFloatText htext]
    exact mem_wordChars_of_isFloatText htext

/-- What `json.dumps` writes for a finite float is read as one word. -/
theorem reads_floatText (h : IsFloatRepr float repr) :
    Reads (floatText repr) [.word (floatText repr)] := by
  refine reads_word (mem_wordChars_of_mem_floatText h) fun hnil => ?_
  have hvalue := wordValue?_floatText h
  rw [hnil] at hvalue
  cases hvalue

end Floats

/-! ## The tokens of a value -/

/-- The values that JSON has, with those floats whose `repr` is as given: the keys of a dict are
strings, and none of them occurs twice. -/
inductive IsJson (IsFloat : PyStr → Prop) : PyValue → Prop
  | none : IsJson IsFloat .none
  | bool (b : Bool) : IsJson IsFloat (.bool b)
  | int (n : ℤ) : IsJson IsFloat (.int n)
  | float {repr : PyStr} (hrepr : IsFloat repr) : IsJson IsFloat (.float repr)
  | str (s : PyStr) : IsJson IsFloat (.str s)
  | list {xs : List PyValue} (hxs : ∀ x ∈ xs, IsJson IsFloat x) : IsJson IsFloat (.list xs)
  | dict {items : PyDict} (hnodup : (items.map Prod.fst).Nodup)
    (hkeys : ∀ item ∈ items, ∃ key, item.1 = .str key)
    (hvalues : ∀ item ∈ items, IsJson IsFloat item.2) : IsJson IsFloat (.dict items)

/-- A value without floats. -/
abbrev IsFloatFree : PyValue → Prop := IsJson fun _ => False

/-- With more floats there are more values. -/
theorem IsJson.mono {P Q : PyStr → Prop} (hPQ : ∀ repr, P repr → Q repr) {v : PyValue}
    (h : IsJson P v) : IsJson Q v := by
  induction h with
  | none => exact .none
  | bool b => exact .bool b
  | int n => exact .int n
  | float hrepr => exact .float (hPQ _ hrepr)
  | str s => exact .str s
  | list _ ih => exact .list ih
  | dict hnodup hkeys _ ih => exact .dict hnodup hkeys ih

/-- A value without floats is a JSON value, whichever floats JSON is taken to have. -/
theorem IsFloatFree.isJson {P : PyStr → Prop} {v : PyValue} (h : IsFloatFree v) : IsJson P v :=
  h.mono fun _ => False.elim

/-- The token of a key. A key that is no string is none in JSON either. -/
def keyToken : PyKey → Token
  | .str s => .string s
  | key => .word key.repr

mutual

/-- The tokens of a value that JSON has. -/
def tokens : PyValue → List Token
  | .none => [.word "null".toList]
  | .bool b => [.word (if b then "true".toList else "false".toList)]
  | .int n => [.word (PyStr.ofInt n)]
  | .float repr => [.word (floatText repr)]
  | .str s => [.string s]
  | .list xs | .tuple xs =>
    [.openList] ++ List.intercalate [.comma] (tokensList xs) ++ [.closeList]
  | .dict items => [.openDict] ++ List.intercalate [.comma] (tokensItems items) ++ [.closeDict]
  | .exception _ | .object _ => []

/-- The tokens of the elements of a list. -/
def tokensList : List PyValue → List (List Token)
  | [] => []
  | x :: xs => tokens x :: tokensList xs

/-- The tokens of the items of a dict. -/
def tokensItems : List (PyKey × PyValue) → List (List Token)
  | [] => []
  | (key, x) :: items => ([keyToken key, .colon] ++ tokens x) :: tokensItems items

end

/-- The tokens of a list are those of its items, with commas between them; those of a `dict` also
have the keys and the colons. -/
theorem tokensList_eq_map (xs : List PyValue) : tokensList xs = xs.map tokens := by
  induction xs with
  | nil => rfl
  | cons x xs ih => rw [tokensList, ih, List.map_cons]

theorem tokensItems_eq_map (items : PyDict) :
    tokensItems items = items.map fun item => [keyToken item.1, .colon] ++ tokens item.2 := by
  induction items with
  | nil => rfl
  | cons item items ih => rw [tokensItems, ih, List.map_cons]

section Parse

variable (float : PyStr → PyStr)

/-- Tokens are read. -/
def Parser.run (p : Parser) (ts : List Token) : Option Parser := ts.foldlM (Parser.step float) p

/-- The tokens are parsed to the value, wherever one begins. -/
def Parses (ts : List Token) (v : PyValue) : Prop :=
  ∀ stack, Parser.run float (.value stack) ts = some (.done v stack)

variable {float}

theorem Parser.run_append (p : Parser) (s t : List Token) :
    p.run float (s ++ t) = (p.run float s).bind fun q => q.run float t := by
  rw [Parser.run, List.foldlM_append]
  rfl

theorem Parser.run_cons (p : Parser) (token : Token) (ts : List Token) :
    p.run float (token :: ts) = (p.step float token).bind fun q => q.run float ts := by
  rw [Parser.run, List.foldlM_cons]
  rfl

theorem parses_word {word : PyStr} {v : PyValue} (h : wordValue? float word = some v) :
    Parses float [.word word] v := by
  intro stack
  simp [Parser.run, Parser.step, Parser.begin, h]

/-- The elements of a list, from one of them on: they are added to the open frame, one after the
other, up to the closing bracket. -/
theorem run_elements {x : PyValue} {xs : List PyValue} (before : List PyValue)
    (stack : List Frame) (h : ∀ y ∈ x :: xs, Parses float (tokens y) y) :
    Parser.run float (.value (.list before :: stack))
        (List.intercalate [Token.comma] ((x :: xs).map tokens) ++ [Token.closeList]) =
      some (.done (.list (before ++ x :: xs)) stack) := by
  induction xs generalizing x before with
  | nil =>
    have hx := h x List.mem_cons_self (.list before :: stack)
    rw [List.map_singleton, List.intercalate_singleton, Parser.run_append, hx]
    rfl
  | cons y xs ih =>
    rw [List.forall_mem_cons] at h
    have hx := h.1 (.list before :: stack)
    have hrest := ih (before ++ [x]) h.2
    rw [List.append_assoc] at hrest
    rw [List.map_cons, List.map_cons, List.intercalate_cons_cons, List.append_assoc,
      List.append_assoc, Parser.run_append, hx, Option.bind_some, List.singleton_append,
      Parser.run_cons]
    exact hrest

/-- No value begins with the end of a list. -/
theorem exists_tokens_eq_cons {P : PyStr → Prop} {v : PyValue} (h : IsJson P v) :
    ∃ token ts, tokens v = token :: ts ∧ token ≠ .closeList := by
  cases h with
  | dict _ _ _ => exact ⟨.openDict, _, rfl, nofun⟩
  | list _ => exact ⟨.openList, _, rfl, nofun⟩
  | _ => exact ⟨_, _, rfl, nofun⟩

/-- The first value of a list is read as one after a comma is, unless the list ends at once. -/
theorem run_firstValue {token : Token} (ts : List Token) (stack : List Frame)
    (htoken : token ≠ .closeList) :
    Parser.run float (.firstValue stack) (token :: ts) =
      Parser.run float (.value (.list [] :: stack)) (token :: ts) := by
  rw [Parser.run_cons, Parser.run_cons]
  cases token with
  | closeList => exact absurd rfl htoken
  | _ => rfl

/-- The tokens of a list are parsed to the list if those of its items are: by induction on the
items, with those already parsed in the open frame. -/
theorem parses_list {P : PyStr → Prop} {xs : List PyValue} (hjson : ∀ x ∈ xs, IsJson P x)
    (h : ∀ x ∈ xs, Parses float (tokens x) x) : Parses float (tokens (.list xs)) (.list xs) := by
  intro stack
  rw [tokens, tokensList_eq_map, List.append_assoc, List.singleton_append, Parser.run_cons]
  show Parser.run float (.firstValue stack) _ = _
  cases xs with
  | nil => rfl
  | cons x xs =>
    have helements := run_elements [] stack h
    obtain ⟨token, ts, htokens, htoken⟩ := exists_tokens_eq_cons (hjson x List.mem_cons_self)
    obtain ⟨rest, hrest⟩ := List.exists_intercalate_cons [Token.comma] (tokens x) (xs.map tokens)
    rw [List.map_cons, hrest, htokens, List.cons_append, List.cons_append] at helements ⊢
    rw [run_firstValue _ stack htoken]
    exact helements

/-- A key that is not there yet comes last. -/
theorem set_of_not_mem {items : PyDict} {key : PyStr} (v : PyValue)
    (hkey : .str key ∉ items.map Prod.fst) : items.set key v = items ++ [(.str key, v)] := by
  have hget : items.get key = none := by
    rw [PyDict.get, List.lookup_eq_none_iff]
    rintro item hitem
    simpa using fun h => hkey (List.mem_map.mpr ⟨item, hitem, h.symm⟩)
  rw [PyDict.set, if_neg (by simp [hget])]

/-- A key, its colon and its value add one item to the open `dict`. -/
theorem run_item {key : PyStr} {v : PyValue} {before : PyDict} {stack : List Frame}
    (hv : Parses float (tokens v) v) (ts : List Token) :
    Parser.run float (.nextKey before stack) ([keyToken (.str key), .colon] ++ tokens v ++ ts) =
      Parser.run float (.done v (.dict before key :: stack)) ts := by
  have hvalue := hv (.dict before key :: stack)
  rw [List.append_assoc, List.cons_append, List.singleton_append, Parser.run_cons, keyToken,
    Parser.step, Option.bind_some, Parser.run_cons, Parser.step, Option.bind_some,
    Parser.run_append, hvalue, Option.bind_some]

/-- The items of a dict, from one of them on: with keys that are all different they are added behind
the others, up to the closing bracket. -/
theorem run_items {key : PyStr} {v : PyValue} {items : PyDict} (before : PyDict)
    (stack : List Frame) (hnodup : ((before ++ (.str key, v) :: items).map Prod.fst).Nodup)
    (hkeys : ∀ item ∈ items, ∃ key, item.1 = .str key)
    (h : ∀ item ∈ (.str key, v) :: items, Parses float (tokens item.2) item.2) :
    Parser.run float (.nextKey before stack)
        (List.intercalate [Token.comma] (tokensItems ((.str key, v) :: items)) ++
          [Token.closeDict]) =
      some (.done (.dict (before ++ (.str key, v) :: items)) stack) := by
  induction items generalizing key v before with
  | nil =>
    have hkey : .str key ∉ before.map Prod.fst := by
      rw [List.map_append, List.nodup_append] at hnodup
      exact fun hmem => hnodup.2.2 _ hmem _ List.mem_cons_self rfl
    rw [tokensItems, tokensItems, List.intercalate_singleton,
      run_item (h _ List.mem_cons_self), ← set_of_not_mem v hkey]
    rfl
  | cons next items ih =>
    obtain ⟨name, x⟩ := next
    rw [List.forall_mem_cons] at hkeys h
    obtain ⟨⟨key', rfl⟩, hkeys⟩ := hkeys
    have hkey : .str key ∉ before.map Prod.fst := by
      rw [List.map_append, List.nodup_append] at hnodup
      exact fun hmem => hnodup.2.2 _ hmem _ List.mem_cons_self rfl
    have hrest := @ih key' x (before ++ [(.str key, v)]) (by simpa using hnodup) hkeys h.2
    rw [tokensItems, tokensItems, List.intercalate_cons_cons, ← tokensItems, List.append_assoc,
      List.append_assoc, run_item h.1, List.singleton_append, Parser.run_cons]
    rw [List.append_assoc, ← set_of_not_mem v hkey] at hrest
    exact hrest

/-- The tokens of a `dict` with different keys, all of them strings, are parsed to it if those of
its values are. -/
theorem parses_dict {items : PyDict} (hnodup : (items.map Prod.fst).Nodup)
    (hkeys : ∀ item ∈ items, ∃ key, item.1 = .str key)
    (h : ∀ item ∈ items, Parses float (tokens item.2) item.2) :
    Parses float (tokens (.dict items)) (.dict items) := by
  intro stack
  rw [tokens, List.append_assoc, List.singleton_append, Parser.run_cons]
  show Parser.run float (.firstKey stack) _ = _
  cases items with
  | nil => rfl
  | cons item items =>
    obtain ⟨name, v⟩ := item
    rw [List.forall_mem_cons] at hkeys
    obtain ⟨⟨key, rfl⟩, hkeys⟩ := hkeys
    have hitems := run_items [] stack hnodup hkeys h
    obtain ⟨rest, hrest⟩ := List.exists_intercalate_cons [Token.comma]
      ([keyToken (.str key), .colon] ++ tokens v) (tokensItems items)
    rw [tokensItems, hrest, List.append_assoc, List.append_assoc, List.cons_append] at hitems ⊢
    exact hitems

/-- The tokens of a JSON value are parsed to the value (`Parses`), wherever a value may begin. By
induction on the value. -/
theorem parses_tokens {v : PyValue} (h : IsJson (IsFloatRepr float) v) :
    Parses float (tokens v) v := by
  induction h with
  | none => exact parses_word rfl
  | bool b =>
    cases b with
    | false => exact parses_word rfl
    | true => exact parses_word rfl
  | int n => exact parses_word (wordValue?_ofInt n)
  | float hrepr => exact parses_word (wordValue?_floatText hrepr)
  | str s => exact fun stack => rfl
  | list hxs ih => exact parses_list hxs ih
  | dict hnodup hkeys hvalues ih => exact parses_dict hnodup hkeys ih

/-- The tokens of a JSON value, floats included, are parsed to the value. -/
theorem parse_tokens {v : PyValue} (h : IsJson (IsFloatRepr float) v) :
    parse float (tokens v) = some v := by
  have hrun : Parser.run float (.value []) (tokens v) = some (.done v []) := parses_tokens h []
  rw [parse, ← Parser.run, hrun]
  rfl

end Parse

end Json
