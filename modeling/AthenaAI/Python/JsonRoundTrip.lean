import AthenaAI.Python.JsonTokens
import AthenaAI.ToMathlib.Except

/-!
# What `json.dumps` writes, `json.loads` reads

The round trip of the values that JSON has (`IsJson`): the texts of floats, which the encoder takes
from `repr`, are read back as the floats that they are written for (`IsFloatRepr`).

* `run_flatMap_escapeChar`: the characters of a JSON string are read as they were written. One
  beyond the Basic Multilingual Plane is written as a pair of surrogates and read as one character
  (`ofCodes_flatMap_units`).
* `reads_encode`: the text of a value is read as the tokens of the value, however it is indented.
* `decode_of_encode`, `decode_dumps`: so it is decoded to the value.
* `plain_dumps`: the text that is not indented has printable ASCII characters only, and so no
  character at which `str.splitlines` breaks a line (`not_isLineBreak_of_plain`).
-/

namespace Json

/-! ## Strings -/

/-- The UTF-16 code units of a character. -/
def units (c : Char) : List ℕ :=
  if c.toNat < 0x10000 then [c.toNat]
  else [0xD800 + (c.toNat - 0x10000) / 1024, 0xDC00 + (c.toNat - 0x10000) % 1024]

/-- A character is no surrogate. -/
theorem not_surrogate (c : Char) : isHigh c.toNat = false ∧ isLow c.toNat = false := by
  have hvalid : c.toNat.isValidChar := c.valid
  simp only [isHigh, isLow, Bool.and_eq_false_iff, decide_eq_false_iff_not]
  rcases hvalid with hlt | ⟨hgt, -⟩
  · exact ⟨.inl (by omega), .inl (by omega)⟩
  · exact ⟨.inr (by omega), .inr (by omega)⟩

theorem charOf_toNat (c : Char) : charOf c.toNat = c := by
  rw [charOf, (not_surrogate c).1, (not_surrogate c).2]
  exact Char.ofNat_toNat c

/-- A code point that is no surrogate is a character of its own. -/
theorem ofCodes_cons_toNat (c : Char) (codes : List ℕ) :
    ofCodes (c.toNat :: codes) = c :: ofCodes codes := by
  cases codes with
  | nil => rw [ofCodes, ofCodes, charOf_toNat]
  | cons low codes =>
    rw [ofCodes, (not_surrogate c).1, Bool.false_and, if_neg Bool.false_ne_true, charOf_toNat]

/-- A pair of surrogates is one character. -/
theorem ofCodes_units_append (c : Char) (codes : List ℕ) :
    ofCodes (units c ++ codes) = c :: ofCodes codes := by
  unfold units
  split_ifs with hshort
  · exact ofCodes_cons_toNat c codes
  · have hlt : c.toNat < 0x110000 := by
      rcases c.valid with hlt | ⟨-, hlt⟩
      · exact absurd (show c.toNat < 0x10000 by
          have : c.toNat < 0xD800 := hlt
          omega) hshort
      · exact hlt
    have hhigh : isHigh (0xD800 + (c.toNat - 0x10000) / 1024) = true := by
      simp only [isHigh, Bool.and_eq_true, decide_eq_true_eq]
      omega
    have hlow : isLow (0xDC00 + (c.toNat - 0x10000) % 1024) = true := by
      simp only [isLow, Bool.and_eq_true, decide_eq_true_eq]
      omega
    have hpair : 0x10000 + (0xD800 + (c.toNat - 0x10000) / 1024 - 0xD800) * 0x400 +
        (0xDC00 + (c.toNat - 0x10000) % 1024 - 0xDC00) = c.toNat := by omega
    rw [List.cons_append, List.cons_append, List.nil_append, ofCodes, hhigh, hlow, hpair,
      Char.ofNat_toNat]
    rfl

/-- The code units of a string are decoded to the string: a character beyond the Basic Multilingual
Plane is a pair of surrogates, and is put together again. -/
theorem ofCodes_flatMap_units (s : PyStr) : ofCodes (s.flatMap units) = s := by
  induction s with
  | nil => rfl
  | cons c s ih => rw [List.flatMap_cons, ofCodes_units_append, ih]

variable {before : List Token} {codes : List ℕ}

/-- A character that is escaped by a backslash and a letter. -/
theorem run_escaped {c d : Char} (hu : d ≠ 'u') (hd : escaped? d = some c) :
    Lexer.run ⟨before, .string codes⟩ ['\\', d] = some ⟨before, .string (codes ++ [c.toNat])⟩ := by
  have hstep : Lexer.step ⟨before, .escape codes⟩ d =
      some ⟨before, .string (codes ++ [c.toNat])⟩ := by
    rw [Lexer.step, if_neg hu, hd, Option.map_some]
  rw [Lexer.run_cons]
  show Lexer.run ⟨before, .escape codes⟩ [d] = _
  rw [Lexer.run_cons, hstep]
  rfl

/-- In a string, a character is read as its code units, whether it is written as it stands, with a
short escape or with `\uXXXX`. -/
theorem run_escapeChar (c : Char) :
    Lexer.run ⟨before, .string codes⟩ (escapeChar c) =
      some ⟨before, .string (codes ++ units c)⟩ := by
  have hchar {n : ℕ} (hn : c.toNat = n) : c = Char.ofNat n := by rw [← hn, Char.ofNat_toNat]
  have hunit (hlt : c.toNat < 0x10000) : units c = [c.toNat] := if_pos hlt
  dsimp only [escapeChar]
  split_ifs with hquote hplain hlf hcr htab hff hbs hshort
  · rw [hunit (by omega)]
    rcases hquote with h | h
    · rw [hchar h]
      exact run_escaped (by decide) rfl
    · rw [hchar h]
      exact run_escaped (by decide) rfl
  · have hmark : c ≠ quotationMark := fun h => hquote (.inl (h ▸ rfl))
    have hslash : c ≠ '\\' := fun h => hquote (.inr (h ▸ rfl))
    rw [hunit (by omega), Lexer.run_cons, Lexer.step, if_neg hmark, if_neg hslash,
      if_neg (by omega)]
    rfl
  · rw [hunit (by omega), hchar hlf]
    exact run_escaped (by decide) rfl
  · rw [hunit (by omega), hchar hcr]
    exact run_escaped (by decide) rfl
  · rw [hunit (by omega), hchar htab]
    exact run_escaped (by decide) rfl
  · rw [hunit (by omega), hchar hff]
    exact run_escaped (by decide) rfl
  · rw [hunit (by omega), hchar hbs]
    exact run_escaped (by decide) rfl
  · rw [hunit hshort]
    exact run_unicodeEscape hshort before codes
  · have hlt : c.toNat < 0x110000 := by
      rcases c.valid with hlt | ⟨-, hlt⟩
      · have : c.toNat < 0xD800 := hlt
        omega
      · exact hlt
    rw [units, if_neg hshort, Lexer.run_append, run_unicodeEscape (by omega), Option.bind_some,
      run_unicodeEscape (by omega), List.append_assoc]
    rfl

/-- In a string, the escapes of its characters are read as their code units. -/
theorem run_flatMap_escapeChar (s : PyStr) :
    Lexer.run ⟨before, .string codes⟩ (s.flatMap escapeChar) =
      some ⟨before, .string (codes ++ s.flatMap units)⟩ := by
  induction s generalizing codes with
  | nil => simp [Lexer.run, pure]
  | cons c s ih =>
    rw [List.flatMap_cons, Lexer.run_append, run_escapeChar, Option.bind_some, ih,
      List.append_assoc, List.flatMap_cons]

/-- What `quote` writes for a string is read as one token, the string. -/
theorem readsWhole_quote (s : PyStr) : ReadsWhole (quote s) [.string s] := by
  intro before
  have hopen : Lexer.run ⟨before, .code []⟩ [Char.ofNat 0x22] = some ⟨before, .string []⟩ := rfl
  have hclose : Lexer.run ⟨before, .string (s.flatMap units)⟩ [Char.ofNat 0x22] =
      some ⟨before ++ [.string (ofCodes (s.flatMap units))], .code []⟩ := rfl
  rw [quote, Lexer.run_append, Lexer.run_append, hopen, Option.bind_some, run_flatMap_escapeChar,
    Option.bind_some, List.nil_append, hclose, ofCodes_flatMap_units]

/-! ## Whitespace -/

section Whitespace

variable {a space sep : PyStr} {s : List Token}

/-- White space behind a piece ends its last word, and adds no token. -/
theorem Reads.append_whitespace {c : Char} (ha : Reads a s) (hc : isWhitespace c) :
    ReadsWhole (a ++ [c]) s := by
  intro before
  obtain ⟨tokens, word, hl, htokens⟩ := ha.exists_word before
  have hquote : c ≠ quotationMark := by
    rintro rfl
    exact absurd hc (by decide)
  rw [Lexer.run_append, hl, Option.bind_some, Lexer.run_cons, Lexer.step, if_neg hquote, if_pos hc,
    htokens]
  rfl

theorem readsWhole_whitespace (hspace : ∀ c ∈ space, isWhitespace c) : ReadsWhole space [] := by
  induction space with
  | nil => exact readsWhole_nil
  | cons c space ih =>
    rw [List.forall_mem_cons] at hspace
    exact (readsWhole_nil.reads.append_whitespace hspace.1).append (ih hspace.2)

/-- Whitespace after a piece. -/
theorem Reads.append_space_of_forall (ha : Reads a s) (hspace : ∀ c ∈ space, isWhitespace c) :
    Reads (a ++ space) s := by
  cases space with
  | nil => rwa [List.append_nil]
  | cons c space =>
    rw [List.forall_mem_cons] at hspace
    have hrest : ReadsWhole space [] := readsWhole_whitespace hspace.2
    simpa using ((ha.append_whitespace hspace.1).append hrest).reads

/-- What `indent` puts between the items is whitespace. -/
theorem isWhitespace_newline (indent : Option ℕ) (level : ℕ) :
    ∀ c ∈ newline indent level, isWhitespace c := by
  intro c hc
  cases indent with
  | none => cases hc
  | some n =>
    rcases List.mem_cons.mp hc with rfl | hc
    · rfl
    · rw [List.eq_of_mem_replicate hc]
      rfl

/-- What separates two items is a comma, and whitespace. -/
theorem exists_separator_eq (indent : Option ℕ) (level : ℕ) :
    ∃ space, separator indent level = ',' :: space ∧ ∀ c ∈ space, isWhitespace c := by
  cases indent with
  | none => exact ⟨[' '], rfl, by simp [isWhitespace]⟩
  | some n => exact ⟨_, rfl, isWhitespace_newline (some n) level⟩

theorem Reads.append_separator (ha : Reads a s) (indent : Option ℕ) (level : ℕ) :
    ReadsWhole (a ++ separator indent level) (s ++ [.comma]) := by
  obtain ⟨space, hspace, hwhite⟩ := exists_separator_eq indent level
  have hcomma : ReadsWhole (a ++ [',']) (s ++ [.comma]) := ha.append_punctuation rfl
  have hrest : ReadsWhole space [] := readsWhole_whitespace hwhite
  rw [hspace]
  simpa using hcomma.append hrest

/-- Pieces that are read as their tokens, with a `separator` between them, are read as these tokens
with commas between them. -/
theorem reads_join_separator {texts : List PyStr} {tss : List (List Token)} (indent : Option ℕ)
    (level : ℕ) (h : List.Forall₂ Reads texts tss) :
    Reads (PyStr.join (separator indent level) texts) (List.intercalate [.comma] tss) := by
  induction h with
  | nil => exact readsWhole_nil.reads
  | @cons text ts texts tss htext hrest ih =>
    cases hrest with
    | nil => simpa [PyStr.join] using htext
    | cons htext' hrest' =>
      rw [PyStr.join, List.intercalate_cons_cons, List.intercalate_cons_cons]
      exact (htext.append_separator indent level).append_reads ih

/-- A container is read as the tokens of its items, with commas between them, between those of its
brackets, however it is indented. -/
theorem readsWhole_container {left right : Char} {opening closing : Token} {texts : List PyStr}
    {tss : List (List Token)} (hleft : punctuation? left = some opening)
    (hright : punctuation? right = some closing) (indent : Option ℕ) (level : ℕ)
    (h : List.Forall₂ Reads texts tss) :
    ReadsWhole (container indent level left right texts)
      ([opening] ++ List.intercalate [.comma] tss ++ [closing]) := by
  have hopen : ReadsWhole [left] [opening] := readsWhole_punctuation hleft
  unfold container
  split_ifs with hempty
  · obtain rfl := List.isEmpty_iff.mp hempty
    cases h
    exact hopen.append (readsWhole_punctuation hright)
  · have hline : ReadsWhole (newline indent (level + 1)) [] :=
      readsWhole_whitespace (isWhitespace_newline indent _)
    have hitems := (hopen.append hline).append_reads (reads_join_separator indent (level + 1) h)
    have hclosing := hitems.append_space_of_forall (isWhitespace_newline indent level)
    simpa using hclosing.append_punctuation hright

end Whitespace

/-! ## Values -/

section Values

variable {lim : Limits} {indent : Option ℕ} {level depth : ℕ}

/-- An integer that is written is written as its digits. -/
theorem ofInt_of_intText {n : ℤ} {text : PyStr} (h : intText lim n = .ok text) :
    text = PyStr.ofInt n := by
  rw [intText] at h
  split_ifs at h
  exact (Except.ok.inj h).symm

/-- If every item is read as its tokens, then the texts of a list are read as those of the list, one
by one. -/
theorem reads_encodeList {xs : List PyValue} {texts : List PyStr}
    (hxs : ∀ x ∈ xs, ∀ text, encode lim indent level depth x = .ok text → Reads text (tokens x))
    (h : encodeList lim indent level depth xs = .ok texts) :
    List.Forall₂ Reads texts (tokensList xs) := by
  induction xs generalizing texts with
  | nil =>
    obtain rfl := Except.ok.inj h
    exact .nil
  | cons x xs ih =>
    rw [List.forall_mem_cons] at hxs
    rw [encodeList] at h
    obtain ⟨text, htext, h⟩ := Except.bind_eq_ok_iff.mp h
    obtain ⟨rest, hrest, h⟩ := Except.bind_eq_ok_iff.mp h
    obtain rfl := Except.ok.inj h
    exact .cons (hxs.1 text htext) (ih hxs.2 hrest)

/-- An item of a dict is read as its key, a colon and the tokens of its value. -/
theorem reads_item {key : PyStr} {x : PyValue} {text : PyStr} (h : Reads text (tokens x)) :
    Reads (quote key ++ ": ".toList ++ text) ([keyToken (.str key), .colon] ++ tokens x) := by
  have hcolon : ReadsWhole ": ".toList [.colon] :=
    (readsWhole_punctuation rfl).reads.append_space
  exact ((readsWhole_quote key).append hcolon).append_reads h

theorem reads_encodeItems {items : PyDict} {texts : List PyStr}
    (hkeys : ∀ item ∈ items, ∃ key, item.1 = .str key)
    (hvalues : ∀ item ∈ items, ∀ text,
      encode lim indent level depth item.2 = .ok text → Reads text (tokens item.2))
    (h : encodeItems lim indent level depth items = .ok texts) :
    List.Forall₂ Reads texts (tokensItems items) := by
  induction items generalizing texts with
  | nil =>
    obtain rfl := Except.ok.inj h
    exact .nil
  | cons item items ih =>
    obtain ⟨name, x⟩ := item
    rw [List.forall_mem_cons] at hkeys hvalues
    obtain ⟨⟨key, rfl⟩, hkeys⟩ := hkeys
    rw [encodeItems] at h
    obtain ⟨keyName, hname, h⟩ := Except.bind_eq_ok_iff.mp h
    obtain ⟨text, htext, h⟩ := Except.bind_eq_ok_iff.mp h
    obtain ⟨rest, hrest, h⟩ := Except.bind_eq_ok_iff.mp h
    obtain rfl := Except.ok.inj hname
    obtain rfl := Except.ok.inj h
    exact .cons (reads_item (hvalues.1 text htext)) (ih hkeys hvalues.2 hrest)

/-- A literal is read as a word. -/
theorem reads_literal {word : PyStr} (hword : word.all (fun c => decide (c ∈ wordChars)) = true)
    (hne : word ≠ []) : Reads word [.word word] :=
  reads_word (fun c hc => of_decide_eq_true (List.all_eq_true.mp hword c hc)) hne

/-- The text of a JSON value is read as its `tokens`, however deep it is indented. By induction on
the value, with a case for each kind of it. -/
theorem reads_encode {float : PyStr → PyStr} {v : PyValue} {text : PyStr}
    (hv : IsJson (IsFloatRepr float) v)
    (h : encode lim indent level depth v = .ok text) : Reads text (tokens v) := by
  induction hv generalizing level depth text with
  | none =>
    obtain rfl := Except.ok.inj h
    exact reads_literal (by decide) (by decide)
  | bool b =>
    obtain rfl := Except.ok.inj h
    cases b with
    | true => exact reads_literal (by decide) (by decide)
    | false => exact reads_literal (by decide) (by decide)
  | int n =>
    obtain rfl := ofInt_of_intText h
    exact reads_ofInt n
  | float hrepr =>
    obtain rfl := Except.ok.inj h
    exact reads_floatText hrepr
  | str s =>
    obtain rfl := Except.ok.inj h
    exact (readsWhole_quote s).reads
  | list _ ih =>
    cases depth with
    | zero => cases h
    | succ depth =>
      rw [encode] at h
      obtain ⟨texts, htexts, h⟩ := Except.bind_eq_ok_iff.mp h
      obtain rfl := Except.ok.inj h
      have hitems := reads_encodeList (fun x hx text htext => ih x hx htext) htexts
      exact (readsWhole_container rfl rfl indent level hitems).reads
  | dict _ hkeys _ ih =>
    cases depth with
    | zero => cases h
    | succ depth =>
      rw [encode] at h
      obtain ⟨texts, htexts, h⟩ := Except.bind_eq_ok_iff.mp h
      obtain rfl := Except.ok.inj h
      have hitems := reads_encodeItems hkeys (fun item hitem text htext => ih item hitem htext)
        htexts
      exact (readsWhole_container rfl rfl indent level hitems).reads

/-- What `encode` has written for a JSON value is decoded to the value: the lexer gives its
`tokens`, and the parser the value of these. -/
theorem decode_of_encode {float : PyStr → PyStr} {v : PyValue} {text : PyStr}
    (hv : IsJson (IsFloatRepr float) v)
    (h : encode lim indent level depth v = .ok text) : decode float text = some v := by
  obtain ⟨l, hl, hfinish⟩ := reads_encode hv h []
  have hlex : lex text = some (tokens v) := by
    rw [lex, hl, Option.bind_some, hfinish, List.nil_append]
  rw [decode, hlex, Option.bind_some, parse_tokens hv]

/-- The round trip `json.loads(json.dumps(v)) == v`, for every JSON value whose floats are written
as `IsFloatRepr` says. -/
theorem decode_dumps {float : PyStr → PyStr} {v : PyValue} {text : PyStr}
    (hv : IsJson (IsFloatRepr float) v) (h : dumps lim v = .ok text) :
    decode float text = some v := decode_of_encode hv h

end Values

/-! ## Characters -/

section Plain

/-- A printable ASCII character. -/
def Plain (c : Char) : Prop := 0x20 ≤ c.toNat ∧ c.toNat < 0x7F

instance : DecidablePred Plain := fun _ => inferInstanceAs (Decidable (_ ∧ _))

variable {lim : Limits} {level depth : ℕ}

/-- What `json.dumps` writes without an indent is `Plain`: hexadecimal digits, escapes, strings and
separators are, and so is all that is put together of them. -/
theorem plain_hexDigit {n : ℕ} (hn : n < 16) : Plain (PyStr.hexDigit n) := by
  interval_cases n <;> decide

theorem plain_unicodeEscape {n : ℕ} (hn : n < 0x10000) : ∀ c ∈ unicodeEscape n, Plain c := by
  simp only [unicodeEscape, List.forall_mem_cons]
  exact ⟨by decide, by decide, plain_hexDigit (by omega), plain_hexDigit (by omega),
    plain_hexDigit (by omega), plain_hexDigit (by omega), List.forall_mem_nil _⟩

theorem plain_escapeChar (c : Char) : ∀ d ∈ escapeChar c, Plain d := by
  have hescape (d : Char) (hd : Plain d) : ∀ e ∈ ['\\', d], Plain e := by
    rw [List.forall_mem_cons, List.forall_mem_singleton]
    exact ⟨by decide, hd⟩
  dsimp only [escapeChar]
  split_ifs with hquote hplain hlf hcr htab hff hbs hshort
  · refine hescape c ?_
    unfold Plain
    omega
  · rw [List.forall_mem_singleton]
    unfold Plain
    omega
  · exact hescape 'n' (by decide)
  · exact hescape 'r' (by decide)
  · exact hescape 't' (by decide)
  · exact hescape 'f' (by decide)
  · exact hescape 'b' (by decide)
  · exact plain_unicodeEscape hshort
  · have hlt : c.toNat < 0x110000 := by
      rcases c.valid with hlt | ⟨-, hlt⟩
      · have : c.toNat < 0xD800 := hlt
        omega
      · exact hlt
    rw [List.forall_mem_append]
    exact ⟨plain_unicodeEscape (by omega), plain_unicodeEscape (by omega)⟩

/-- A string in its quotation marks is `Plain`, whatever its characters are: all those that are not
are escaped. -/
theorem plain_quote (s : PyStr) : ∀ c ∈ quote s, Plain c := by
  rw [quote, List.forall_mem_append, List.forall_mem_append, List.forall_mem_singleton]
  refine ⟨⟨by decide, fun d hd => ?_⟩, by decide⟩
  obtain ⟨c, -, hd⟩ := List.mem_flatMap.mp hd
  exact plain_escapeChar c d hd

/-- The characters of words are printable ASCII characters. -/
theorem plain_of_mem_wordChars {text : PyStr} (h : ∀ c ∈ text, c ∈ wordChars) :
    ∀ c ∈ text, Plain c := by
  have hall : wordChars.all (fun c => Plain c) = true := by decide
  exact fun c hc => of_decide_eq_true (List.all_eq_true.mp hall c (h c hc))

theorem plain_join {texts : List PyStr} (h : ∀ text ∈ texts, ∀ c ∈ text, Plain c) :
    ∀ c ∈ PyStr.join ", ".toList texts, Plain c := by
  induction texts with
  | nil => exact List.forall_mem_nil _
  | cons text texts ih =>
    rw [List.forall_mem_cons] at h
    cases texts with
    | nil => simpa [PyStr.join] using h.1
    | cons text' texts =>
      have hcomma : ∀ c ∈ ", ".toList, Plain c := by simp [Plain]
      rw [PyStr.join, List.intercalate_cons_cons, List.forall_mem_append, List.forall_mem_append]
      exact ⟨⟨h.1, hcomma⟩, ih h.2⟩

/-- A container is `Plain` if its brackets and the texts of its items are. -/
theorem plain_container {left right : Char} {texts : List PyStr} (hleft : Plain left)
    (hright : Plain right) (h : ∀ text ∈ texts, ∀ c ∈ text, Plain c) :
    ∀ c ∈ container none level left right texts, Plain c := by
  unfold container
  split_ifs
  · simpa using ⟨hleft, hright⟩
  · simp only [newline, separator, List.append_nil, List.forall_mem_append, List.forall_mem_cons]
    exact ⟨⟨⟨hleft, List.forall_mem_nil _⟩, plain_join h⟩, hright, List.forall_mem_nil _⟩

/-- The texts of the items of a list, and below of a `dict`, are `Plain` if those of their values
are. -/
theorem plain_encodeList {xs : List PyValue} {texts : List PyStr}
    (hxs : ∀ x ∈ xs, ∀ text, encode lim none level depth x = .ok text → ∀ c ∈ text, Plain c)
    (h : encodeList lim none level depth xs = .ok texts) :
    ∀ text ∈ texts, ∀ c ∈ text, Plain c := by
  induction xs generalizing texts with
  | nil =>
    obtain rfl := Except.ok.inj h
    exact List.forall_mem_nil _
  | cons x xs ih =>
    rw [List.forall_mem_cons] at hxs
    rw [encodeList] at h
    obtain ⟨text, htext, h⟩ := Except.bind_eq_ok_iff.mp h
    obtain ⟨rest, hrest, h⟩ := Except.bind_eq_ok_iff.mp h
    obtain rfl := Except.ok.inj h
    exact List.forall_mem_cons.mpr ⟨hxs.1 text htext, ih hxs.2 hrest⟩

theorem plain_encodeItems {items : PyDict} {texts : List PyStr}
    (hkeys : ∀ item ∈ items, ∃ key, item.1 = .str key)
    (hvalues : ∀ item ∈ items, ∀ text,
      encode lim none level depth item.2 = .ok text → ∀ c ∈ text, Plain c)
    (h : encodeItems lim none level depth items = .ok texts) :
    ∀ text ∈ texts, ∀ c ∈ text, Plain c := by
  induction items generalizing texts with
  | nil =>
    obtain rfl := Except.ok.inj h
    exact List.forall_mem_nil _
  | cons item items ih =>
    obtain ⟨name, x⟩ := item
    rw [List.forall_mem_cons] at hkeys hvalues
    obtain ⟨⟨key, rfl⟩, hkeys⟩ := hkeys
    rw [encodeItems] at h
    obtain ⟨keyName, hname, h⟩ := Except.bind_eq_ok_iff.mp h
    obtain ⟨text, htext, h⟩ := Except.bind_eq_ok_iff.mp h
    obtain ⟨rest, hrest, h⟩ := Except.bind_eq_ok_iff.mp h
    obtain rfl := Except.ok.inj hname
    obtain rfl := Except.ok.inj h
    have hcolon : ∀ c ∈ ": ".toList, Plain c := by simp [Plain]
    rw [List.forall_mem_cons, List.forall_mem_append, List.forall_mem_append]
    exact ⟨⟨⟨plain_quote key, hcolon⟩, hvalues.1 text htext⟩, ih hkeys hvalues.2 hrest⟩

/-- A text without indentation has only printable ASCII characters (`Plain`), whatever is in the
strings of the value. -/
theorem plain_encode {float : PyStr → PyStr} {v : PyValue} {text : PyStr}
    (hv : IsJson (IsFloatRepr float) v)
    (h : encode lim none level depth v = .ok text) : ∀ c ∈ text, Plain c := by
  induction hv generalizing level depth text with
  | none =>
    obtain rfl := Except.ok.inj h
    simp [Plain]
  | bool b =>
    obtain rfl := Except.ok.inj h
    cases b <;> simp [Plain]
  | int n =>
    obtain rfl := ofInt_of_intText h
    exact plain_of_mem_wordChars fun _ => mem_wordChars_of_mem_ofInt
  | float hrepr =>
    obtain rfl := Except.ok.inj h
    exact plain_of_mem_wordChars (mem_wordChars_of_mem_floatText hrepr)
  | str s =>
    obtain rfl := Except.ok.inj h
    exact plain_quote s
  | list _ ih =>
    cases depth with
    | zero => cases h
    | succ depth =>
      rw [encode] at h
      obtain ⟨texts, htexts, h⟩ := Except.bind_eq_ok_iff.mp h
      obtain rfl := Except.ok.inj h
      exact plain_container (by decide) (by decide)
        (plain_encodeList (fun x hx text htext => ih x hx htext) htexts)
  | dict _ hkeys _ ih =>
    cases depth with
    | zero => cases h
    | succ depth =>
      rw [encode] at h
      obtain ⟨texts, htexts, h⟩ := Except.bind_eq_ok_iff.mp h
      obtain rfl := Except.ok.inj h
      exact plain_container (by decide) (by decide)
        (plain_encodeItems hkeys (fun item hitem text htext => ih item hitem htext) htexts)

/-- The text that `json.dumps` writes for a JSON value is `Plain`: it has no control character, and
nothing beyond ASCII. -/
theorem plain_dumps {float : PyStr → PyStr} {v : PyValue} {text : PyStr}
    (hv : IsJson (IsFloatRepr float) v) (h : dumps lim v = .ok text) :
    ∀ c ∈ text, Plain c := plain_encode hv h

/-- A printable ASCII character ends no line. -/
theorem not_isLineBreak_of_plain {c : Char} (hc : Plain c) : PyStr.isLineBreak c = false := by
  unfold Plain at hc
  simp only [PyStr.isLineBreak, Bool.or_eq_false_iff, Bool.and_eq_false_iff,
    decide_eq_false_iff_not, beq_eq_false_iff_ne]
  omega

end Plain

end Json
