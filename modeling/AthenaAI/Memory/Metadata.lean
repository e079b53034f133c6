import AthenaAI.Memory.Conversation
import AthenaAI.Python.JsonTokens
import AthenaAI.Python.Repr

/-!
# The metadata of messages

What `ConversationMemory.add_message` writes into the `jsonb` column: the `repr` of the metadata
with `"` in place of `'`.

* `AddCall.metadataTextIn` is that text, with the limits of the interpreter and the code points that
  are not printable; `AddCall.metadataText` leaves these out (`metadataText_of_metadataTextIn`).
* `Storable` are the values whose text is a JSON text of them: strings without quotes and without
  the escapes that JSON does not have, integers, lists and dicts, within the limits.
* `reads_of_storable` and `rejects_of_not_storable`: what reading such a text, or another one, comes
  to, provided that there are no quotes in the strings.
* `storedAsIs_iff`: the text is a JSON text of the metadata if and only if they are storable.
-/

namespace AddCall

variable (isPrintable : Char → Bool) (lim : Json.Limits)

/-- `s.replace("'", '"')`. -/
def swapQuotes (s : PyStr) : PyStr := s.replace (Char.ofNat 39) (Char.ofNat 34)

/-- `str(meta).replace("'", '"')`, where not all code points are printable and `str` may fail. -/
def metadataTextIn (call : AddCall) : Except PyExc PyStr :=
  swapQuotes <$> (PyValue.dict call.metaDict).reprIn isPrintable lim lim.depth

/-- Values built from strings, integers, booleans, `None`, lists and dicts. -/
inductive IsMetadata : PyValue → Prop
  | none : IsMetadata .none
  | bool (b : Bool) : IsMetadata (.bool b)
  | int (n : ℤ) : IsMetadata (.int n)
  | str (s : PyStr) : IsMetadata (.str s)
  | list {xs : List PyValue} (hxs : ∀ x ∈ xs, IsMetadata x) : IsMetadata (.list xs)
  | dict {items : PyDict} (hnodup : (items.map Prod.fst).Nodup)
    (hkeys : ∀ item ∈ items, IsMetadata item.1.toValue)
    (hvalues : ∀ item ∈ items, IsMetadata item.2) : IsMetadata (.dict items)

/-- The text of the metadata is a JSON text, of the metadata themselves. -/
def StoredAsIs (float : PyStr → PyStr) (call : AddCall) : Prop :=
  ∃ text, call.metadataTextIn isPrintable lim = .ok text ∧
    Json.decode float text = some (.dict call.metaDict)

/-- A character that is neither a quote nor written with an escape that JSON does not have, `\xHH`
or `\UXXXXXXXX`. -/
def Clean (c : Char) : Prop :=
  (c ≠ Char.ofNat 39 ∧ c ≠ Char.ofNat 34) ∧
    (c = '\n' ∨ c = '\r' ∨ c = '\t' ∨ (0x20 ≤ c.toNat ∧ c.toNat < 0x7F) ∨
      (0x80 ≤ c.toNat ∧ (isPrintable c ∨ (0x100 ≤ c.toNat ∧ c.toNat < 0x10000))))

instance (isPrintable : Char → Bool) : DecidablePred (Clean isPrintable) := fun _ =>
  inferInstanceAs (Decidable (_ ∧ _))

/-- The values whose text is a JSON text of them, with so many levels of recursion: neither `None`
nor a `bool` is among them. -/
inductive Storable : ℕ → PyValue → Prop
  | str {depth : ℕ} {s : PyStr} (hs : ∀ c ∈ s, Clean isPrintable c) : Storable (depth + 1) (.str s)
  | int {depth : ℕ} {n : ℤ} (hn : lim.digits = 0 ∨ n.natAbs < 10 ^ lim.digits) :
    Storable (depth + 1) (.int n)
  | list {depth : ℕ} {xs : List PyValue} (hxs : ∀ x ∈ xs, Storable depth x) :
    Storable (depth + 1) (.list xs)
  | dict {depth : ℕ} {items : PyDict}
    (hstrings : ∀ item ∈ items, ∃ key, item.1 = .str key)
    (hkeys : ∀ item ∈ items, Storable depth item.1.toValue)
    (hvalues : ∀ item ∈ items, Storable depth item.2) : Storable (depth + 1) (.dict items)

variable {isPrintable lim}

/-- The text is made exactly if `repr` of the metadata is, and it is that with its quotes
exchanged. -/
theorem metadataTextIn_eq_ok_iff {call : AddCall} {text : PyStr} :
    call.metadataTextIn isPrintable lim = .ok text ↔
      ∃ repr, (PyValue.dict call.metaDict).reprIn isPrintable lim lim.depth = .ok repr ∧
        swapQuotes repr = text := by
  rw [metadataTextIn]
  cases (PyValue.dict call.metaDict).reprIn isPrintable lim lim.depth <;>
    simp [Functor.map, Except.map]

/-- Where all code points are printable and no limit is hit, the text is the `metadataText` that the
sequential model puts into the row. -/
theorem metadataText_of_metadataTextIn {call : AddCall} {text : PyStr}
    (h : call.metadataTextIn (fun _ => true) lim = .ok text) : text = call.metadataText := by
  obtain ⟨repr, hrepr, rfl⟩ := metadataTextIn_eq_ok_iff.mp h
  rw [PyValue.eq_repr_of_reprIn hrepr]
  rfl

/-! ## Replacing the quotes -/

/-- The exchange of quotes goes character by character, so it distributes over texts put
together. -/
@[simp]
theorem swapQuotes_append (s t : PyStr) : swapQuotes (s ++ t) = swapQuotes s ++ swapQuotes t := by
  simp [swapQuotes, PyStr.replace]

theorem swapQuotes_flatMap (f : Char → PyStr) (s : PyStr) :
    swapQuotes (s.flatMap f) = s.flatMap fun c => swapQuotes (f c) := by
  simp [swapQuotes, PyStr.replace, List.map_flatMap]

theorem swapQuotes_eq_self {s : PyStr} (hs : ∀ c ∈ s, c ≠ Char.ofNat 39) : swapQuotes s = s := by
  rw [swapQuotes, PyStr.replace, List.map_congr_left (fun c hc => if_neg (hs c hc)), List.map_id']

/-- The separator has no quote in it, so only the parts are changed. -/
theorem swapQuotes_join (texts : List PyStr) :
    swapQuotes (PyStr.join ", ".toList texts) = PyStr.join ", ".toList (texts.map swapQuotes) := by
  induction texts with
  | nil => rfl
  | cons text texts ih =>
    cases texts with
    | nil => simp [PyStr.join]
    | cons text' texts =>
      simp only [PyStr.join, List.intercalate_cons_cons, List.map_cons, swapQuotes_append] at ih ⊢
      rw [ih]
      rfl

/-! ## Characters and strings -/

/-- The text of a character in a JSON string. -/
def charText (isPrintable : Char → Bool) (quote c : Char) : PyStr :=
  swapQuotes (PyStr.reprCharIn isPrintable quote c)

/-- No hexadecimal digit is a quote, so the escapes of `repr` stay as they are, as
`swapQuotes_unicodeEscape` says. -/
theorem hexDigit_ne {n : ℕ} (hn : n < 16) : PyStr.hexDigit n ≠ Char.ofNat 39 := by
  interval_cases n <;> decide

theorem swapQuotes_unicodeEscape {n : ℕ} (hn : n < 0x10000) :
    swapQuotes (Json.unicodeEscape n) = Json.unicodeEscape n := by
  apply swapQuotes_eq_self
  simp only [Json.unicodeEscape, List.forall_mem_cons]
  exact ⟨by decide, by decide, hexDigit_ne (by omega), hexDigit_ne (by omega),
    hexDigit_ne (by omega), hexDigit_ne (by omega), List.forall_mem_nil _⟩

/-- How a character that is no quote is written in JSON text. -/
inductive Written (isPrintable : Char → Bool) (c : Char) : PyStr → Prop
  -- as it stands
  | plain (hclean : Clean isPrintable c) (hlower : 0x20 ≤ c.toNat) (hescape : c ≠ '\\') :
    Written isPrintable c [c]
  -- with an escape of one character
  | escape {d : Char} (hclean : Clean isPrintable c) (hd : Json.escaped? d = some c)
    (hu : d ≠ 'u') : Written isPrintable c ['\\', d]
  | unicode (hclean : Clean isPrintable c) (hlower : 0x100 ≤ c.toNat) (hupper : c.toNat < 0x10000) :
    Written isPrintable c (Json.unicodeEscape c.toNat)
  -- with an escape that JSON does not have
  | other {d : Char} {rest : PyStr} (hclean : ¬Clean isPrintable c) (hd : Json.escaped? d = none)
    (hu : d ≠ 'u') : Written isPrintable c ('\\' :: d :: rest)

/-- The 128 characters of ASCII, except the two quotes, are `Written` as `repr` writes them. -/
theorem written_of_ascii {c : Char} (hc : c ≠ Char.ofNat 39 ∧ c ≠ Char.ofNat 34)
    (hascii : c.toNat < 0x80) :
    Written isPrintable c (swapQuotes (PyStr.reprChar (Char.ofNat 39) c)) := by
  rw [PyStr.reprChar]
  split_ifs with hescape hlf hcr htab hcontrol
  · obtain rfl := hescape.resolve_left hc.1
    exact .escape ⟨hc, by simp⟩ rfl (by decide)
  · subst hlf
    exact .escape ⟨hc, by simp⟩ rfl (by decide)
  · subst hcr
    exact .escape ⟨hc, by simp⟩ rfl (by decide)
  · subst htab
    exact .escape ⟨hc, by simp⟩ rfl (by decide)
  · have hclean : ¬Clean isPrintable c := by
      rintro ⟨-, rfl | rfl | rfl | h | h⟩
      · exact hlf rfl
      · exact hcr rfl
      · exact htab rfl
      · omega
      · omega
    exact .other hclean rfl (by decide)
  · have hplain : 0x20 ≤ c.toNat ∧ c.toNat < 0x7F := by omega
    have hself : swapQuotes [c] = [c] := swapQuotes_eq_self (by simpa using hc.1)
    rw [hself]
    exact .plain ⟨hc, by simp [hplain]⟩ hplain.1 fun h => hescape (Or.inr h)

/-- A character that is no ASCII character is none of those that `repr` escapes. -/
theorem reprChar_of_le {c : Char} (hc : 0x80 ≤ c.toNat) :
    PyStr.reprChar (Char.ofNat 39) c = [c] := by
  have hne (d : Char) (hd : d.toNat < 0x80) : c ≠ d := by
    rintro rfl
    exact absurd hc (Nat.not_le.mpr hd)
  rw [PyStr.reprChar, if_neg, if_neg (hne _ (by decide)), if_neg (hne _ (by decide)),
    if_neg (hne _ (by decide)), if_neg (by omega)]
  exact not_or.mpr ⟨hne _ (by decide), hne _ (by decide)⟩

theorem written_charText {c : Char} (hc : c ≠ Char.ofNat 39 ∧ c ≠ Char.ofNat 34) :
    Written isPrintable c (charText isPrintable (Char.ofNat 39) c) := by
  dsimp only [charText, PyStr.reprCharIn]
  by_cases hascii : c.toNat < 0x80
  · rw [if_pos (Or.inl hascii)]
    exact written_of_ascii hc hascii
  have hle : 0x80 ≤ c.toNat := Nat.le_of_not_lt hascii
  have hspecial (d : Char) (hd : d.toNat < 0x80) : c ≠ d := by
    rintro rfl
    exact hascii hd
  have hclean : Clean isPrintable c ↔
      isPrintable c ∨ (0x100 ≤ c.toNat ∧ c.toNat < 0x10000) := by
    have hother : ¬(0x20 ≤ c.toNat ∧ c.toNat < 0x7F) := by omega
    simp [Clean, hc, hle, hother, hspecial '\n' (by decide), hspecial '\r' (by decide),
      hspecial '\t' (by decide)]
  split_ifs with hprintable hbyte hshort
  · have hself : swapQuotes [c] = [c] := swapQuotes_eq_self (by simpa using hc.1)
    rw [reprChar_of_le hle, hself]
    exact .plain (hclean.mpr (Or.inl (hprintable.resolve_left hascii))) (by omega)
      (hspecial _ (by decide))
  · refine .other (fun h => ?_) rfl (by decide)
    rcases hclean.mp h with h | h
    · exact hprintable (Or.inr h)
    · omega
  · rw [swapQuotes_unicodeEscape hshort]
    exact .unicode (hclean.mpr (Or.inr ⟨by omega, hshort⟩)) (by omega) hshort
  · refine .other (fun h => ?_) rfl (by decide)
    rcases hclean.mp h with h | h
    · exact hprintable (Or.inr h)
    · omega

section Strings

variable {c : Char} {text s : PyStr} {before : List Json.Token} {codes : List ℕ}

/-- The reader of JSON takes the text of a `Clean` character for that character. -/
theorem run_of_clean (h : Written isPrintable c text) (hc : Clean isPrintable c) :
    Json.Lexer.run ⟨before, .string codes⟩ text = some ⟨before, .string (codes ++ [c.toNat])⟩ := by
  cases h with
  | plain _ hlower hescape =>
    have hquote : c ≠ Json.quotationMark := hc.1.2
    rw [Json.Lexer.run_cons, Json.Lexer.step, if_neg hquote, if_neg hescape, if_neg (by omega)]
    rfl
  | @escape d _ hd hu =>
    have hstep : Json.Lexer.step ⟨before, .escape codes⟩ d =
        some ⟨before, .string (codes ++ [c.toNat])⟩ := by
      rw [Json.Lexer.step, if_neg hu, hd, Option.map_some]
    rw [Json.Lexer.run_cons]
    show Json.Lexer.run ⟨before, .escape codes⟩ [d] = _
    rw [Json.Lexer.run_cons, hstep]
    rfl
  | unicode _ _ hupper => exact Json.run_unicodeEscape hupper before codes
  | other hclean _ _ => exact absurd hc hclean

theorem run_of_not_clean (h : Written isPrintable c text) (hc : ¬Clean isPrintable c) :
    Json.Lexer.run ⟨before, .string codes⟩ text = none := by
  cases h with
  | @other d rest _ hd hu =>
    rw [Json.Lexer.run_cons]
    show Json.Lexer.run ⟨before, .escape codes⟩ (d :: rest) = _
    rw [Json.Lexer.run_cons, Json.Lexer.step, if_neg hu, hd]
    rfl
  | plain hclean | escape hclean | unicode hclean => exact absurd hclean hc

/-- A whole string of `Clean` characters is read as what it was. -/
theorem run_flatMap_of_clean (hs : ∀ c ∈ s, Clean isPrintable c) :
    Json.Lexer.run ⟨before, .string codes⟩ (s.flatMap (charText isPrintable (Char.ofNat 39))) =
      some ⟨before, .string (codes ++ s.map Char.toNat)⟩ := by
  induction s generalizing codes with
  | nil => simp [Json.Lexer.run, pure]
  | cons c s ih =>
    rw [List.forall_mem_cons] at hs
    rw [List.flatMap_cons, Json.Lexer.run_append, run_of_clean (written_charText hs.1.1) hs.1,
      Option.bind_some, ih hs.2, List.append_assoc, List.map_cons, List.singleton_append]

/-- One other character in it is enough for the reader to refuse the text. -/
theorem run_flatMap_of_not_clean (hquotes : ∀ c ∈ s, c ≠ Char.ofNat 39 ∧ c ≠ Char.ofNat 34)
    (hs : ¬∀ c ∈ s, Clean isPrintable c) :
    Json.Lexer.run ⟨before, .string codes⟩ (s.flatMap (charText isPrintable (Char.ofNat 39))) =
      none := by
  induction s generalizing codes with
  | nil => exact absurd (List.forall_mem_nil _) hs
  | cons c s ih =>
    rw [List.forall_mem_cons] at hs hquotes
    have hwritten : Written isPrintable c (charText isPrintable (Char.ofNat 39) c) :=
      written_charText hquotes.1
    rw [List.flatMap_cons, Json.Lexer.run_append]
    by_cases hc : Clean isPrintable c
    · rw [run_of_clean hwritten hc, Option.bind_some]
      exact ih hquotes.2 fun hrest => hs ⟨hc, hrest⟩
    · rw [run_of_not_clean hwritten hc, Option.bind_none]

/-- There are no quotes in a string. -/
def QuoteFree (s : PyStr) : Prop := Char.ofNat 39 ∉ s ∧ Char.ofNat 34 ∉ s

/-- `repr` puts single quotes around a string that has none in it. -/
theorem reprQuote_of_not_mem (hs : Char.ofNat 39 ∉ s) : s.reprQuote = Char.ofNat 39 := by
  simp [PyStr.reprQuote, hs]

theorem swapQuotes_reprIn (hs : Char.ofNat 39 ∉ s) :
    swapQuotes (s.reprIn isPrintable) =
      [Json.quotationMark] ++ s.flatMap (charText isPrintable (Char.ofNat 39)) ++
        [Json.quotationMark] := by
  rw [PyStr.reprIn, reprQuote_of_not_mem hs, swapQuotes_append, swapQuotes_append,
    swapQuotes_flatMap]
  rfl

/-- A string of `Clean` characters, as `repr` writes it and with its quotes exchanged, is read as
itself. -/
theorem readsWhole_str (hs : ∀ c ∈ s, Clean isPrintable c) :
    Json.ReadsWhole (swapQuotes (s.reprIn isPrintable)) [.string s] := by
  intro before
  have hquote : Char.ofNat 39 ∉ s := fun hmem => (hs _ hmem).1.1 rfl
  rw [swapQuotes_reprIn hquote, Json.Lexer.run_append, Json.Lexer.run_append]
  show ((Json.Lexer.run ⟨before, .string []⟩ _).bind _) = _
  rw [run_flatMap_of_clean hs, Option.bind_some, List.nil_append]
  show some (Json.Lexer.mk (before ++ [.string (Json.ofCodes (s.map Char.toNat))]) (.code [])) = _
  rw [Json.ofCodes_map_toNat]

/-- Any other string without quotes is not read, from wherever its text stands. -/
theorem rejects_str (hquotes : QuoteFree s) (hs : ¬∀ c ∈ s, Clean isPrintable c) :
    Json.Rejects (swapQuotes (s.reprIn isPrintable)) := by
  intro before
  have hne : ∀ c ∈ s, c ≠ Char.ofNat 39 ∧ c ≠ Char.ofNat 34 := by
    rintro c hc
    exact ⟨fun h => hquotes.1 (h ▸ hc), fun h => hquotes.2 (h ▸ hc)⟩
  rw [swapQuotes_reprIn hquotes.1, Json.Lexer.run_append, Json.Lexer.run_append]
  show ((Json.Lexer.run ⟨before, .string []⟩ _).bind _) = _
  rw [run_flatMap_of_not_clean hne hs]
  rfl

end Strings

/-! ## Storable values -/

/-- The text of an integer is made exactly if it has no more digits than `lim.digits`, and zero
there is no limit. -/
theorem intText_eq_ok_iff {n : ℤ} {text : PyStr} :
    Json.intText lim n = .ok text ↔
      (lim.digits = 0 ∨ n.natAbs < 10 ^ lim.digits) ∧ text = PyStr.ofInt n := by
  rw [Json.intText]
  split_ifs with hlarge
  · refine iff_of_false (by simp) fun h => ?_
    rcases h.1 with h | h
    · exact hlarge.1 h
    · exact absurd hlarge.2 (Nat.not_le.mpr h)
  · have hsmall : lim.digits = 0 ∨ n.natAbs < 10 ^ lim.digits := by
      rw [not_and_or, not_not, Nat.not_le] at hlarge
      exact hlarge
    simp [hsmall, eq_comm]

theorem swapQuotes_ofInt (n : ℤ) : swapQuotes (PyStr.ofInt n) = PyStr.ofInt n := by
  refine swapQuotes_eq_self fun c hc => ?_
  rintro rfl
  rcases Json.isDigit_or_of_mem_ofInt hc with h | h
  · exact absurd h (by decide)
  · exact absurd h (by decide)

/-- If each element of a list has a text that is read as its tokens, then so has the list: the texts
of its elements, in order. -/
theorem exists_texts {α : Type} {f : α → Except PyExc PyStr} {t : α → List Json.Token}
    {xs : List α} (h : ∀ x ∈ xs, ∃ text, f x = .ok text ∧ Json.Reads (swapQuotes text) (t x)) :
    ∃ texts, xs.mapM f = .ok texts ∧
      List.Forall₂ Json.Reads (texts.map swapQuotes) (xs.map t) := by
  induction xs with
  | nil => exact ⟨[], rfl, .nil⟩
  | cons x xs ih =>
    rw [List.forall_mem_cons] at h
    obtain ⟨⟨text, htext, hread⟩, h⟩ := h
    obtain ⟨texts, htexts, hreads⟩ := ih h
    refine ⟨text :: texts, ?_, .cons hread hreads⟩
    rw [List.mapM_cons, htext, htexts]
    rfl

/-- The text of an item, in terms of those of its key and its value. -/
theorem swapQuotes_item (name text : PyStr) :
    swapQuotes (name ++ ": ".toList ++ text) =
      swapQuotes name ++ [':'] ++ [' '] ++ swapQuotes text := by
  have hcolon : swapQuotes ": ".toList = [':'] ++ [' '] := rfl
  rw [swapQuotes_append, swapQuotes_append, hcolon, List.append_assoc (swapQuotes name) [':']]

/-- A key in front of its value: the name, the colon and the space that `repr` writes. -/
theorem readsWhole_key {key : PyStr} {name : PyStr}
    (hkey : Json.ReadsWhole (swapQuotes name) [.string key]) :
    Json.ReadsWhole (swapQuotes name ++ [':'] ++ [' ']) [.string key, .colon] := by
  have hcolon : Json.ReadsWhole (swapQuotes name ++ [':']) [.string key, .colon] :=
    hkey.reads.append_punctuation rfl
  exact hcolon.reads.append_space

/-- The text of a container, in terms of those of its items. -/
theorem swapQuotes_container {left right : Char} (texts : List PyStr)
    (hleft : left ≠ Char.ofNat 39) (hright : right ≠ Char.ofNat 39) :
    swapQuotes ([left] ++ PyStr.join ", ".toList texts ++ [right]) =
      [left] ++ PyStr.join ", ".toList (texts.map swapQuotes) ++ [right] := by
  have hself {c : Char} (hc : c ≠ Char.ofNat 39) : swapQuotes [c] = [c] :=
    swapQuotes_eq_self (by simpa using hc)
  rw [swapQuotes_append, swapQuotes_append, hself hleft, hself hright, swapQuotes_join]

/-- A list or a `dict` is read if its items are: the brackets and the separators are the same in
Python and in JSON. -/
theorem readsWhole_container {left right : Char} {begin close : Json.Token} {texts : List PyStr}
    {tss : List (List Json.Token)} (hleft : Json.punctuation? left = some begin)
    (hright : Json.punctuation? right = some close)
    (h : List.Forall₂ Json.Reads texts tss) :
    Json.ReadsWhole ([left] ++ PyStr.join ", ".toList texts ++ [right])
      ([begin] ++ List.intercalate [.comma] tss ++ [close]) :=
  ((Json.readsWhole_punctuation hleft).append_reads (Json.reads_join h)).append_punctuation hright

/-- A container is not read if one of its items is not: the items before the first of these are
read, and then the reader is at its text. -/
theorem rejects_container {α : Type} {f : α → Except PyExc PyStr} {P : α → Prop} {xs : List α}
    {texts : List PyStr} {left right : Char} {begin : Json.Token}
    (hleft : Json.punctuation? left = some begin)
    (hquotes : left ≠ Char.ofNat 39 ∧ right ≠ Char.ofNat 39) (htexts : xs.mapM f = .ok texts)
    (h : ∀ x ∈ xs, ∀ text, f x = .ok text →
      (P x ∧ ∃ ts, Json.Reads (swapQuotes text) ts) ∨ Json.Rejects (swapQuotes text))
    (hnot : ¬∀ x ∈ xs, P x) :
    Json.Rejects (swapQuotes ([left] ++ PyStr.join ", ".toList texts ++ [right])) := by
  obtain ⟨hfrom, hto⟩ := Except.mem_of_mapM htexts
  have hjoin : Json.Rejects (PyStr.join ", ".toList (texts.map swapQuotes)) := by
    refine Json.rejects_join (fun text hmem => ?_) ?_
    · obtain ⟨text, htext, rfl⟩ := List.mem_map.mp hmem
      obtain ⟨x, hx, htext⟩ := hfrom text htext
      exact (h x hx text htext).imp_left And.right
    · push Not at hnot
      obtain ⟨x, hx, hP⟩ := hnot
      obtain ⟨text, hmem, htext⟩ := hto x hx
      refine ⟨_, List.mem_map_of_mem hmem, (h x hx text htext).resolve_left ?_⟩
      exact fun hread => hP hread.1
  rw [swapQuotes_container texts hquotes.1 hquotes.2]
  exact ((Json.readsWhole_punctuation hleft).append_rejects hjoin).append _

/-- A `Storable` value has a text, and read as JSON the text is the value's own tokens. By induction
on the value. -/
theorem reads_of_storable {depth : ℕ} {v : PyValue} (h : Storable isPrintable lim depth v) :
    ∃ text, v.reprIn isPrintable lim depth = .ok text ∧
      Json.Reads (swapQuotes text) (Json.tokens v) := by
  induction h with
  | @str depth s hs => exact ⟨_, rfl, (readsWhole_str hs).reads⟩
  | @int depth n hn =>
    refine ⟨PyStr.ofInt n, intText_eq_ok_iff.mpr ⟨hn, rfl⟩, ?_⟩
    rw [swapQuotes_ofInt]
    exact Json.reads_ofInt n
  | @list depth xs _ ih =>
    obtain ⟨texts, htexts, hreads⟩ := exists_texts ih
    refine ⟨_, PyValue.reprIn_list_eq_ok_iff.mpr ⟨depth, texts, rfl, htexts, rfl⟩, ?_⟩
    rw [swapQuotes_container texts (by decide) (by decide), Json.tokens, Json.tokensList_eq_map]
    exact (readsWhole_container rfl rfl hreads).reads
  | @dict depth items hstrings hkeys _ _ ihvalues =>
    have hitem : ∀ item ∈ items, ∃ text, PyValue.reprItemIn isPrintable lim depth item = .ok text ∧
        Json.Reads (swapQuotes text) ([Json.keyToken item.1, .colon] ++ Json.tokens item.2) := by
      rintro ⟨name, x⟩ hmem
      obtain ⟨key, rfl⟩ := hstrings _ hmem
      obtain ⟨text, htext, hread⟩ := ihvalues _ hmem
      have hkey : Storable isPrintable lim depth (.str key) := hkeys _ hmem
      cases hkey with
      | str hs =>
        refine ⟨_, PyValue.reprItemIn_eq_ok_iff.mpr ⟨_, text, rfl, htext, rfl⟩, ?_⟩
        rw [swapQuotes_item]
        exact (readsWhole_key (readsWhole_str hs)).append_reads hread
    obtain ⟨texts, htexts, hreads⟩ := exists_texts hitem
    refine ⟨_, PyValue.reprIn_dict_eq_ok_iff.mpr ⟨depth, texts, rfl, htexts, rfl⟩, ?_⟩
    rw [swapQuotes_container texts (by decide) (by decide), Json.tokens, Json.tokensItems_eq_map]
    exact (readsWhole_container rfl rfl hreads).reads

/-! ## Other values -/

/-- What is known of the text of an item: it is read if the value is storable, and not read
otherwise. -/
theorem reads_or_rejects {depth : ℕ} {v : PyValue} {text : PyStr}
    (htext : v.reprIn isPrintable lim depth = .ok text)
    (hrejects : ¬Storable isPrintable lim depth v → Json.Rejects (swapQuotes text)) :
    (Storable isPrintable lim depth v ∧ Json.Reads (swapQuotes text) (Json.tokens v)) ∨
      Json.Rejects (swapQuotes text) := by
  by_cases hstorable : Storable isPrintable lim depth v
  · obtain ⟨text', htext', hread⟩ := reads_of_storable hstorable
    obtain rfl := Except.ok.inj (htext.symm.trans htext')
    exact Or.inl ⟨hstorable, hread⟩
  · exact Or.inr (hrejects hstorable)

/-- The text of an item of a dict: either its key and its value are `Storable` and it is read, or it
is not read. -/
theorem reads_or_rejects_item {depth : ℕ} {key : PyStr} {x : PyValue} {itemText : PyStr}
    (hitem : PyValue.reprItemIn isPrintable lim depth (.str key, x) = .ok itemText)
    (hquotes : QuoteFree key)
    (hrejects : ∀ text, x.reprIn isPrintable lim depth = .ok text →
      ¬Storable isPrintable lim depth x → Json.Rejects (swapQuotes text)) :
    ((Storable isPrintable lim depth (.str key) ∧ Storable isPrintable lim depth x) ∧
        ∃ ts, Json.Reads (swapQuotes itemText) ts) ∨ Json.Rejects (swapQuotes itemText) := by
  obtain ⟨name, text, hname, htext, rfl⟩ := PyValue.reprItemIn_eq_ok_iff.mp hitem
  obtain ⟨inner, rfl, hkey⟩ := PyValue.oneLevel_eq_ok_iff.mp hname
  obtain rfl := Except.ok.inj hkey
  rw [swapQuotes_item]
  by_cases hclean : ∀ c ∈ key, Clean isPrintable c
  · have hread := readsWhole_key (readsWhole_str hclean)
    rcases reads_or_rejects htext (hrejects text htext) with ⟨hstorable, hvalue⟩ | hvalue
    · exact Or.inl ⟨⟨.str hclean, hstorable⟩, _, hread.append_reads hvalue⟩
    · exact Or.inr (hread.append_rejects hvalue)
  · exact Or.inr ((((rejects_str hquotes hclean).append _).append _).append _)

/-- For any other value without quotes in its strings, the text is refused by the reader of JSON. -/
theorem rejects_of_not_storable {v : PyValue} (hdata : IsMetadata v)
    (hquotes : Json.Strung QuoteFree v) {depth : ℕ} {text : PyStr}
    (htext : v.reprIn isPrintable lim depth = .ok text)
    (hnot : ¬Storable isPrintable lim depth v) : Json.Rejects (swapQuotes text) := by
  induction hdata generalizing depth text with
  | none =>
    obtain ⟨inner, -, h⟩ := PyValue.oneLevel_eq_ok_iff.mp htext
    obtain rfl := Except.ok.inj h
    exact fun before => rfl
  | bool b =>
    obtain ⟨inner, -, h⟩ := PyValue.oneLevel_eq_ok_iff.mp htext
    obtain rfl := Except.ok.inj h
    cases b with
    | false => exact fun before => rfl
    | true => exact fun before => rfl
  | int n =>
    obtain ⟨inner, rfl, h⟩ := PyValue.oneLevel_eq_ok_iff.mp htext
    exact absurd (.int (intText_eq_ok_iff.mp h).1) hnot
  | str s =>
    obtain ⟨inner, rfl, h⟩ := PyValue.oneLevel_eq_ok_iff.mp htext
    obtain rfl := Except.ok.inj h
    cases hquotes with
    | str hs => exact rejects_str hs fun hclean => hnot (.str hclean)
  | @list xs _ ih =>
    obtain ⟨inner, texts, rfl, htexts, rfl⟩ := PyValue.reprIn_list_eq_ok_iff.mp htext
    cases hquotes with
    | list hxs =>
      refine rejects_container rfl (by decide) htexts (fun x hx text htext => ?_)
        fun hall => hnot (.list hall)
      exact (reads_or_rejects htext (ih x hx (hxs x hx) htext)).imp_left
        fun h => ⟨h.1, _, h.2⟩
  | @dict items _ _ _ _ ihvalues =>
    obtain ⟨inner, texts, rfl, htexts, rfl⟩ := PyValue.reprIn_dict_eq_ok_iff.mp htext
    cases hquotes with
    | dict hkeys hvalues =>
      have hitems : ¬∀ item ∈ items, Storable isPrintable lim inner item.1.toValue ∧
          Storable isPrintable lim inner item.2 := by
        intro hall
        refine hnot (.dict (fun item hi => ?_) (fun item hi => (hall item hi).1)
          fun item hi => (hall item hi).2)
        exact (hkeys item hi).imp fun key h => h.1
      refine rejects_container rfl (by decide) htexts (fun item hi text htext => ?_) hitems
      obtain ⟨name, x⟩ := item
      obtain ⟨key, rfl, hfree⟩ := hkeys _ hi
      exact reads_or_rejects_item htext hfree fun text => ihvalues _ hi (hvalues _ hi)

/-! ## Quotes in strings -/

section Keeps

variable {q c quote : Char} {s text : PyStr}

/-- The quotes. -/
def IsQuote (q : Char) : Prop := q = Char.ofNat 39 ∨ q = Char.ofNat 34

theorem IsQuote.bounds (hq : IsQuote q) : 0 < q.toNat ∧ q.toNat < 0x80 := by
  rcases hq with rfl | rfl <;> decide

/-- A text without backslashes adds no quote to a string. -/
theorem keeps_of_plain (hq : IsQuote q) (htext : '\\' ∉ text) : Json.Keeps q (swapQuotes text) := by
  refine Json.keeps_of_forall hq.bounds.1 hq.bounds.2 fun d hd => ?_
  obtain ⟨c, hc, rfl⟩ := List.mem_map.mp hd
  split_ifs with happly
  · exact ⟨by decide, fun _ => rfl⟩
  · refine ⟨fun h => htext (h ▸ hc), fun heq => ?_⟩
    rcases hq with rfl | rfl
    · exact absurd heq happly
    · exact heq

/-- The text of another character adds the quote to no string that is read. -/
theorem keeps_of_written (hq : IsQuote q) (h : Written isPrintable c text) (hc : c ≠ q) :
    Json.Keeps q text := by
  cases h with
  | plain _ _ hescape =>
    exact Json.keeps_singleton hq.bounds.1 hq.bounds.2 hescape fun heq => absurd heq hc
  | escape _ hd hu => exact Json.keeps_escape hd hu hc
  | unicode _ hlower hupper =>
    have hbound := hq.bounds.2
    exact Json.keeps_unicodeEscape hupper (by omega)
  | other _ hd hu => exact Json.keeps_of_escaped?_eq_none hd hu _

/-- Which of the quotes are around a string matters only for the quotes in it. -/
theorem reprCharIn_congr (hquote : IsQuote quote) (hc : ¬IsQuote c) :
    PyStr.reprCharIn isPrintable quote c = PyStr.reprCharIn isPrintable (Char.ofNat 39) c := by
  have hne : c ≠ quote := fun h => hc (h ▸ hquote)
  have hne' : c ≠ Char.ofNat 39 := fun h => hc (Or.inl h)
  simp [PyStr.reprCharIn, PyStr.reprChar, hne, hne']

/-- A character adds a quote to a string only where it is written with a backslash. -/
theorem keeps_charText (hquote : IsQuote quote)
    (hq : q = Char.ofNat 39 ∨ (q = Char.ofNat 34 ∧ c ≠ quote)) :
    Json.Keeps q (charText isPrintable quote c) := by
  have hisQuote : IsQuote q := hq.imp_right And.left
  by_cases hc : IsQuote c
  · by_cases heq : c = quote
    · obtain rfl := hq.resolve_right fun h => h.2 heq
      have htext : charText isPrintable quote c = ['\\', Char.ofNat 34] := by
        subst heq
        rcases hc with rfl | rfl <;> rfl
      rw [htext]
      exact Json.keeps_escape rfl (by decide) (by decide)
    · have htext : charText isPrintable quote c = [Char.ofNat 34] := by
        rcases hc with rfl | rfl <;> rcases hquote with rfl | rfl
        · exact absurd rfl heq
        · rfl
        · rfl
        · exact absurd rfl heq
      rw [htext]
      exact Json.keeps_singleton hisQuote.bounds.1 hisQuote.bounds.2 (by decide) fun _ => rfl
  · rw [charText, reprCharIn_congr hquote hc]
    exact keeps_of_written hisQuote (written_charText (not_or.mp hc)) fun h => hc (h ▸ hisQuote)

/-- `repr` chooses one of the two quotes. -/
theorem isQuote_reprQuote (s : PyStr) : IsQuote s.reprQuote := by
  rw [PyStr.reprQuote]
  split_ifs
  · exact Or.inr rfl
  · exact Or.inl rfl

/-- The text of a string, with its quotes exchanged, adds `q` to no string: a single quote never,
and a double quote not if the string has no single one in it. -/
theorem keeps_str (hq : q = Char.ofNat 39 ∨ (q = Char.ofNat 34 ∧ Char.ofNat 39 ∉ s)) :
    Json.Keeps q (swapQuotes (s.reprIn isPrintable)) := by
  have hisQuote : IsQuote q := hq.imp_right And.left
  have hquote : Json.Keeps q (swapQuotes [s.reprQuote]) := by
    apply keeps_of_plain hisQuote
    rcases isQuote_reprQuote s with h | h <;> rw [h] <;> decide
  rw [PyStr.reprIn, swapQuotes_append, swapQuotes_append, swapQuotes_flatMap]
  refine (hquote.append (Json.keeps_flatMap fun c hc => ?_)).append hquote
  refine keeps_charText (isQuote_reprQuote s) (hq.imp_right fun h => ⟨h.1, ?_⟩)
  rw [reprQuote_of_not_mem h.2]
  exact fun heq => h.2 (heq ▸ hc)

theorem keeps_container {left right : Char} {texts : List PyStr} (hq : IsQuote q)
    (hleft : left ≠ '\\' ∧ left ≠ Char.ofNat 39) (hright : right ≠ '\\' ∧ right ≠ Char.ofNat 39)
    (h : ∀ text ∈ texts, Json.Keeps q (swapQuotes text)) :
    Json.Keeps q (swapQuotes ([left] ++ PyStr.join ", ".toList texts ++ [right])) := by
  have hplain (text : PyStr) (htext : '\\' ∉ text) : Json.Keeps q (swapQuotes text) :=
    keeps_of_plain hq htext
  have hbegin := hplain [left] (by simpa using hleft.1.symm)
  have hend := hplain [right] (by simpa using hright.1.symm)
  rw [swapQuotes_append, swapQuotes_append, swapQuotes_join]
  refine (hbegin.append (Json.keeps_join ?_ fun text hmem => ?_)).append hend
  · exact hplain ", ".toList (by decide)
  · obtain ⟨text, htext, rfl⟩ := List.mem_map.mp hmem
    exact h text htext

/-- No text of a value adds an apostrophe to a string; if there are none in the strings of the
value, it adds no quotation mark either. -/
theorem keeps_of_reprIn {v : PyValue} (hdata : IsMetadata v)
    (hq : q = Char.ofNat 39 ∨ (q = Char.ofNat 34 ∧ Json.Strung (fun s => Char.ofNat 39 ∉ s) v))
    {depth : ℕ} (htext : v.reprIn isPrintable lim depth = .ok text) :
    Json.Keeps q (swapQuotes text) := by
  have hisQuote : IsQuote q := hq.imp_right And.left
  have hplain (text : PyStr) (htext : '\\' ∉ text) : Json.Keeps q (swapQuotes text) :=
    keeps_of_plain hisQuote htext
  induction hdata generalizing depth text with
  | none =>
    obtain ⟨inner, -, h⟩ := PyValue.oneLevel_eq_ok_iff.mp htext
    obtain rfl := Except.ok.inj h
    exact hplain _ (by decide)
  | bool b =>
    obtain ⟨inner, -, h⟩ := PyValue.oneLevel_eq_ok_iff.mp htext
    obtain rfl := Except.ok.inj h
    cases b <;> exact hplain _ (by decide)
  | int n =>
    obtain ⟨inner, -, h⟩ := PyValue.oneLevel_eq_ok_iff.mp htext
    obtain ⟨-, rfl⟩ := intText_eq_ok_iff.mp h
    refine hplain _ fun hmem => ?_
    rcases Json.isDigit_or_of_mem_ofInt hmem with h | h <;> exact absurd h (by decide)
  | str s =>
    obtain ⟨inner, -, h⟩ := PyValue.oneLevel_eq_ok_iff.mp htext
    obtain rfl := Except.ok.inj h
    refine keeps_str (hq.imp_right fun h => ⟨h.1, ?_⟩)
    cases h.2 with
    | str hs => exact hs
  | @list xs _ ih =>
    obtain ⟨inner, texts, rfl, htexts, rfl⟩ := PyValue.reprIn_list_eq_ok_iff.mp htext
    refine keeps_container hisQuote (by decide) (by decide) fun text hmem => ?_
    obtain ⟨x, hx, htext⟩ := (Except.mem_of_mapM htexts).1 text hmem
    refine ih x hx (hq.imp_right fun h => ⟨h.1, ?_⟩) htext
    cases h.2 with
    | list hxs => exact hxs x hx
  | @dict items _ _ _ ihkeys ihvalues =>
    obtain ⟨inner, texts, rfl, htexts, rfl⟩ := PyValue.reprIn_dict_eq_ok_iff.mp htext
    refine keeps_container hisQuote (by decide) (by decide) fun text hmem => ?_
    obtain ⟨item, hi, htext⟩ := (Except.mem_of_mapM htexts).1 text hmem
    obtain ⟨name, value, hname, hvalue, rfl⟩ := PyValue.reprItemIn_eq_ok_iff.mp htext
    rw [swapQuotes_append, swapQuotes_append]
    refine (Json.Keeps.append ?_ (hplain ": ".toList (by decide))).append ?_
    · refine ihkeys _ hi (hq.imp_right fun h => ⟨h.1, ?_⟩) hname
      cases h.2 with
      | dict hkeys _ =>
        obtain ⟨s, hs, hfree⟩ := hkeys _ hi
        rw [hs]
        exact .str hfree
    · refine ihvalues _ hi (hq.imp_right fun h => ⟨h.1, ?_⟩) hvalue
      cases h.2 with
      | dict _ hvalues => exact hvalues _ hi

end Keeps

/-- Metadata that are stored as they are (`StoredAsIs`) have no quotes in their strings: no reading
of the text has any, since `Json.Keeps` is kept by all of it. -/
theorem strung_of_storedAsIs {float : PyStr → PyStr} {call : AddCall}
    (hdata : IsMetadata (.dict call.metaDict)) (h : StoredAsIs isPrintable lim float call) :
    Json.Strung QuoteFree (.dict call.metaDict) := by
  obtain ⟨text, htext, hdecode⟩ := h
  obtain ⟨tokens, hlex, hparse⟩ := Option.bind_eq_some_iff.mp hdecode
  obtain ⟨repr, hrepr, rfl⟩ := metadataTextIn_eq_ok_iff.mp htext
  have hapostrophe : ∀ s, .string s ∈ tokens → Char.ofNat 39 ∉ s :=
    Json.not_mem_of_lex (keeps_of_reprIn hdata (Or.inl rfl) hrepr) hlex
  -- so the strings are written with apostrophes around them
  have hstrung := Json.strung_of_parse hapostrophe hparse
  have hdouble : ∀ s, .string s ∈ tokens → Char.ofNat 34 ∉ s :=
    Json.not_mem_of_lex (keeps_of_reprIn hdata (Or.inr ⟨rfl, hstrung⟩) hrepr) hlex
  exact Json.strung_of_parse (fun s hs => ⟨hapostrophe s hs, hdouble s hs⟩) hparse

/-- Metadata that are `Storable` are values of JSON without floats. -/
theorem isFloatFree_of_storable {v : PyValue} {depth : ℕ} (hdata : IsMetadata v)
    (h : Storable isPrintable lim depth v) : Json.IsFloatFree v := by
  induction hdata generalizing depth with
  | none => exact .none
  | bool b => exact .bool b
  | int n => exact .int n
  | str s => exact .str s
  | list _ ih =>
    cases h with
    | list hxs => exact .list fun x hx => ih x hx (hxs x hx)
  | dict hnodup _ _ _ ihvalues =>
    cases h with
    | dict hstrings _ hvalues =>
      exact .dict hnodup hstrings fun item hi => ihvalues item hi (hvalues item hi)

/-- For all metadata built from strings, integers, booleans, `None`, lists and dicts (`IsMetadata`):
the text that is passed for the `jsonb` column, which is the `repr` with its quotes exchanged, is a
JSON text that decodes to the metadata (`StoredAsIs`) if and only if the metadata are `Storable`: no
`None`, no boolean, no quote in a string, and no character that `repr` writes with an escape that
JSON does not have. -/
theorem storedAsIs_iff {float : PyStr → PyStr} {call : AddCall}
    (hdata : IsMetadata (.dict call.metaDict)) :
    StoredAsIs isPrintable lim float call ↔
      Storable isPrintable lim lim.depth (.dict call.metaDict) := by
  constructor
  · intro h
    have hquotes := strung_of_storedAsIs hdata h
    obtain ⟨text, htext, hdecode⟩ := h
    obtain ⟨repr, hrepr, rfl⟩ := metadataTextIn_eq_ok_iff.mp htext
    obtain ⟨tokens, hlex, -⟩ := Option.bind_eq_some_iff.mp hdecode
    obtain ⟨l, hl, -⟩ := Option.bind_eq_some_iff.mp hlex
    by_contra hnot
    have hrejects : Json.Lexer.run {} (swapQuotes repr) = none :=
      rejects_of_not_storable hdata hquotes hrepr hnot []
    cases hl.symm.trans hrejects
  · intro h
    obtain ⟨text, htext, hread⟩ := reads_of_storable h
    obtain ⟨l, hl, hfinish⟩ := hread []
    refine ⟨swapQuotes text, metadataTextIn_eq_ok_iff.mpr ⟨text, htext, rfl⟩, ?_⟩
    have hlex : Json.lex (swapQuotes text) = some (Json.tokens (.dict call.metaDict)) :=
      Option.bind_eq_some_iff.mpr ⟨l, hl, hfinish⟩
    rw [Json.decode, hlex]
    exact Json.parse_tokens (isFloatFree_of_storable hdata h).isJson

/-- A call with a language and tags. -/
def tagged : AddCall where
  sessionId := "s".toList
  role := "user".toList
  content := "hello".toList
  metadata := some [("lang".toList, .str "en".toList),
    ("tags".toList, .list [.str "a\\b".toList, .int (-3)])]
  uuid := "u".toList
  now := 0

/-- `storedAsIs_iff` for a string and a list of a string and an integer: these metadata are stored
as they are, a backslash included. -/
theorem tagged_storedAsIs : StoredAsIs (fun _ => true) .thousand id tagged := by
  have hdigits : (-3 : ℤ).natAbs < 10 ^ Json.Limits.thousand.digits :=
    Nat.lt_of_lt_of_le (by decide : (-3 : ℤ).natAbs < 10 ^ 1)
      (Nat.pow_le_pow_right (by decide) (by decide))
  have hclean (s : PyStr) (hs : s.all fun c => Clean (fun _ => true) c) :
      ∀ c ∈ s, Clean (fun _ => true) c := by
    simpa using hs
  refine (storedAsIs_iff ?_).mpr ?_
  · refine .dict (by decide) ?_ ?_
    · simp only [tagged, metaDict, Option.getD_some, List.forall_mem_cons]
      exact ⟨.str _, .str _, List.forall_mem_nil _⟩
    · simp only [tagged, metaDict, Option.getD_some, List.forall_mem_cons]
      refine ⟨.str _, .list ?_, List.forall_mem_nil _⟩
      simp only [List.forall_mem_cons]
      exact ⟨.str _, .int _, List.forall_mem_nil _⟩
  · refine .dict ?_ ?_ ?_
    · simp only [tagged, metaDict, Option.getD_some, List.forall_mem_cons]
      exact ⟨⟨_, rfl⟩, ⟨_, rfl⟩, List.forall_mem_nil _⟩
    · simp only [tagged, metaDict, Option.getD_some, List.forall_mem_cons]
      exact ⟨.str (hclean _ (by decide)), .str (hclean _ (by decide)), List.forall_mem_nil _⟩
    · simp only [tagged, metaDict, Option.getD_some, List.forall_mem_cons]
      refine ⟨.str (hclean _ (by decide)), .list ?_, List.forall_mem_nil _⟩
      simp only [List.forall_mem_cons]
      exact ⟨.str (hclean _ (by decide)), .int (Or.inr hdigits), List.forall_mem_nil _⟩

/-- A call with a flag. -/
def flagged : AddCall where
  sessionId := "s".toList
  role := "user".toList
  content := "hello".toList
  metadata := some [("seen".toList, .bool true)]
  uuid := "u".toList
  now := 0

/-- Metadata with a boolean: the text has `True` in it, as Python writes it, and that is no JSON
text. -/
theorem flagged_not_storedAsIs :
    IsMetadata (.dict flagged.metaDict) ∧ ¬StoredAsIs (fun _ => true) .thousand id flagged := by
  constructor
  · refine .dict (by decide) ?_ ?_
    · simp only [flagged, metaDict, Option.getD_some, List.forall_mem_cons]
      exact ⟨.str _, List.forall_mem_nil _⟩
    · simp only [flagged, metaDict, Option.getD_some, List.forall_mem_cons]
      exact ⟨.bool true, List.forall_mem_nil _⟩
  · rintro ⟨text, htext, hdecode⟩
    have hnone : (flagged.metadataTextIn (fun _ => true) .thousand).toOption.bind
        (Json.decode id) = none := rfl
    rw [htext] at hnone
    cases hdecode.symm.trans hnone

end AddCall
