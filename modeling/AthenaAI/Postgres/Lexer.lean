import Mathlib.Data.List.Basic
import Mathlib.Data.Nat.Notation

/-!
# Comments, quotations and parentheses in SQL

How the lexer of PostgreSQL 16 tells code from comments and quotations, one character at a time,
with `standard_conforming_strings` on. Tokens are followed only as far as they decide that.

* `Word` is the identifier or the number that is being read, behind which a quote or a dollar sign
  may begin another token than elsewhere.
* `LexState.step` reads a character. Line comments and nested block comments, string constants with
  doubled quotes, escape string constants (`E'…'`) and their continuation on a later line, quoted
  identifiers and dollar-quoted strings are told apart.
* `Reading` is the lexer together with the positions of the parentheses that are open.
* `SelfContained text`: read by itself, the text ends in code and its parentheses match.
* `head_opened_iff`: a parenthesis opened before a text is the innermost one after it, exactly if
  the parentheses of the text match.
-/

namespace Postgres

/-- A letter, an underscore or a character above ASCII. -/
def isIdentStart (c : Char) : Bool := c.isAlpha || c = '_' || 128 ≤ c.toNat

/-- What may follow in an identifier. A dollar sign may, too. -/
def isIdentCont (c : Char) : Bool := isIdentStart c || c.isDigit

/-- The end of a line. -/
def isNewline (c : Char) : Bool := c = '\n' || c = '\r'

/-- Whitespace. -/
def isBlank (c : Char) : Bool :=
  c = ' ' || c = '\t' || isNewline c || c = Char.ofNat 12 || c = Char.ofNat 11

/-- The identifier or the number that is being read. -/
inductive Word where
  /-- None. -/
  | none
  /-- A number. Letters behind its digits belong to it, as in `1e5` and `0x1F`. -/
  | number
  /-- The letter `e` or `E`: a quote after it begins an escape string. -/
  | letterE
  /-- Any other identifier. -/
  | other
  deriving DecidableEq

/-- The last character read in a block comment, if it may be half of a delimiter. -/
inductive Half where
  | none
  | slash
  | star
  deriving DecidableEq

/-- Where the lexer is. -/
inductive LexState where
  | code (word : Word)
  /-- In code, after a minus sign. -/
  | dash
  /-- In code, after a slash. -/
  | slash
  /-- In code, after a dollar sign and the characters `tag`. -/
  | dollar (tag : List Char)
  /-- After a quote in an escape string: at its end, unless another quote follows. -/
  | escapeQuote
  /-- After an escape string and whitespace: it goes on at a quote if there was a line end. -/
  | escapeGap (newline : Bool)
  /-- After an escape string, whitespace and a minus sign. -/
  | escapeDash
  /-- In a line comment after an escape string. -/
  | gapComment
  | lineComment
  /-- In a block comment, with `depth` others around it. -/
  | blockComment (depth : ℕ) (half : Half)
  | string
  | escapeString
  /-- In an escape string, after a backslash. -/
  | escapeBackslash
  | quotedIdent
  /-- In a dollar-quoted string; `candidate` is what has been read of a delimiter. -/
  | dollarBody (tag : List Char) (candidate : Option (List Char))
  deriving DecidableEq

/-- The identifier or the number goes on with `c`, or one begins. -/
def Word.next (word : Word) (c : Char) : Word :=
  match word with
  | .none =>
    if isIdentStart c then (if c = 'e' || c = 'E' then .letterE else .other)
    else if c.isDigit then .number
    else .none
  | .number => if isIdentCont c || c = '.' then .number else .none
  | _ => if isIdentCont c then .other else .none

/-- A dollar sign behind it belongs to the identifier. -/
def Word.isIdent : Word → Bool
  | .none | .number => false
  | .letterE | .other => true

/-- The identifier that a text is. -/
def Word.of : List Char → Word
  | [] => .none
  | [c] => if c = 'e' || c = 'E' then .letterE else .other
  | _ => .other

namespace LexState

/-- Reads a character in code, where no token of several characters is pending. -/
def codeStep (word : Word) (c : Char) : LexState :=
  if c = '\'' then (if word = .letterE then escapeString else string)
  else if c = '"' then quotedIdent
  else if c = '-' then dash
  else if c = '/' then slash
  else if c = '$' then (if word.isIdent then code .other else dollar [])
  else code (word.next c)

/-- Reads a character after an escape string and whitespace. -/
def gapStep (newline : Bool) (c : Char) : LexState :=
  if isBlank c then escapeGap (newline || isNewline c)
  else if c = '-' then escapeDash
  else if c = '\'' && newline then escapeString
  else codeStep .none c

/-- Reads a character in a block comment. -/
def commentStep (depth : ℕ) (half : Half) (c : Char) : LexState :=
  if c = '*' then
    if half = .slash then blockComment (depth + 1) .none else blockComment depth .star
  else if c = '/' then
    if half = .star then
      match depth with
      | 0 => code .none
      | depth + 1 => blockComment depth .none
    else blockComment depth .slash
  else blockComment depth .none

/-- Reads a character in a dollar-quoted string. -/
def dollarStep (tag : List Char) (candidate : Option (List Char)) (c : Char) : LexState :=
  if c = '$' then
    -- the dollar sign ends a delimiter, or begins another
    if candidate = some tag then code .none else dollarBody tag (some [])
  else
    match candidate with
    | none => dollarBody tag none
    | some [] => dollarBody tag (if isIdentStart c then some [c] else none)
    | some read => dollarBody tag (if isIdentCont c then some (read ++ [c]) else none)

/-- Reads a character. -/
def step : LexState → Char → LexState
  | code word, c => codeStep word c
  | dash, c => if c = '-' then lineComment else codeStep .none c
  | slash, c => if c = '*' then blockComment 0 .none else codeStep .none c
  | dollar tag, c =>
    if c = '$' then dollarBody tag none
    else if (if tag = [] then isIdentStart c else isIdentCont c) then dollar (tag ++ [c])
    -- no delimiter: what was read is code
    else codeStep (Word.of tag) c
  | escapeQuote, c => if c = '\'' then escapeString else gapStep false c
  | escapeGap newline, c => gapStep newline c
  | escapeDash, c => if c = '-' then gapComment else codeStep .none c
  | gapComment, c => if isNewline c then escapeGap true else gapComment
  | lineComment, c => if isNewline c then code .none else lineComment
  | blockComment depth half, c => commentStep depth half c
  | string, c => if c = '\'' then code .none else string
  | escapeString, c =>
    if c = '\'' then escapeQuote else if c = '\\' then escapeBackslash else escapeString
  | escapeBackslash, _ => escapeString
  | quotedIdent, c => if c = '"' then code .none else quotedIdent
  | dollarBody tag candidate, c => dollarStep tag candidate c

/-- What was read last is outside comments and quotations. -/
def isCode : LexState → Bool
  | code _ | dash | slash | dollar _ | escapeQuote | escapeGap _ | escapeDash => true
  | _ => false

/-- A closing parenthesis in code is code, whatever word stands before it. -/
theorem step_closing {s : LexState} (h : s.isCode) : s.step ')' = code .none := by
  have hcode (word : Word) : codeStep word ')' = code .none := by
    cases word <;> rfl
  have hgap (newline : Bool) : gapStep newline ')' = code .none := by
    cases newline <;> rfl
  cases s with
  | code word => exact hcode word
  | dash => rfl
  | slash => rfl
  | dollar tag =>
    cases tag with
    | nil => rfl
    | cons c tag => exact hcode _
  | escapeQuote => exact hgap false
  | escapeGap newline => exact hgap newline
  | escapeDash => rfl
  | _ => exact absurd h Bool.false_ne_true

/-- A character that begins no token of several characters but an identifier. -/
def Plain (c : Char) : Prop := c ≠ '\'' ∧ c ≠ '"' ∧ c ≠ '-' ∧ c ≠ '/' ∧ c ≠ '$'

/-- A character that opens neither a comment nor a quote continues or ends the word before it. -/
theorem codeStep_of_plain {c : Char} (h : Plain c) (word : Word) :
    codeStep word c = code (word.next c) := by
  obtain ⟨hquote, hident, hdash, hslash, hdollar⟩ := h
  rw [codeStep, if_neg hquote, if_neg hident, if_neg hdash, if_neg hslash, if_neg hdollar]

/-- Plain characters in code are code: they begin neither a comment nor a quotation. -/
theorem foldl_step_of_plain {text : List Char} (h : ∀ c ∈ text, Plain c) (word : Word) :
    ∃ word', text.foldl step (code word) = code word' := by
  induction text generalizing word with
  | nil => exact ⟨word, rfl⟩
  | cons c text ih =>
    rw [List.forall_mem_cons] at h
    rw [List.foldl_cons, step, codeStep_of_plain h.1]
    exact ih h.2 _

end LexState

/-! ## Parentheses -/

/-- The lexer, and the positions of the parentheses in code that are open, the innermost first. -/
structure Reading where
  /-- Where the lexer is. -/
  state : LexState := .code .none
  /-- The number of characters read. -/
  position : ℕ := 0
  /-- The open parentheses. -/
  opened : List ℕ := []
  deriving DecidableEq

/-- What a character in code does to the open parentheses. -/
def openedStep (position : ℕ) (opened : List ℕ) (c : Char) : List ℕ :=
  if c = '(' then position :: opened else if c = ')' then opened.tail else opened

namespace Reading

/-- Reads a character. -/
def step (r : Reading) (c : Char) : Reading where
  state := r.state.step c
  position := r.position + 1
  opened := if r.state.isCode then openedStep r.position r.opened c else r.opened

/-- Reads a text. -/
def read (r : Reading) (text : List Char) : Reading := text.foldl step r

variable (r : Reading)

theorem read_append (text text' : List Char) : r.read (text ++ text') = (r.read text).read text' :=
  List.foldl_append ..

/-- The lexer does not look at the parentheses: the state of a `Reading` is that of `LexState.step`,
character by character. -/
theorem state_read (text : List Char) : (r.read text).state = text.foldl LexState.step r.state := by
  induction text generalizing r with
  | nil => rfl
  | cons c text ih => exact ih (r.step c)

end Reading

/-- What a character in code does to the number of parentheses of the text that are open: `none`
once more were closed than opened. -/
def depthStep (depth : Option ℕ) (c : Char) : Option ℕ :=
  if c = '(' then depth.map (· + 1)
  else if c = ')' then
    match depth with
    | some (depth + 1) => some depth
    | _ => none
  else depth

/-- The lexer and the number of open parentheses after a text. -/
def depthAfter (s : LexState) (depth : Option ℕ) : List Char → LexState × Option ℕ
  | [] => (s, depth)
  | c :: text => depthAfter (s.step c) (if s.isCode then depthStep depth c else depth) text

/-- Read by itself, the text ends in code, and its parentheses match. -/
def SelfContained (text : List Char) : Prop :=
  (depthAfter (.code .none) (some 0) text).1.isCode ∧
    (depthAfter (.code .none) (some 0) text).2 = some 0

instance (text : List Char) : Decidable (SelfContained text) := by
  unfold SelfContained
  infer_instance

/-- The counting of parentheses does not change how the text is read. -/
theorem fst_depthAfter (s : LexState) (depth : Option ℕ) (text : List Char) :
    (depthAfter s depth text).1 = text.foldl LexState.step s := by
  induction text generalizing s depth with
  | nil => rfl
  | cons c text ih => exact ih _ _

/-- The open parentheses after a text, where the one at `p` was the only one before it: `depth` more
are open, or that one was closed. -/
def OpenedAbove (p : ℕ) (opened : List ℕ) : Option ℕ → Prop
  | some depth => ∃ later, opened = later ++ [p] ∧ later.length = depth ∧ ∀ q ∈ later, p < q
  | none => ∀ q ∈ opened, p < q

/-- A character keeps `OpenedAbove`: the depth counts the parentheses that are open above the one at
`p`, until that one is closed. -/
theorem OpenedAbove.step {p position : ℕ} {opened : List ℕ} {depth : Option ℕ}
    (h : OpenedAbove p opened depth) (hp : p < position) (c : Char) :
    OpenedAbove p (openedStep position opened c) (depthStep depth c) := by
  unfold openedStep depthStep
  by_cases hopen : c = '('
  · rw [if_pos hopen, if_pos hopen]
    cases depth with
    | none => exact List.forall_mem_cons.mpr ⟨hp, h⟩
    | some depth =>
      obtain ⟨later, rfl, rfl, hlater⟩ := h
      exact ⟨position :: later, rfl, rfl, List.forall_mem_cons.mpr ⟨hp, hlater⟩⟩
  rw [if_neg hopen, if_neg hopen]
  by_cases hclose : c = ')'
  · rw [if_pos hclose, if_pos hclose]
    rcases depth with _ | _ | depth
    · exact fun q hq => h q (List.mem_of_mem_tail hq)
    -- the one at `p` is closed
    · obtain ⟨later, rfl, hlength, -⟩ := h
      rw [List.length_eq_zero_iff.mp hlength]
      exact fun q hq => absurd hq List.not_mem_nil
    · obtain ⟨later, rfl, hlength, hlater⟩ := h
      obtain ⟨q, later, rfl⟩ := List.exists_cons_of_length_eq_add_one hlength
      exact ⟨later, rfl, Nat.succ.inj hlength, fun q hq => hlater q (List.mem_cons_of_mem _ hq)⟩
  · rw [if_neg hclose, if_neg hclose]
    exact h

/-- A whole text keeps `OpenedAbove`. By induction on the text. -/
theorem OpenedAbove.read {p : ℕ} {r : Reading} {depth : Option ℕ}
    (h : OpenedAbove p r.opened depth) (hp : p < r.position) (text : List Char) :
    OpenedAbove p (r.read text).opened (depthAfter r.state depth text).2 := by
  induction text generalizing r depth with
  | nil => exact h
  | cons c text ih =>
    refine ih (r := r.step c) ?_ (Nat.lt_succ_of_lt hp)
    unfold Reading.step
    split
    · exact h.step hp c
    · exact h

/-- The parenthesis at `p` is the innermost open one exactly if all that were opened since have been
closed. -/
theorem OpenedAbove.head?_eq_iff {p : ℕ} {opened : List ℕ} {depth : Option ℕ}
    (h : OpenedAbove p opened depth) : opened.head? = some p ↔ depth = some 0 := by
  cases depth with
  | none =>
    refine iff_of_false (fun hhead => ?_) nofun
    exact Nat.lt_irrefl p (h p (List.mem_of_head? hhead))
  | some depth =>
    obtain ⟨later, rfl, rfl, hlater⟩ := h
    cases later with
    | nil => exact iff_of_true rfl rfl
    | cons q later =>
      refine iff_of_false (fun hhead => ?_) (by simp)
      exact Nat.ne_of_gt (hlater q List.mem_cons_self) (Option.some.inj hhead)

/-- A parenthesis that is open before a text is the innermost open one after it, and the text ends
in code, exactly if the text is self-contained. -/
theorem head_opened_iff {p : ℕ} {r : Reading} (hstate : r.state = .code .none)
    (hopened : r.opened = [p]) (hp : p < r.position) (text : List Char) :
    ((r.read text).state.isCode ∧ (r.read text).opened.head? = some p) ↔ SelfContained text := by
  have hbefore : OpenedAbove p r.opened (some 0) := ⟨[], hopened, rfl, nofun⟩
  rw [(hbefore.read hp text).head?_eq_iff, r.state_read, SelfContained, fst_depthAfter, hstate]

end Postgres
