import Mathlib.Algebra.Order.Group.Unbundled.Abs
import Mathlib.Algebra.Order.Ring.Rat
import Mathlib.Data.List.DropRight
import Mathlib.Tactic.SplitIfs

/-!
# Python strings

A Python `str` is a sequence of code points, here a `List Char`; positions and lengths count code
points. The file defines the string methods the repository calls, each under its Python name:

* `PyStr.strip`, `PyStr.split` and `PyStr.join`: whitespace is the set `str.isspace` accepts;
* `PyStr.splitlines`: the lines of a text, which end at any of the line boundaries of Unicode;
* `PyStr.slice s i j`: `s[i:j]` for `0 ≤ i ≤ j`; `PyStr.startswith` and `PyStr.endswith`;
* `PyStr.orElse`: `s or default`; `PyStr.replace`: one character for another;
* `PyStr.rfind s c i j`: `s.rfind(c, i, j)` for a one-character needle, `-1` if there is none;
* `PyStr.repr`: the text `!r` puts in a message. Above U+007F `repr` escapes the code points that
  are not printable; this one keeps them;
* `PyStr.ofInt`, `PyStr.fixed1`: `str` of an integer, the format `.1f` of an exact number.
-/

/-- A Python string, as the list of its code points. -/
abbrev PyStr := List Char

instance : LawfulBEq PyStr := List.instLawfulBEq

namespace PyStr

/-- The code points `str.isspace` accepts, the separators of `str.split()`. -/
def isSpace (c : Char) : Bool :=
  let n := c.toNat
  (0x09 ≤ n && n ≤ 0x0D) || (0x1C ≤ n && n ≤ 0x20) || n == 0x85 || n == 0xA0 || n == 0x1680 ||
    (0x2000 ≤ n && n ≤ 0x200A) || n == 0x2028 || n == 0x2029 || n == 0x202F || n == 0x205F ||
    n == 0x3000

/-- `s.strip()`: `s` without its leading and trailing whitespace. -/
def strip (s : PyStr) : PyStr := (s.dropWhile isSpace).rdropWhile isSpace

/-- `s.split()`: the maximal runs of non-whitespace characters of `s`. -/
def split (s : PyStr) : List PyStr := (s.splitOnP isSpace).filter fun w => !w.isEmpty

/-- The characters at which `str.splitlines` ends a line. -/
def isLineBreak (c : Char) : Bool :=
  let n := c.toNat
  (0x0A ≤ n && n ≤ 0x0D) || (0x1C ≤ n && n ≤ 0x1E) || n == 0x85 || n == 0x2028 || n == 0x2029

/-- The lines of a text, the first of which has begun with `line`. -/
def splitlinesFrom (line : PyStr) : PyStr → List PyStr
  -- a text that ends with a line break has no further line
  | [] => if line.isEmpty then [] else [line]
  | '\r' :: '\n' :: s => line :: splitlinesFrom [] s
  | c :: s => if isLineBreak c then line :: splitlinesFrom [] s else splitlinesFrom (line ++ [c]) s

/-- `s.splitlines()`. -/
def splitlines (s : PyStr) : List PyStr := splitlinesFrom [] s

/-- `sep.join(parts)`. -/
def join (sep : PyStr) (parts : List PyStr) : PyStr := sep.intercalate parts

/-- `s[i:j]`. -/
def slice (s : PyStr) (i j : ℕ) : PyStr := (s.take j).drop i

/-- `s or default`. -/
def orElse (s default : PyStr) : PyStr := if s.isEmpty then default else s

/-- `s.replace(old, new)` for one-character strings. -/
def replace (s : PyStr) (old new : Char) : PyStr := s.map fun c => if c = old then new else c

/-- `s.startswith(start)`. -/
def startswith (s start : PyStr) : Bool := start.isPrefixOf s

/-- `s.endswith(suffix)`. -/
def endswith (s suffix : PyStr) : Bool := suffix.isSuffixOf s

/-- `s.rfind(c, i, j)`: the greatest position of `c` in `s[i:j]`, or `-1`. -/
def rfind (s : PyStr) (c : Char) (i : ℕ) : ℕ → ℤ
  | 0 => -1
  | j + 1 => if j < i then -1 else if s[j]? = some c then j else rfind s c i j

/-- A hexadecimal digit, in lower case. -/
def hexDigit (n : ℕ) : Char := Char.ofNat (if n < 10 then 48 + n else 87 + n)

/-- One character of a `repr` text delimited by `quote`. -/
def reprChar (quote c : Char) : PyStr :=
  if c = quote ∨ c = '\\' then ['\\', c]
  else if c = '\n' then ['\\', 'n']
  else if c = '\r' then ['\\', 'r']
  else if c = '\t' then ['\\', 't']
  else if c.toNat < 0x20 ∨ c.toNat = 0x7F then
    ['\\', 'x', hexDigit (c.toNat / 16), hexDigit (c.toNat % 16)]
  else [c]

/-- `repr(s)`: quoted with an apostrophe, or with a double quote when `s` has an apostrophe and no
double quote. -/
def repr (s : PyStr) : PyStr :=
  let apostrophe := Char.ofNat 39
  let doubleQuote := Char.ofNat 34
  -- the quote that needs no escape, if there is one
  let quote := if s.contains apostrophe && !s.contains doubleQuote then doubleQuote else apostrophe
  [quote] ++ s.flatMap (reprChar quote) ++ [quote]

/-- `str(n)` for an integer. -/
def ofInt (n : ℤ) : PyStr := (toString n).toList

/-- The integer nearest to `q`, the even one of two. -/
def roundHalfEven (q : ℚ) : ℤ :=
  let rest := q - q.floor
  if rest < 1 / 2 ∨ (rest = 1 / 2 ∧ q.floor % 2 = 0) then q.floor else q.floor + 1

/-- `format(q, ".1f")`. -/
def fixed1 (q : ℚ) : PyStr :=
  -- the sign is that of `q`, also where the digits round to zero
  let tenths := (roundHalfEven (10 * |q|)).toNat
  (if q < 0 then ['-'] else []) ++ ofInt (tenths / 10) ++ ['.'] ++ ofInt (tenths % 10)

/-! ## Stripping -/

/-- Only a string of whitespace strips to the empty string. -/
theorem strip_eq_nil_iff (s : PyStr) : s.strip = [] ↔ ∀ c ∈ s, isSpace c := by
  unfold strip
  rw [List.rdropWhile_eq_nil_iff]
  constructor
  · intro h c hc
    rw [← List.takeWhile_append_dropWhile (p := isSpace) (l := s), List.mem_append] at hc
    rcases hc with hc | hc
    -- stripped in front, or in what stripping at the end has left
    · exact List.mem_takeWhile_imp hc
    · exact h c hc
  · intro h c hc
    exact h c ((List.dropWhile_sublist _).subset hc)

/-- `str.strip` makes no text longer. -/
theorem length_strip_le (s : PyStr) : s.strip.length ≤ s.length :=
  (List.rdropWhile_prefix _ _).length_le.trans (List.dropWhile_suffix _).length_le

/-- A string whose first and last characters are no white space is not changed by `str.strip`. -/
theorem strip_eq_self {s : PyStr} (hhead : ∀ c, s.head? = some c → isSpace c = false)
    (hlast : ∀ c, s.getLast? = some c → isSpace c = false) : s.strip = s := by
  unfold strip
  have hfront : s.dropWhile isSpace = s := by
    cases s with
    | nil => rfl
    | cons c s => exact List.dropWhile_cons_of_neg (by simpa using hhead c rfl)
  rw [hfront, List.rdropWhile_eq_self_iff]
  intro hne
  simpa using hlast _ (List.getLast?_eq_some_getLast hne)

/-- Whitespace in front is stripped. -/
theorem strip_cons {c : Char} (hc : isSpace c) (s : PyStr) : strip (c :: s) = s.strip := by
  unfold strip
  rw [List.dropWhile_cons_of_pos hc]

theorem rdropWhile_append_of_forall {p : Char → Bool} {s t : PyStr} (ht : ∀ c ∈ t, p c) :
    (s ++ t).rdropWhile p = s.rdropWhile p := by
  rw [List.rdropWhile, List.reverse_append,
    List.dropWhile_append_of_pos fun c hc => ht c (List.mem_reverse.mp hc)]
  rfl

theorem append_rdropWhile {p : Char → Bool} {s : PyStr} (hs : s.rdropWhile p = s) (t : PyStr) :
    (s ++ t).rdropWhile p = s ++ t.rdropWhile p := by
  have hreverse : s.reverse.dropWhile p = s.reverse := by
    rw [List.rdropWhile, List.reverse_eq_iff] at hs
    exact hs
  rw [List.rdropWhile, List.reverse_append, List.dropWhile_append, hreverse]
  split_ifs with hempty
  · rw [List.rdropWhile, List.isEmpty_iff.mp hempty, List.reverse_reverse]
    simp
  · rw [List.reverse_append, List.reverse_reverse]
    rfl

/-- White space around a string is stripped, whatever the string is. -/
theorem strip_append_append {before s after : PyStr} (hbefore : ∀ c ∈ before, isSpace c)
    (hafter : ∀ c ∈ after, isSpace c) : strip (before ++ (s ++ after)) = s.strip := by
  unfold strip
  rw [List.dropWhile_append_of_pos hbefore, List.dropWhile_append]
  split_ifs with hempty
  · rw [List.isEmpty_iff.mp hempty, List.dropWhile_eq_nil_iff.mpr hafter]
  · exact rdropWhile_append_of_forall hafter

/-- A string is what is left of it by `str.strip`, with white space before and behind. -/
theorem exists_eq_append_strip (s : PyStr) : ∃ before after, s = before ++ (s.strip ++ after) ∧
    (∀ c ∈ before, isSpace c) ∧ ∀ c ∈ after, isSpace c := by
  refine ⟨s.takeWhile isSpace, (s.dropWhile isSpace).rtakeWhile isSpace, ?_,
    fun c hc => List.mem_takeWhile_imp hc, fun c hc => List.mem_rtakeWhile_imp hc⟩
  rw [strip, List.rdropWhile_append_rtakeWhile, List.takeWhile_append_dropWhile]

/-- Stripping again changes nothing. -/
theorem strip_rdropWhile (s : PyStr) : strip (s.rdropWhile isSpace) = s.strip := by
  have hafter : ∀ c ∈ s.rtakeWhile isSpace, isSpace c := fun c hc => List.mem_rtakeWhile_imp hc
  calc strip (s.rdropWhile isSpace)
      = strip ([] ++ (s.rdropWhile isSpace ++ s.rtakeWhile isSpace)) :=
        (strip_append_append (List.forall_mem_nil _) hafter).symm
    _ = s.strip := by rw [List.nil_append, List.rdropWhile_append_rtakeWhile]

/-! ## Lines -/

/-- A character that is not the first half of `\r\n`: it ends the line that has begun, or goes on
with it. -/
theorem splitlinesFrom_cons {line s : PyStr} {c : Char} (h : ¬(c = '\r' ∧ s.head? = some '\n')) :
    splitlinesFrom line (c :: s) =
      if isLineBreak c then line :: splitlinesFrom [] s else splitlinesFrom (line ++ [c]) s := by
  rw [splitlinesFrom]
  rintro s' rfl rfl
  exact h ⟨rfl, rfl⟩

/-- A text without line breaks goes on with the line that has begun. -/
theorem splitlinesFrom_of_forall_not_isLineBreak {line s : PyStr} (hne : line ++ s ≠ [])
    (h : ∀ c ∈ s, isLineBreak c = false) : splitlinesFrom line s = [line ++ s] := by
  -- by induction on what is left; the line grows by one character
  induction s generalizing line with
  | nil =>
    rw [List.append_nil] at hne ⊢
    rw [splitlinesFrom, List.isEmpty_eq_false_iff.mpr hne]
    rfl
  | cons c s ih =>
    have hc : isLineBreak c = false := h c List.mem_cons_self
    have hrest : splitlinesFrom (line ++ [c]) s = [line ++ c :: s] := by
      rw [ih (by simp) fun d hd => h d (List.mem_cons_of_mem _ hd), List.append_assoc]
      rfl
    -- a carriage return is a line break
    have hne : ¬(c = '\r' ∧ s.head? = some '\n') := by
      rintro ⟨rfl, -⟩
      exact absurd hc (by decide)
    rw [splitlinesFrom_cons hne, hc, if_neg Bool.false_ne_true, hrest]

/-- A text without line breaks is one line. -/
theorem splitlines_of_forall_not_isLineBreak {s : PyStr} (hne : s ≠ [])
    (h : ∀ c ∈ s, isLineBreak c = false) : s.splitlines = [s] :=
  splitlinesFrom_of_forall_not_isLineBreak hne h

/-- The line that has begun ends at the first line break, and the rest of the text is split by
itself. -/
theorem splitlinesFrom_append_cons {line a b : PyStr} {c : Char}
    (ha : ∀ d ∈ a, isLineBreak d = false) (hc : isLineBreak c) (hne : c ≠ '\r') :
    splitlinesFrom line (a ++ c :: b) = (line ++ a) :: splitlinesFrom [] b := by
  induction a generalizing line with
  | nil => rw [List.nil_append, splitlinesFrom_cons fun h => hne h.1, if_pos hc, List.append_nil]
  | cons d a ih =>
    obtain ⟨hd, ha⟩ := List.forall_mem_cons.mp ha
    have hd' : ¬(d = '\r' ∧ (a ++ c :: b).head? = some '\n') := by
      rintro ⟨rfl, -⟩
      exact absurd hd (by decide)
    rw [List.cons_append, splitlinesFrom_cons hd', hd, if_neg Bool.false_ne_true, ih ha,
      List.append_assoc]
    rfl

/-- A text without line breaks in front of another one goes on with the line that has begun. -/
theorem splitlinesFrom_append {line p s : PyStr} (hp : ∀ c ∈ p, isLineBreak c = false) :
    splitlinesFrom line (p ++ s) = splitlinesFrom (line ++ p) s := by
  induction p generalizing line with
  | nil => rw [List.nil_append, List.append_nil]
  | cons c p ih =>
    obtain ⟨hc, hp⟩ := List.forall_mem_cons.mp hp
    have hne : ¬(c = '\r' ∧ (p ++ s).head? = some '\n') := by
      rintro ⟨rfl, -⟩
      exact absurd hc (by decide)
    rw [List.cons_append, splitlinesFrom_cons hne, hc, if_neg Bool.false_ne_true, ih hp,
      List.append_assoc]
    rfl

/-- A line that has begun with some text has this text in front of what it would be without, and the
later lines are the same. -/
theorem exists_splitlinesFrom_append {p : PyStr} (hp : p ≠ []) (line s : PyStr) :
    ∃ first, splitlinesFrom (p ++ line) s = (p ++ first) :: (splitlinesFrom line s).tail := by
  induction line, s using splitlinesFrom.induct with
  | case1 line hempty =>
    refine ⟨line, ?_⟩
    rw [splitlinesFrom, splitlinesFrom, if_neg (by simp [hp]), if_pos hempty]
    rfl
  | case2 line hne =>
    refine ⟨line, ?_⟩
    rw [splitlinesFrom, splitlinesFrom, if_neg (by simp [hp]), if_neg hne]
    rfl
  | case3 line s ih => exact ⟨line, by rw [splitlinesFrom, splitlinesFrom]; rfl⟩
  | case4 line c s hcrlf hbreak ih =>
    have hne : ¬(c = '\r' ∧ s.head? = some '\n') := by
      rintro ⟨rfl, hhead⟩
      obtain ⟨s', rfl⟩ := List.head?_eq_some_iff.mp hhead
      exact hcrlf s' rfl rfl
    refine ⟨line, ?_⟩
    rw [splitlinesFrom_cons hne, splitlinesFrom_cons hne, if_pos hbreak, if_pos hbreak]
    rfl
  | case5 line c s hcrlf hbreak ih =>
    have hne : ¬(c = '\r' ∧ s.head? = some '\n') := by
      rintro ⟨rfl, hhead⟩
      obtain ⟨s', rfl⟩ := List.head?_eq_some_iff.mp hhead
      exact hcrlf s' rfl rfl
    obtain ⟨first, hfirst⟩ := ih
    refine ⟨first, ?_⟩
    rw [splitlinesFrom_cons hne, splitlinesFrom_cons hne, if_neg hbreak, if_neg hbreak,
      List.append_assoc, hfirst]

/-- A text in front of another one, without line breaks, becomes a part of its first line. -/
theorem exists_splitlines_append {p : PyStr} (hne : p ≠ [])
    (hp : ∀ c ∈ p, isLineBreak c = false) (s : PyStr) :
    ∃ first, (p ++ s).splitlines = (p ++ first) :: s.splitlines.tail := by
  have h := exists_splitlinesFrom_append hne [] s
  rw [List.append_nil] at h
  rw [splitlines, splitlinesFrom_append hp, List.nil_append]
  exact h

/-- The lines of two texts with a line feed between them are those of the one and then those of the
other, if a function leaves out empty lines. -/
theorem filterMap_splitlinesFrom_append {β : Type} {f : PyStr → Option β} (hf : f [] = none)
    (line a b : PyStr) :
    (splitlinesFrom line (a ++ '\n' :: b)).filterMap f =
      (splitlinesFrom line a).filterMap f ++ b.splitlines.filterMap f := by
  have hend (line : PyStr) : splitlinesFrom line ('\n' :: b) = line :: b.splitlines :=
    (splitlinesFrom_cons fun h => absurd h.1 (by decide)).trans (if_pos (by decide))
  have hcons (line : PyStr) (lines : List PyStr) :
      (line :: lines).filterMap f = (f line).toList ++ lines.filterMap f := by
    rw [List.filterMap_cons]
    cases f line <;> rfl
  induction line, a using splitlinesFrom.induct with
  | case1 line hempty =>
    rw [List.nil_append, hend, hcons, List.isEmpty_iff.mp hempty, hf]
    rfl
  | case2 line hne =>
    rw [List.nil_append, hend, hcons, splitlinesFrom, if_neg hne, hcons, List.append_assoc]
    rfl
  | case3 line s ih =>
    rw [List.cons_append, List.cons_append, splitlinesFrom, splitlinesFrom, hcons, hcons, ih,
      List.append_assoc]
  | case4 line c s hcrlf hc ih =>
    have hcr : ¬(c = '\r' ∧ s.head? = some '\n') := by
      rintro ⟨rfl, hs⟩
      obtain ⟨s', rfl⟩ := List.head?_eq_some_iff.mp hs
      exact hcrlf s' rfl rfl
    by_cases hlast : c = '\r' ∧ s = []
    -- the carriage return at the end and the line feed are one line break
    · obtain ⟨rfl, rfl⟩ := hlast
      have hboth : splitlinesFrom line ('\r' :: '\n' :: b) = line :: b.splitlines := by
        rw [splitlinesFrom]
        rfl
      rw [splitlinesFrom_cons hcr, if_pos hc, List.singleton_append, hboth, hcons, hcons,
        List.append_assoc]
      rfl
    · have hcr' : ¬(c = '\r' ∧ (s ++ '\n' :: b).head? = some '\n') := by
        rintro ⟨rfl, hs⟩
        cases s with
        | nil => exact hlast ⟨rfl, rfl⟩
        | cons d s => exact hcr ⟨rfl, hs⟩
      rw [List.cons_append, splitlinesFrom_cons hcr, splitlinesFrom_cons hcr', if_pos hc, if_pos hc,
        hcons, hcons, ih, List.append_assoc]
  | case5 line c s _ hc ih =>
    have hcr (s : PyStr) : ¬(c = '\r' ∧ s.head? = some '\n') := by
      rintro ⟨rfl, -⟩
      exact hc (by decide)
    rw [List.cons_append, splitlinesFrom_cons (hcr s), splitlinesFrom_cons (hcr _), if_neg hc,
      if_neg hc, ih]

/-! ## Splitting -/

/-- The words of a string (`str.split`), put together, are its non-whitespace characters in their
order. -/
theorem flatten_split (s : PyStr) : s.split.flatten = s.filter fun c => !isSpace c := by
  have hpieces : (s.splitOnP isSpace).flatten = s.filter fun c => !isSpace c := by
    induction s with
    | nil => rfl
    | cons c s ih =>
      rw [List.splitOnP_cons_eq_if_modifyHead, List.filter_cons]
      cases hc : isSpace c with
      | true => simpa using ih
      | false =>
        obtain ⟨w, ws, hws⟩ := List.exists_cons_of_ne_nil (List.splitOnP_ne_nil isSpace s)
        rw [hws] at ih ⊢
        simpa using ih
  -- the empty pieces that `split` drops add nothing
  rw [split, ← hpieces]
  induction s.splitOnP isSpace with
  | nil => rfl
  | cons w ws ih => cases w <;> simp [ih]

/-- A word is not empty. -/
theorem ne_nil_of_mem_split {s w : PyStr} (hw : w ∈ s.split) : w ≠ [] := by
  rintro rfl
  simpa using (List.mem_filter.mp hw).2

/-- A word has no whitespace in it. -/
theorem not_isSpace_of_mem_split {s w : PyStr} {c : Char} (hw : w ∈ s.split) (hc : c ∈ w) :
    isSpace c = false := by
  have hmem : c ∈ s.split.flatten := List.mem_flatten_of_mem hw hc
  rw [flatten_split] at hmem
  simpa using (List.mem_filter.mp hmem).2

/-- A string that is not blank has a word. -/
theorem split_ne_nil {s : PyStr} (h : s.strip ≠ []) : s.split ≠ [] := by
  intro hsplit
  refine h ((strip_eq_nil_iff s).mpr fun c hc => ?_)
  have hfilter : (s.filter fun c => !isSpace c) = [] := by rw [← flatten_split, hsplit]; rfl
  simpa using List.filter_eq_nil_iff.mp hfilter c hc

/-- A joined string starts with its first part. -/
theorem join_cons (sep w : PyStr) (ws : List PyStr) : ∃ rest, join sep (w :: ws) = w ++ rest := by
  cases ws with
  | nil => exact ⟨[], by simp [join, List.intercalate]⟩
  | cons w' ws => exact ⟨sep ++ join sep (w' :: ws), by simp [join, List.intercalate]⟩

/-- With whitespace collapsed, a string that is not blank starts with a character that is no
whitespace. -/
theorem join_split_head {s : PyStr} (h : s.strip ≠ []) :
    ∃ c, (join [' '] s.split)[0]? = some c ∧ isSpace c = false := by
  -- the first character of the first word
  obtain ⟨w, ws, hws⟩ := List.exists_cons_of_ne_nil (split_ne_nil h)
  have hw : w ∈ s.split := hws ▸ List.mem_cons_self
  obtain ⟨c, w, rfl⟩ := List.exists_cons_of_ne_nil (ne_nil_of_mem_split hw)
  obtain ⟨rest, hrest⟩ := join_cons [' '] (c :: w) ws
  exact ⟨c, by rw [hws, hrest]; rfl, not_isSpace_of_mem_split hw List.mem_cons_self⟩

/-! ## Slices -/

/-- Position `k` of a slice is position `i + k` of the string. -/
theorem getElem?_slice (s : PyStr) (i j k : ℕ) :
    (s.slice i j)[k]? = if i + k < j then s[i + k]? else none := by
  unfold slice
  rw [List.getElem?_drop, List.getElem?_take]

/-- The characters of a slice are those of the string at the positions from `i` on and before
`j`. -/
theorem mem_slice_iff {s : PyStr} {i j : ℕ} {c : Char} :
    c ∈ s.slice i j ↔ ∃ p, i ≤ p ∧ p < j ∧ s[p]? = some c := by
  rw [List.mem_iff_getElem?]
  constructor
  · rintro ⟨k, hk⟩
    rw [getElem?_slice] at hk
    split_ifs at hk with hlt
    exact ⟨i + k, Nat.le_add_right i k, hlt, hk⟩
  · rintro ⟨p, hip, hpj, hp⟩
    refine ⟨p - i, ?_⟩
    rw [getElem?_slice, Nat.add_sub_cancel' hip, if_pos hpj, hp]

/-! ## Searching backwards -/

/-- What `str.rfind` returns: `-1` if the character is not in the range, and otherwise the position
of its last occurrence there. -/
theorem rfind_cases (s : PyStr) (c : Char) (i j : ℕ) :
    (s.rfind c i j = -1 ∧ ∀ p, i ≤ p → p < j → s[p]? ≠ some c) ∨
      ∃ b : ℕ, s.rfind c i j = b ∧ i ≤ b ∧ b < j ∧ s[b]? = some c ∧
        ∀ p, b < p → p < j → s[p]? ≠ some c := by
  -- by induction on the end of the range, where the search begins
  induction j with
  | zero => exact Or.inl ⟨rfl, fun p _ hp => absurd hp (Nat.not_lt_zero p)⟩
  | succ j ih =>
    rw [rfind]
    by_cases hji : j < i
    · rw [if_pos hji]
      exact Or.inl ⟨rfl, fun p hip hpj => absurd hip (by omega)⟩
    · rw [if_neg hji]
      by_cases hc : s[j]? = some c
      · rw [if_pos hc]
        exact Or.inr ⟨j, rfl, by omega, by omega, hc, fun p hbp hpj => absurd hbp (by omega)⟩
      · rw [if_neg hc]
        -- position `j` is not an occurrence, so the shorter search decides
        have extend (p : ℕ) (hpj : p < j + 1) (h : p < j → s[p]? ≠ some c) : s[p]? ≠ some c := by
          rcases Nat.lt_succ_iff_lt_or_eq.mp hpj with hlt | rfl
          · exact h hlt
          · exact hc
        rcases ih with ⟨hval, hnone⟩ | ⟨b, hval, hib, hbj, hb, hlast⟩
        · exact Or.inl ⟨hval, fun p hip hpj => extend p hpj (hnone p hip)⟩
        · exact Or.inr ⟨b, hval, hib, by omega, hb, fun p hbp hpj => extend p hpj (hlast p hbp)⟩

end PyStr
