import AthenaAI.Python.Json
import AthenaAI.ToMathlib.Except

/-!
# The text of a value

`repr(v)` with what `PyValue.repr` leaves out: the code points that are not printable, and the
limits of the interpreter. A value takes one level of the recursion limit, and so does a key.

* `PyStr.reprIn` is `repr` of a string, `PyValue.reprIn` of a value. Which code points above U+007F
  are printable is a parameter.
* `PyValue.oneLevel` is what takes a level: it raises the `RecursionError` when none is left.
  `PyValue.reprIn_list_eq_ok_iff` and `PyValue.reprIn_dict_eq_ok_iff` are how a container is written
  out of its parts.
* `PyValue.eq_repr_of_reprIn`: where all code points are printable, the text is that of
  `PyValue.repr`, if there is one at all.
-/

namespace PyStr

/-- The quote around the `repr` of a string: the one that needs no escape, if there is one. -/
def reprQuote (s : PyStr) : Char :=
  if s.contains (Char.ofNat 39) && !s.contains (Char.ofNat 34) then Char.ofNat 34
  else Char.ofNat 39

variable (isPrintable : Char → Bool)

/-- One character of a `repr` text delimited by `quote`. -/
def reprCharIn (quote c : Char) : PyStr :=
  let n := c.toNat
  if n < 0x80 ∨ isPrintable c then reprChar quote c
  else if n < 0x100 then ['\\', 'x', hexDigit (n / 16), hexDigit (n % 16)]
  else if n < 0x10000 then Json.unicodeEscape n
  else '\\' :: 'U' :: (List.range 8).map fun i => hexDigit (n / 16 ^ (7 - i) % 16)

/-- `repr(s)`. -/
def reprIn (s : PyStr) : PyStr :=
  [s.reprQuote] ++ s.flatMap (reprCharIn isPrintable s.reprQuote) ++ [s.reprQuote]

/-- With every character printable, `reprIn` is the `repr` of `Python/Str`. -/
theorem reprIn_eq_repr (s : PyStr) : s.reprIn (fun _ => true) = s.repr := by
  have hchar (quote : Char) : reprCharIn (fun _ => true) quote = reprChar quote := by
    ext1 c
    simp [reprCharIn]
  rw [reprIn, hchar]
  rfl

end PyStr

namespace PyValue

/-- The error of a `repr` that is nested too deep. -/
def reprRecursionError : PyExc :=
  .of (.other "RecursionError".toList)
    "maximum recursion depth exceeded while getting the repr of an object".toList

/-- One level of the recursion. -/
def oneLevel {α : Type} (depth : ℕ) (f : ℕ → Except PyExc α) : Except PyExc α :=
  match depth with
  | 0 => .error reprRecursionError
  | depth + 1 => f depth

section Repr

variable (isPrintable : Char → Bool) (lim : Json.Limits)

/-- `repr(key)`. -/
def reprKeyIn (depth : ℕ) (key : PyKey) : Except PyExc PyStr :=
  oneLevel depth fun _ =>
    match key with
    | .str s => .ok (s.reprIn isPrintable)
    | .int n => Json.intText lim n
    | key => .ok key.repr

mutual

/-- `repr(v)` at a recursion depth from which `depth` levels are left. -/
def reprIn (depth : ℕ) : PyValue → Except PyExc PyStr
  | .none => oneLevel depth fun _ => .ok "None".toList
  | .bool b => oneLevel depth fun _ => .ok (if b then "True".toList else "False".toList)
  | .int n => oneLevel depth fun _ => Json.intText lim n
  | .float repr => oneLevel depth fun _ => .ok repr
  | .str s => oneLevel depth fun _ => .ok (s.reprIn isPrintable)
  | .list xs => oneLevel depth fun depth => do
    let texts ← reprListIn depth xs
    return ['['] ++ PyStr.join ", ".toList texts ++ [']']
  -- a tuple of one element keeps its comma
  | .tuple [x] => oneLevel depth fun depth => do
    let text ← reprIn depth x
    return ['('] ++ text ++ ",)".toList
  | .tuple xs => oneLevel depth fun depth => do
    let texts ← reprListIn depth xs
    return ['('] ++ PyStr.join ", ".toList texts ++ [')']
  | .dict items => oneLevel depth fun depth => do
    let texts ← reprItemsIn depth items
    return [Char.ofNat 0x7B] ++ PyStr.join ", ".toList texts ++ [Char.ofNat 0x7D]
  | .exception e => oneLevel depth fun _ => .ok e.repr
  | .object className => oneLevel depth fun _ => .ok (objectRepr className)

/-- The texts of the elements of a list. -/
def reprListIn (depth : ℕ) : List PyValue → Except PyExc (List PyStr)
  | [] => .ok []
  | x :: xs => do
    let text ← reprIn depth x
    let texts ← reprListIn depth xs
    return text :: texts

/-- The texts of the items of a dict. -/
def reprItemsIn (depth : ℕ) : List (PyKey × PyValue) → Except PyExc (List PyStr)
  | [] => .ok []
  | (key, x) :: items => do
    let name ← reprKeyIn isPrintable lim depth key
    let text ← reprIn depth x
    let texts ← reprItemsIn depth items
    return (name ++ ": ".toList ++ text) :: texts

end

/-- The text of an item of a dict. -/
def reprItemIn (depth : ℕ) (item : PyKey × PyValue) : Except PyExc PyStr := do
  let name ← reprKeyIn isPrintable lim depth item.1
  let text ← reprIn isPrintable lim depth item.2
  return name ++ ": ".toList ++ text

end Repr

variable {isPrintable : Char → Bool} {lim : Json.Limits} {depth : ℕ}

/-- A level of recursion is available if the depth is not zero, and what is inside has one level
less. -/
theorem oneLevel_eq_ok_iff {α : Type} {f : ℕ → Except PyExc α} {a : α} :
    oneLevel depth f = .ok a ↔ ∃ inner, depth = inner + 1 ∧ f inner = .ok a := by
  cases depth with
  | zero => simp [oneLevel]
  | succ depth => simp [oneLevel]

/-- A key is written as a value is. -/
theorem reprKeyIn_eq (key : PyKey) :
    reprKeyIn isPrintable lim depth key = reprIn isPrintable lim depth key.toValue := by
  cases key <;> rw [PyKey.toValue, reprIn] <;> rfl

/-- The texts of the items are made one after the other, and the first one that cannot be made ends
it. -/
theorem reprListIn_eq_mapM (xs : List PyValue) :
    reprListIn isPrintable lim depth xs = xs.mapM (reprIn isPrintable lim depth) := by
  induction xs with
  | nil => rfl
  | cons x xs ih => rw [reprListIn, List.mapM_cons, ih]

theorem reprItemsIn_eq_mapM (items : PyDict) :
    reprItemsIn isPrintable lim depth items = items.mapM (reprItemIn isPrintable lim depth) := by
  induction items with
  | nil => rfl
  | cons item items ih =>
    rw [reprItemsIn, List.mapM_cons, ih]
    simp only [reprItemIn, bind_assoc, pure_bind]

/-- The text of a list is made exactly if those of its items are, at one level less. -/
theorem reprIn_list_eq_ok_iff {xs : List PyValue} {text : PyStr} :
    reprIn isPrintable lim depth (.list xs) = .ok text ↔
      ∃ inner texts, depth = inner + 1 ∧ xs.mapM (reprIn isPrintable lim inner) = .ok texts ∧
        ['['] ++ PyStr.join ", ".toList texts ++ [']'] = text := by
  rw [reprIn, oneLevel_eq_ok_iff]
  simp only [reprListIn_eq_mapM, Except.bind_eq_ok_iff, pure, Except.pure, Except.ok.injEq,
    exists_and_left]

theorem reprIn_dict_eq_ok_iff {items : PyDict} {text : PyStr} :
    reprIn isPrintable lim depth (.dict items) = .ok text ↔
      ∃ inner texts, depth = inner + 1 ∧
        items.mapM (reprItemIn isPrintable lim inner) = .ok texts ∧
          [Char.ofNat 0x7B] ++ PyStr.join ", ".toList texts ++ [Char.ofNat 0x7D] = text := by
  rw [reprIn, oneLevel_eq_ok_iff]
  simp only [reprItemsIn_eq_mapM, Except.bind_eq_ok_iff, pure, Except.pure, Except.ok.injEq,
    exists_and_left]

/-- An item of a `dict` is its key, a colon and its value. -/
theorem reprItemIn_eq_ok_iff {item : PyKey × PyValue} {text : PyStr} :
    reprItemIn isPrintable lim depth item = .ok text ↔
      ∃ name value, reprIn isPrintable lim depth item.1.toValue = .ok name ∧
        reprIn isPrintable lim depth item.2 = .ok value ∧ name ++ ": ".toList ++ value = text := by
  simp only [reprItemIn, reprKeyIn_eq, Except.bind_eq_ok_iff, pure, Except.pure, Except.ok.injEq,
    exists_and_left]

/-- `str` of an integer either raises for too many digits or is its decimal text. -/
theorem eq_ofInt_of_intText {n : ℤ} {text : PyStr} (h : Json.intText lim n = .ok text) :
    text = PyStr.ofInt n := by
  rw [Json.intText] at h
  split_ifs at h
  exact (Except.ok.inj h).symm

/-- A `repr` that is made within the limits is the one without them. -/
theorem eq_repr_of_reprKeyIn {key : PyKey} {text : PyStr}
    (h : reprKeyIn (fun _ => true) lim depth key = .ok text) : text = key.repr := by
  obtain ⟨inner, -, h⟩ := oneLevel_eq_ok_iff.mp h
  cases key with
  | str s =>
    rw [← Except.ok.inj h, PyStr.reprIn_eq_repr]
    rfl
  | int n => exact eq_ofInt_of_intText h
  | _ => exact (Except.ok.inj h).symm

mutual

/-- If all code points are printable and no limit is hit, the text is that of `repr`. By recursion
on the value and its containers. -/
theorem eq_repr_of_reprIn : ∀ {depth : ℕ} {v : PyValue} {text : PyStr},
    reprIn (fun _ => true) lim depth v = .ok text → text = v.repr
  | _, .none, _, h | _, .bool _, _, h | _, .float _, _, h | _, .exception _, _, h
  | _, .object _, _, h => by
    obtain ⟨inner, -, h⟩ := oneLevel_eq_ok_iff.mp h
    exact (Except.ok.inj h).symm
  | _, .int n, _, h => by
    obtain ⟨inner, -, h⟩ := oneLevel_eq_ok_iff.mp h
    exact eq_ofInt_of_intText h
  | _, .str s, _, h => by
    obtain ⟨inner, -, h⟩ := oneLevel_eq_ok_iff.mp h
    rw [← Except.ok.inj h, PyStr.reprIn_eq_repr]
    rfl
  | _, .list xs, _, h => by
    obtain ⟨inner, -, h⟩ := oneLevel_eq_ok_iff.mp h
    obtain ⟨texts, htexts, h⟩ := Except.bind_eq_ok_iff.mp h
    rw [← Except.ok.inj h, eq_repr_of_reprListIn htexts]
    rfl
  | _, .tuple [x], _, h => by
    obtain ⟨inner, -, h⟩ := oneLevel_eq_ok_iff.mp h
    obtain ⟨text, htext, h⟩ := Except.bind_eq_ok_iff.mp h
    rw [← Except.ok.inj h, eq_repr_of_reprIn htext]
    rfl
  | _, .tuple [], _, h => by
    obtain ⟨inner, -, h⟩ := oneLevel_eq_ok_iff.mp h
    exact (Except.ok.inj h).symm
  | _, .tuple (x :: y :: xs), _, h => by
    obtain ⟨inner, -, h⟩ := oneLevel_eq_ok_iff.mp h
    obtain ⟨texts, htexts, h⟩ := Except.bind_eq_ok_iff.mp h
    rw [← Except.ok.inj h, eq_repr_of_reprListIn htexts]
    rfl
  | _, .dict items, _, h => by
    obtain ⟨inner, -, h⟩ := oneLevel_eq_ok_iff.mp h
    obtain ⟨texts, htexts, h⟩ := Except.bind_eq_ok_iff.mp h
    rw [← Except.ok.inj h, eq_repr_of_reprItemsIn htexts]
    rfl

theorem eq_repr_of_reprListIn : ∀ {depth : ℕ} {xs : List PyValue} {texts : List PyStr},
    reprListIn (fun _ => true) lim depth xs = .ok texts → texts = reprList xs
  | _, [], _, h => (Except.ok.inj h).symm
  | _, x :: xs, _, h => by
    obtain ⟨text, htext, h⟩ := Except.bind_eq_ok_iff.mp h
    obtain ⟨texts, htexts, h⟩ := Except.bind_eq_ok_iff.mp h
    rw [← Except.ok.inj h, eq_repr_of_reprIn htext, eq_repr_of_reprListIn htexts]
    rfl

theorem eq_repr_of_reprItemsIn : ∀ {depth : ℕ} {items : PyDict} {texts : List PyStr},
    reprItemsIn (fun _ => true) lim depth items = .ok texts → texts = reprItems items
  | _, [], _, h => (Except.ok.inj h).symm
  | _, (key, x) :: items, _, h => by
    obtain ⟨name, hname, h⟩ := Except.bind_eq_ok_iff.mp h
    obtain ⟨text, htext, h⟩ := Except.bind_eq_ok_iff.mp h
    obtain ⟨texts, htexts, h⟩ := Except.bind_eq_ok_iff.mp h
    rw [← Except.ok.inj h, eq_repr_of_reprKeyIn hname, eq_repr_of_reprIn htext,
      eq_repr_of_reprItemsIn htexts]
    rfl

end

end PyValue
