import AthenaAI.Python.Value

/-!
# JSON text

`json.dumps` of the standard library, with its default separators and `ensure_ascii=True`.

* `Json.Limits` are the two limits of the interpreter that the encoder runs into: how deep it may
  recurse and how many digits an integer may be converted to.
* `Json.quote` is a string with its escapes, `Json.intText` and `Json.floatText` are numbers, and
  `Json.keyText` is a key, which may be a number too and is then written as a string.
* `Json.encode` is the encoder; `Json.dumps lim v` is `json.dumps(v)` and `Json.dumpsIndent lim n v`
  is `json.dumps(v, indent=n)`. It raises a `TypeError` for what has no JSON text, and the errors of
  the limits.
-/

namespace Json

/-- The limits the interpreter puts on the encoder. -/
structure Limits where
  /-- How many containers may be nested in one another before the recursion limit is hit. -/
  depth : ℕ
  /-- There is room for a container. -/
  depth_pos : 0 < depth := by decide
  /-- How many digits `str` of an integer may have; no bound if it is `0`. -/
  digits : ℕ := 4300

theorem thousand_pos : 0 < 1000 := by decide

/-- An interpreter that allows a thousand nested containers. -/
def Limits.thousand : Limits := { depth := 1000, depth_pos := thousand_pos }

/-- The escape `\uXXXX` of a code unit. -/
def unicodeEscape (n : ℕ) : PyStr :=
  ['\\', 'u', PyStr.hexDigit (n / 4096), PyStr.hexDigit (n / 256 % 16),
    PyStr.hexDigit (n / 16 % 16), PyStr.hexDigit (n % 16)]

/-- One character of a JSON string. Beyond the Basic Multilingual Plane it is a surrogate pair. -/
def escapeChar (c : Char) : PyStr :=
  let n := c.toNat
  -- the quotation mark and the backslash
  if n = 0x22 ∨ n = 0x5C then ['\\', c]
  else if 0x20 ≤ n ∧ n ≤ 0x7E then [c]
  else if n = 0x0A then ['\\', 'n']
  else if n = 0x0D then ['\\', 'r']
  else if n = 0x09 then ['\\', 't']
  else if n = 0x0C then ['\\', 'f']
  else if n = 0x08 then ['\\', 'b']
  else if n < 0x10000 then unicodeEscape n
  -- a pair of surrogates
  else
    let m := n - 0x10000
    unicodeEscape (0xD800 + m / 1024) ++ unicodeEscape (0xDC00 + m % 1024)

/-- A JSON string. -/
def quote (s : PyStr) : PyStr := [Char.ofNat 0x22] ++ s.flatMap escapeChar ++ [Char.ofNat 0x22]

/-- A float: its `repr`, except for the three values JSON has no name for. -/
def floatText (repr : PyStr) : PyStr :=
  if repr = "nan".toList then "NaN".toList
  else if repr = "inf".toList then "Infinity".toList
  else if repr = "-inf".toList then "-Infinity".toList
  else repr

/-- An integer, if the interpreter converts it. -/
def intText (lim : Limits) (n : ℤ) : Except PyExc PyStr :=
  -- `int.__repr__` raises a `ValueError`, which `json.dumps` passes on
  if lim.digits ≠ 0 ∧ 10 ^ lim.digits ≤ n.natAbs then
    .error (.of .ValueError ("Exceeds the limit (".toList ++ PyStr.ofInt lim.digits ++
      " digits) for integer string conversion".toList))
  else .ok (PyStr.ofInt n)

/-- The error for a value that is no JSON value. -/
def notSerializable (className : PyStr) : PyExc :=
  .of .TypeError ("Object of type ".toList ++ className ++ " is not JSON serializable".toList)

/-- The error for containers nested too deep. -/
def recursionError : PyExc :=
  .of (.other "RecursionError".toList) "maximum recursion depth exceeded".toList

/-- A line break and the indentation of `level`, if the text is indented. -/
def newline (indent : Option ℕ) (level : ℕ) : PyStr :=
  match indent with
  | none => []
  | some n => '\n' :: List.replicate (n * level) ' '

/-- What separates two items at `level`. -/
def separator (indent : Option ℕ) (level : ℕ) : PyStr :=
  match indent with
  | none => ", ".toList
  | some _ => ',' :: newline indent level

/-- A container: its brackets around the texts of its items. -/
def container (indent : Option ℕ) (level : ℕ) (left right : Char) (items : List PyStr) : PyStr :=
  -- an empty container has no line breaks in it
  if items.isEmpty then [left, right]
  else
    left :: newline indent (level + 1) ++ PyStr.join (separator indent (level + 1)) items ++
      newline indent level ++ [right]

/-- The name of a key in a JSON object. -/
def keyText (lim : Limits) : PyKey → Except PyExc PyStr
  | .str s => .ok s
  | .int n => intText lim n
  | .float repr => .ok (floatText repr)
  | .bool b => .ok (if b then "true".toList else "false".toList)
  | .none => .ok "null".toList
  | .object className =>
    .error (.of .TypeError
      ("keys must be str, int, float, bool or None, not ".toList ++ className))

mutual

/-- The text of a value at nesting `level`, with room for `depth` more containers inside. -/
def encode (lim : Limits) (indent : Option ℕ) (level depth : ℕ) : PyValue → Except PyExc PyStr
  | .none => .ok "null".toList
  | .bool b => .ok (if b then "true".toList else "false".toList)
  | .int n => intText lim n
  | .float repr => .ok (floatText repr)
  | .str s => .ok (quote s)
  | .list xs | .tuple xs =>
    match depth with
    | 0 => .error recursionError
    | depth + 1 => do
      let items ← encodeList lim indent (level + 1) depth xs
      return container indent level '[' ']' items
  | .dict items =>
    match depth with
    | 0 => .error recursionError
    | depth + 1 => do
      let items ← encodeItems lim indent (level + 1) depth items
      return container indent level (Char.ofNat 0x7B) (Char.ofNat 0x7D) items
  -- `JSONEncoder.default` raises
  | .exception e => .error (notSerializable e.type.name)
  | .object className => .error (notSerializable className)

/-- The texts of the elements of a list. -/
def encodeList (lim : Limits) (indent : Option ℕ) (level depth : ℕ) :
    List PyValue → Except PyExc (List PyStr)
  | [] => .ok []
  | x :: xs => do
    let text ← encode lim indent level depth x
    let texts ← encodeList lim indent level depth xs
    return text :: texts

/-- The texts of the items of a dict. -/
def encodeItems (lim : Limits) (indent : Option ℕ) (level depth : ℕ) :
    List (PyKey × PyValue) → Except PyExc (List PyStr)
  | [] => .ok []
  | (key, x) :: items => do
    let name ← keyText lim key
    let text ← encode lim indent level depth x
    let texts ← encodeItems lim indent level depth items
    return (quote name ++ ": ".toList ++ text) :: texts

end

/-- `json.dumps(v)`. -/
def dumps (lim : Limits) (v : PyValue) : Except PyExc PyStr := encode lim none 0 lim.depth v

/-- `json.dumps(v, indent=n)`. -/
def dumpsIndent (lim : Limits) (n : ℕ) (v : PyValue) : Except PyExc PyStr :=
  encode lim (some n) 0 lim.depth v

/-- A dict of one string can be written. -/
theorem exists_dumps_singleton (lim : Limits) (key text : PyStr) :
    ∃ payload, dumps lim (.dict [(.str key, .str text)]) = .ok payload := by
  unfold dumps
  -- there is room for the dict, and nothing in it can fail
  obtain ⟨depth, hdepth⟩ := Nat.exists_eq_add_one.mpr lim.depth_pos
  rw [hdepth]
  exact ⟨_, rfl⟩

end Json
