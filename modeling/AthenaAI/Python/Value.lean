import AthenaAI.Python.Str

/-!
# Python values and exceptions

The values that pass through the repository without being computed on: tool arguments and
results, message metadata, JSON data.

* `PyExc`: a raised exception, its class and what `str` makes of it, which is nothing where `str`
  raises itself;
* `PyValue`: a Python value; `PyDict`: a `dict`, in insertion order, with keys `PyKey`;
* `PyDict.get`, `PyValue.getItem`: `d.get(key)` and `v[key]`; `PyDict.set`: `{**d, key: value}`;
* `PyExc.str`, `PyValue.repr`: `str(exc)` and `repr(v)`;
* `PyValue.unhashable`, `PyValue.toList`: what `hash` refuses, and what a loop goes through.
-/

/-- The exception classes that the code names; any other class is `other` with its name. -/
inductive ExcType where
  | ValueError
  | JSONDecodeError
  | TypeError
  | KeyError
  | RuntimeError
  | ToolDeniedError
  | CircuitOpenError
  | RateLimitError
  | EmbeddingError
  | ContextOverflowError
  | other (name : PyStr)
  deriving DecidableEq

/-- The name of the class. -/
def ExcType.name : ExcType → PyStr
  | .ValueError => "ValueError".toList
  | .JSONDecodeError => "JSONDecodeError".toList
  | .TypeError => "TypeError".toList
  | .KeyError => "KeyError".toList
  | .RuntimeError => "RuntimeError".toList
  | .ToolDeniedError => "ToolDeniedError".toList
  | .CircuitOpenError => "CircuitOpenError".toList
  | .RateLimitError => "RateLimitError".toList
  | .EmbeddingError => "EmbeddingError".toList
  | .ContextOverflowError => "ContextOverflowError".toList
  | .other name => name

/-- A raised exception. `text` is what `str(exc)` returns, `none` if that raises itself. -/
structure PyExc where
  /-- The class of the exception. -/
  type : ExcType
  /-- The text `str` gives for it. -/
  text : Option PyStr
  deriving DecidableEq

namespace PyExc

/-- An exception raised with a message. -/
def of (type : ExcType) (message : PyStr) : PyExc := ⟨type, some message⟩

/-- `KeyError(key)`: its text is the `repr` of the key. -/
def keyError (key : PyStr) : PyExc := ⟨.KeyError, some key.repr⟩

/-- `str(exc)`. -/
def str (e : PyExc) : Except PyExc PyStr :=
  match e.text with
  | some text => .ok text
  | none => .error (.of .TypeError "__str__ returned non-string".toList)

/-- `repr(exc)`, for an exception raised with a message. -/
def repr (e : PyExc) : PyStr := e.type.name ++ ['('] ++ (e.text.getD []).repr ++ [')']

end PyExc

/-- A key of a `dict`. A key that is none of the listed kinds (a tuple, a date, an instance of a
class) is an `object` of a named class. -/
inductive PyKey where
  | str (s : PyStr)
  | int (n : ℤ)
  | float (repr : PyStr)
  | bool (b : Bool)
  | none
  | object (className : PyStr)
  deriving DecidableEq

instance : Coe PyStr PyKey := ⟨.str⟩

/-- A Python value. A float is carried by its `repr`; a value that is none of the listed kinds (a
date, a set, a complex number, an instance of a class) is an `object` of a named class. -/
inductive PyValue where
  | none
  | bool (b : Bool)
  | int (n : ℤ)
  | float (repr : PyStr)
  | str (s : PyStr)
  | list (xs : List PyValue)
  | tuple (xs : List PyValue)
  | dict (items : List (PyKey × PyValue))
  | exception (e : PyExc)
  | object (className : PyStr)

/-- A `dict`, as its items in insertion order. -/
abbrev PyDict := List (PyKey × PyValue)

/-- `d.get(key)` for a string key. -/
def PyDict.get (d : PyDict) (key : PyStr) : Option PyValue := d.lookup (.str key)

/-- `{**d, key: value}` for a string key. -/
def PyDict.set (d : PyDict) (key : PyStr) (value : PyValue) : PyDict :=
  -- a key that is there already keeps its place
  if (d.get key).isSome then d.map fun item => if item.1 = .str key then (item.1, value) else item
  else d ++ [(.str key, value)]

/-- The value of a key. -/
def PyKey.toValue : PyKey → PyValue
  | .str s => .str s
  | .int n => .int n
  | .float repr => .float repr
  | .bool b => .bool b
  | .none => .none
  | .object className => .object className

/-- The `repr` of an object that does not define one. -/
def objectRepr (className : PyStr) : PyStr := ['<'] ++ className ++ " object>".toList

/-- `repr(key)`. -/
def PyKey.repr : PyKey → PyStr
  | .str s => s.repr
  | .int n => PyStr.ofInt n
  | .float repr => repr
  | .bool b => if b then "True".toList else "False".toList
  | .none => "None".toList
  | .object className => objectRepr className

namespace PyValue

mutual

/-- `repr(v)`. The address in the text for an object is left out. -/
def repr : PyValue → PyStr
  | .none => "None".toList
  | .bool b => if b then "True".toList else "False".toList
  | .int n => PyStr.ofInt n
  | .float repr => repr
  | .str s => s.repr
  | .list xs => ['['] ++ PyStr.join ", ".toList (reprList xs) ++ [']']
  -- a tuple of one element keeps its comma
  | .tuple [x] => ['('] ++ repr x ++ ",)".toList
  | .tuple xs => ['('] ++ PyStr.join ", ".toList (reprList xs) ++ [')']
  | .dict items =>
    [Char.ofNat 0x7B] ++ PyStr.join ", ".toList (reprItems items) ++ [Char.ofNat 0x7D]
  | .exception e => e.repr
  | .object className => objectRepr className

/-- The `repr`s of the elements of a list. -/
def reprList : List PyValue → List PyStr
  | [] => []
  | x :: xs => repr x :: reprList xs

/-- The texts of the items of a dict. -/
def reprItems : List (PyKey × PyValue) → List PyStr
  | [] => []
  | (key, x) :: items => (key.repr ++ ": ".toList ++ repr x) :: reprItems items

end

/-- The name of the class of a value. -/
def className : PyValue → PyStr
  | .none => "NoneType".toList
  | .bool _ => "bool".toList
  | .int _ => "int".toList
  | .float _ => "float".toList
  | .str _ => "str".toList
  | .list _ => "list".toList
  | .tuple _ => "tuple".toList
  | .dict _ => "dict".toList
  | .exception e => e.type.name
  | .object className => className

/-- `v[key]` for a string key: a `KeyError` if a dict lacks the key, a `TypeError` if `v` is not
a dict. -/
def getItem (v : PyValue) (key : PyStr) : Except PyExc PyValue :=
  match v with
  | .dict items =>
    match PyDict.get items key with
    | some x => .ok x
    | .none => .error (.keyError key)
  | v => .error (.of .TypeError (v.className ++ " is not subscriptable by a string".toList))

mutual

/-- The name of the class that makes a value unhashable, if it is. -/
def unhashable : PyValue → Option PyStr
  | .list _ => some "list".toList
  | .dict _ => some "dict".toList
  | .tuple xs => unhashableList xs
  | _ => Option.none

/-- The name of the class of the first unhashable element. -/
def unhashableList : List PyValue → Option PyStr
  | [] => Option.none
  | x :: xs => (unhashable x).or (unhashableList xs)

end

/-- `list(v)`: the elements of a list or tuple, the keys of a dict, the characters of a string; any
other value is not iterable. -/
def toList (v : PyValue) : Except PyExc (List PyValue) :=
  match v with
  | .list xs => .ok xs
  | .tuple xs => .ok xs
  | .dict items => .ok (items.map fun item => item.1.toValue)
  | .str s => .ok (s.map fun c => .str [c])
  | v => .error (.of .TypeError ("'".toList ++ v.className ++ "' object is not iterable".toList))

end PyValue
