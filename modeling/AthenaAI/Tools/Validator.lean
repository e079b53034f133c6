import AthenaAI.Python.Dict
import AthenaAI.ToMathlib.Except
import AthenaAI.Tools.Registry
import Mathlib.Data.List.Infix

/-!
# The tool validator

`athenai.tools.validator`: before a tool call its arguments are checked against the JSON Schema of
the tool. The schema is any value, and the arguments are looked up in it as Python does that.

* `validateSchema` is `_validate_schema`, for whatever stands in the schema.
* `JsonSchema` is a schema as JSON Schema has them, `JsonType` a type that the validator recognises,
  and `Conforms` says that arguments conform to a schema.
* `checkArgument_cases`: on such a schema the check of an argument ends with a `TypeError` where
  several types are declared, and with a `ToolDeniedError` where the value has a wrong type.
* `acceptsExactly_iff`: so the validator accepts exactly the arguments that conform, unless several
  types come first, or a boolean stands for a number.
-/

/-- A class of the values of JSON. -/
inductive PyClass where
  | str
  | int
  | float
  | bool
  | list
  | dict
  deriving DecidableEq

namespace PyValue

/-- `bool(v)`. -/
def truthy : PyValue → Bool
  | .none => false
  | .bool b => b
  | .int n => n ≠ 0
  | .float repr => repr ≠ "0.0".toList && repr ≠ "-0.0".toList
  | .str s => !s.isEmpty
  | .list xs => !xs.isEmpty
  | .tuple xs => !xs.isEmpty
  | .dict items => !items.isEmpty
  | .exception _ => true
  | .object _ => true

/-- `v.get(key)` for a string key. Only a `dict` has the method. -/
def get (v : PyValue) (key : PyStr) : Except PyExc (Option PyValue) :=
  match v with
  | .dict items => .ok (PyDict.get items key)
  | v =>
    .error (.of (.other "AttributeError".toList)
      ("'".toList ++ v.className ++ "' object has no attribute 'get'".toList))

/-- `key in v` for a string key. -/
def contains (v : PyValue) (key : PyStr) : Except PyExc Bool :=
  let isKey : PyValue → Bool
    | .str s => s = key
    | _ => false
  match v with
  | .dict items => .ok (PyDict.get items key).isSome
  | .list xs => .ok (xs.any isKey)
  | .tuple xs => .ok (xs.any isKey)
  | .str s => .ok (decide (key <:+: s))
  | v =>
    .error (.of .TypeError
      ("argument of type '".toList ++ v.className ++ "' is not iterable".toList))

/-- `isinstance(v, cls)`. -/
def isInstance : PyValue → PyClass → Bool
  | .str _, .str => true
  | .int _, .int => true
  -- `bool` is a subclass of `int`
  | .bool _, .int => true
  | .bool _, .bool => true
  | .float _, .float => true
  | .list _, .list => true
  | .dict _, .dict => true
  | _, _ => false

/-- What hashing the value raises, if it raises. -/
def hash (v : PyValue) : Except PyExc Unit :=
  match v.unhashable with
  | some className =>
    .error (.of .TypeError ("unhashable type: ".toList ++ PyStr.repr className))
  | Option.none => .ok ()

end PyValue

namespace ToolValidator

/-- `_TYPE_MAP`. -/
def typeMap : List (PyStr × List PyClass) :=
  [("string".toList, [.str]),
    ("number".toList, [.int, .float]),
    ("integer".toList, [.int]),
    ("boolean".toList, [.bool]),
    ("array".toList, [.list]),
    ("object".toList, [.dict])]

/-- The loop of `_validate_schema` over the required fields. -/
def checkRequired (arguments : Dict PyStr PyValue) (toolName : PyStr) (field : PyValue) :
    Except PyExc Unit := do
  field.hash
  -- the names of arguments are strings
  let present := match field with
    | .str name => (arguments.get name).isSome
    | _ => false
  if present then return
  throw (.of .ToolDeniedError ("tool ".toList ++ toolName.repr ++ ": required argument ".toList ++
    field.repr ++ " missing".toList))

/-- The name and the classes of a type, if it counts as true and is in `_TYPE_MAP`. -/
def expected? (expectedTypeName : PyValue) : Except PyExc (Option (PyStr × List PyClass)) :=
  if !expectedTypeName.truthy then .ok none
  else
    expectedTypeName.hash >>= fun _ =>
      match expectedTypeName with
      | .str name => .ok ((typeMap.lookup name).map fun expected => (name, expected))
      | _ => .ok none

/-- What the loop over the arguments does with the type of a property. -/
def checkType (expectedTypeName : PyValue) (toolName key : PyStr) (value : PyValue) :
    Except PyExc Unit :=
  expected? expectedTypeName >>= fun
    | some (name, expected) =>
      if expected.any value.isInstance then .ok ()
      else
        .error (.of .ToolDeniedError ("tool ".toList ++ toolName.repr ++ ": argument ".toList ++
          key.repr ++ " must be ".toList ++ name ++ ", got ".toList ++ value.className))
    | none => .ok ()

/-- The loop of `_validate_schema` over the arguments. -/
def checkArgument (props : PyValue) (toolName : PyStr) (item : PyStr × PyValue) :
    Except PyExc Unit := do
  if !(← props.contains item.1) then return
  let property ← props.getItem item.1
  let expectedTypeName ← property.get "type".toList
  checkType (expectedTypeName.getD .none) toolName item.1 item.2

/-- `_validate_schema`. -/
def validateSchema (schema : PyValue) (arguments : Dict PyStr PyValue) (toolName : PyStr) :
    Except PyExc Unit := do
  let props := (← schema.get "properties".toList).getD (.dict [])
  let required := (← schema.get "required".toList).getD (.list [])
  forM (← required.toList) (checkRequired arguments toolName)
  forM arguments.items (checkArgument props toolName)

/-! ## JSON Schema -/

/-- The types of JSON that the validator recognises. -/
inductive JsonType where
  | string
  | number
  | integer
  | boolean
  | array
  | object
  deriving DecidableEq

namespace JsonType

/-- The types under their names. -/
def named : List (PyStr × JsonType) :=
  [("string".toList, string), ("number".toList, number), ("integer".toList, integer),
    ("boolean".toList, boolean), ("array".toList, array), ("object".toList, object)]

/-- The value is of the type. A boolean is no number. -/
def has : JsonType → PyValue → Bool
  | string, .str _ => true
  | number, .int _ => true
  | number, .float _ => true
  | integer, .int _ => true
  | boolean, .bool _ => true
  | array, .list _ => true
  | object, .dict _ => true
  | _, _ => false

/-- The classes of the type in `_TYPE_MAP`. -/
def classes : JsonType → List PyClass
  | string => [.str]
  | number => [.int, .float]
  | integer => [.int]
  | boolean => [.bool]
  | array => [.list]
  | object => [.dict]

/-- A number of the type may be a boolean in Python. -/
def isNumeric : JsonType → Bool
  | number => true
  | integer => true
  | _ => false

/-- The value is a boolean. -/
def isBoolean : PyValue → Bool
  | .bool _ => true
  | _ => false

/-- The instances of the Python classes of a type are its values in JSON, and for the numbers also
the booleans. -/
theorem any_isInstance (t : JsonType) (v : PyValue) :
    t.classes.any v.isInstance = (t.has v || (t.isNumeric && isBoolean v)) := by
  cases t <;> cases v <;> rfl

/-- No JSON value of a type is a boolean that passes for a number, so the two cases of
`any_isInstance` exclude each other. -/
theorem has_and_isBoolean (t : JsonType) (v : PyValue) :
    (t.has v && (t.isNumeric && isBoolean v)) = false := by
  cases t <;> cases v <;> rfl

/-- `typeMap` has, for each of the type names, the classes that `isinstance` is called with. -/
theorem lookup_typeMap (name : PyStr) : typeMap.lookup name = (named.lookup name).map classes := by
  have hmap : typeMap = named.map fun entry => (entry.1, entry.2.classes) := rfl
  rw [hmap]
  generalize named = entries
  induction entries with
  | nil => rfl
  | cons entry entries ih =>
    rw [List.map_cons, List.lookup_cons, List.lookup_cons, ih]
    split <;> rfl

end JsonType

/-- The type of a property is given as JSON Schema allows it: not at all, by its name, or as a list
of names. -/
inductive TypeEntry : Option PyValue → Prop
  | absent : TypeEntry none
  | name (s : PyStr) : TypeEntry (some (.str s))
  | names (ss : List PyStr) : TypeEntry (some (.list (ss.map .str)))

/-- A JSON Schema of an object. -/
structure JsonSchema where
  /-- The schema. -/
  entries : PyDict
  /-- Its properties. -/
  properties : PyDict
  /-- The names of the required properties. -/
  required : List PyStr
  /-- The properties are an object, or there are none. -/
  properties_eq : (entries.get "properties".toList).getD (.dict []) = .dict properties
  /-- The required names are a list of strings, or there are none. -/
  required_eq : (entries.get "required".toList).getD (.list []) = .list (required.map .str)
  /-- Every property is an object. -/
  property : ∀ {key : PyStr} {v : PyValue}, properties.get key = some v →
    ∃ property : PyDict, v = .dict property ∧ TypeEntry (property.get "type".toList)

namespace JsonSchema

variable (schema : JsonSchema)

/-- The type that is declared for an argument. -/
def typeOf (key : PyStr) : Option PyValue :=
  match schema.properties.get key with
  | some (.dict property) => PyDict.get property "type".toList
  | _ => none

/-- The argument is declared with several types. -/
def hasTypeList (key : PyStr) : Bool :=
  match schema.typeOf key with
  | some (.list (_ :: _)) => true
  | _ => false

/-- The one type that is declared for an argument, if it is recognised. -/
def jsonType? (key : PyStr) : Option JsonType :=
  match schema.typeOf key with
  | some (.str name) => JsonType.named.lookup name
  | _ => none

/-- The argument is declared with one type that is recognised, and its value is no instance of the
classes of the type. -/
def isMistyped (item : PyStr × PyValue) : Bool :=
  (schema.jsonType? item.1).any fun t => !t.classes.any item.2.isInstance

/-- The argument is a boolean and declared as a number or an integer. -/
def isBooleanNumber (item : PyStr × PyValue) : Bool :=
  (schema.jsonType? item.1).any fun t => t.isNumeric && JsonType.isBoolean item.2

end JsonSchema

/-- The arguments conform to the schema: the required ones are there, and an argument that is
declared with one type that is recognised is of this type. -/
structure Conforms (schema : JsonSchema) (arguments : Dict PyStr PyValue) : Prop where
  required : ∀ field ∈ schema.required, (arguments.get field).isSome
  typed : ∀ item ∈ arguments.items, ∀ t, schema.jsonType? item.1 = some t → t.has item.2

/-- The validator returns if the arguments conform to the schema, and raises a `ToolDeniedError` if
they do not. -/
structure AcceptsExactly (schema : JsonSchema) (arguments : Dict PyStr PyValue)
    (result : Except PyExc Unit) : Prop where
  accepts : Conforms schema arguments → result = .ok ()
  denies : ¬Conforms schema arguments →
    ∃ message, result = .error (.of .ToolDeniedError message)

section AcceptsExactly

variable {schema : JsonSchema} {arguments : Dict PyStr PyValue} {result : Except PyExc Unit}
  {message : PyStr}

/-- A validator that returns is right exactly if the arguments `Conforms` to the schema. -/
theorem acceptsExactly_ok_iff :
    AcceptsExactly schema arguments (.ok ()) ↔ Conforms schema arguments := by
  refine ⟨fun h => ?_, fun h => ⟨fun _ => rfl, fun hnot => absurd h hnot⟩⟩
  by_contra hnot
  obtain ⟨message, hdenied⟩ := h.denies hnot
  exact nomatch hdenied

/-- A validator that raises a `ToolDeniedError` is right if the arguments do not conform. -/
theorem acceptsExactly_of_denied (hnot : ¬Conforms schema arguments)
    (hdenied : result = .error (.of .ToolDeniedError message)) :
    AcceptsExactly schema arguments result :=
  ⟨fun h => absurd h hnot, fun _ => ⟨message, hdenied⟩⟩

/-- A validator that raises a `TypeError` is wrong, whether the arguments conform or not. -/
theorem not_acceptsExactly_of_typeError (hraises : result = .error (.of .TypeError message)) :
    ¬AcceptsExactly schema arguments result := by
  intro h
  by_cases hconforms : Conforms schema arguments
  · exact Except.ne_ok_of_eq_error hraises () (h.accepts hconforms)
  · obtain ⟨message', hdenied⟩ := h.denies hconforms
    exact nomatch hraises.symm.trans hdenied

end AcceptsExactly

/-! ## What the validator does on a JSON Schema -/

section Spec

variable (schema : JsonSchema) (arguments : Dict PyStr PyValue) (toolName : PyStr)

/-- The check of a required argument passes if it is there, and raises a `ToolDeniedError` if
not. -/
theorem checkRequired_str (field : PyStr) :
    ((arguments.get field).isSome ∧ checkRequired arguments toolName (.str field) = .ok ()) ∨
      (arguments.get field = none ∧ ∃ message,
        checkRequired arguments toolName (.str field) = .error (.of .ToolDeniedError message)) := by
  cases hget : arguments.get field with
  | none =>
    refine Or.inr ⟨rfl, "tool ".toList ++ toolName.repr ++ ": required argument ".toList ++
      field.repr ++ " missing".toList, ?_⟩
    simp only [checkRequired, hget]
    rfl
  | some v =>
    refine Or.inl ⟨rfl, ?_⟩
    simp only [checkRequired, hget]
    rfl

/-- The loop over the required arguments passes if all are there, and raises a `ToolDeniedError` if
one is not. -/
theorem forM_checkRequired (fields : List PyStr) :
    ((∀ field ∈ fields, (arguments.get field).isSome) ∧
        forM (fields.map PyValue.str) (checkRequired arguments toolName) = .ok ()) ∨
      ((∃ field ∈ fields, arguments.get field = none) ∧ ∃ message,
        forM (fields.map PyValue.str) (checkRequired arguments toolName) =
          .error (.of .ToolDeniedError message)) := by
  induction fields with
  | nil => exact Or.inl ⟨List.forall_mem_nil _, rfl⟩
  | cons field fields ih =>
    rw [List.map_cons, List.forM_cons]
    rcases checkRequired_str arguments toolName field with
      ⟨hsome, hok⟩ | ⟨hget, message, hdenied⟩
    · rw [hok]
      rcases ih with ⟨hall, hrest⟩ | ⟨⟨missing, hmem, hget⟩, hrest⟩
      · exact Or.inl ⟨List.forall_mem_cons.mpr ⟨hsome, hall⟩, hrest⟩
      · exact Or.inr ⟨⟨missing, List.mem_cons_of_mem _ hmem, hget⟩, hrest⟩
    · rw [hdenied]
      exact Or.inr ⟨⟨field, List.mem_cons_self, hget⟩, message, rfl⟩

/-- An argument that the schema does not describe, or to which it gives no type, passes whatever its
value. -/
theorem checkArgument_eq (item : PyStr × PyValue) :
    checkArgument (.dict schema.properties) toolName item =
      checkType ((schema.typeOf item.1).getD .none) toolName item.1 item.2 := by
  rw [checkArgument, JsonSchema.typeOf]
  simp only [PyValue.contains, PyValue.getItem]
  cases hget : PyDict.get schema.properties item.1 with
  | none => rfl
  | some v =>
    obtain ⟨property, rfl, -⟩ := schema.property hget
    rfl

/-- The type that a schema declares for an argument is given as `TypeEntry` allows it: not at all,
by its name, or as a list of names. -/
theorem typeEntry_typeOf (key : PyStr) : TypeEntry (schema.typeOf key) := by
  rw [JsonSchema.typeOf]
  cases hget : PyDict.get schema.properties key with
  | none => exact .absent
  | some v =>
    obtain ⟨property, rfl, hentry⟩ := schema.property hget
    exact hentry

/-- A type name is looked up in `typeMap`, where the empty one and unknown ones are not found. -/
theorem expected?_str (name : PyStr) :
    expected? (.str name) =
      .ok ((typeMap.lookup name).map fun expected => (name, expected)) := by
  cases name with
  | nil => rfl
  | cons c name => rfl

/-- The check against one type name denies a value that is no instance of its classes; an unknown
name lets every value through. -/
theorem checkType_str (name key : PyStr) (value : PyValue) :
    ((JsonType.named.lookup name).any (fun t => !t.classes.any value.isInstance) ∧
        ∃ message, checkType (.str name) toolName key value =
          .error (.of .ToolDeniedError message)) ∨
      (¬(JsonType.named.lookup name).any (fun t => !t.classes.any value.isInstance) ∧
        checkType (.str name) toolName key value = .ok ()) := by
  rw [checkType, expected?_str, JsonType.lookup_typeMap]
  cases JsonType.named.lookup name with
  | none => exact Or.inr ⟨nofun, rfl⟩
  | some t =>
    by_cases hany : t.classes.any value.isInstance = true
    · exact Or.inr ⟨by simp [hany], if_pos hany⟩
    · exact Or.inl ⟨by simpa using hany, _, if_neg hany⟩

/-- How the check of an argument ends: in a `TypeError` for a list of types, in a denial for a wrong
type, or well. -/
theorem checkArgument_cases (item : PyStr × PyValue) :
    (schema.hasTypeList item.1 ∧ ¬schema.isMistyped item ∧ ∃ message,
      checkArgument (.dict schema.properties) toolName item = .error (.of .TypeError message)) ∨
    (schema.isMistyped item ∧ ¬schema.hasTypeList item.1 ∧ ∃ message,
      checkArgument (.dict schema.properties) toolName item =
        .error (.of .ToolDeniedError message)) ∨
    (¬schema.hasTypeList item.1 ∧ ¬schema.isMistyped item ∧
      checkArgument (.dict schema.properties) toolName item = .ok ()) := by
  rw [checkArgument_eq, JsonSchema.hasTypeList, JsonSchema.isMistyped, JsonSchema.jsonType?]
  generalize htype : schema.typeOf item.1 = type
  have hentry : TypeEntry type := htype ▸ typeEntry_typeOf schema item.1
  cases hentry with
  | absent => exact Or.inr (Or.inr ⟨nofun, nofun, rfl⟩)
  | name s =>
    rcases checkType_str toolName s item.1 item.2 with ⟨hmistyped, hdenied⟩ | ⟨hnot, hok⟩
    · exact Or.inr (Or.inl ⟨hmistyped, nofun, hdenied⟩)
    · exact Or.inr (Or.inr ⟨nofun, hnot, hok⟩)
  | names ss =>
    cases ss with
    | nil => exact Or.inr (Or.inr ⟨nofun, nofun, rfl⟩)
    -- a list is looked up as if it were a name
    | cons s ss => exact Or.inl ⟨rfl, nofun, _, rfl⟩

/-- `Conforms` in the terms of the validator: the required arguments are there, none is mistyped,
and none is a boolean for a number. -/
theorem conforms_iff :
    Conforms schema arguments ↔ (∀ field ∈ schema.required, (arguments.get field).isSome) ∧
      ∀ item ∈ arguments.items, ¬schema.isMistyped item ∧ ¬schema.isBooleanNumber item := by
  have hvalue (v : PyValue) (t : JsonType) : t.has v ↔
      (!t.classes.any v.isInstance) = false ∧ (t.isNumeric && JsonType.isBoolean v) = false := by
    rw [JsonType.any_isInstance]
    have hexclusive := JsonType.has_and_isBoolean t v
    generalize (t.isNumeric && JsonType.isBoolean v) = boolean at hexclusive ⊢
    cases hv : t.has v <;> cases boolean <;> simp_all
  have htyped (item : PyStr × PyValue) : (∀ t, schema.jsonType? item.1 = some t → t.has item.2) ↔
      ¬schema.isMistyped item ∧ ¬schema.isBooleanNumber item := by
    rw [JsonSchema.isMistyped, JsonSchema.isBooleanNumber]
    cases schema.jsonType? item.1 with
    | none => simp
    | some t => simpa using hvalue item.2 t
  refine ⟨fun h => ⟨h.required, fun item hitem => (htyped item).mp (h.typed item hitem)⟩, ?_⟩
  exact fun ⟨hrequired, hall⟩ => ⟨hrequired, fun item hitem => (htyped item).mpr (hall item hitem)⟩

/-- `validateSchema` goes through the required arguments first, and then through all arguments in
their order. -/
theorem validateSchema_entries :
    validateSchema (.dict schema.entries) arguments toolName =
      forM (schema.required.map PyValue.str) (checkRequired arguments toolName) >>= fun _ =>
        forM arguments.items (checkArgument (.dict schema.properties) toolName) := by
  rw [validateSchema]
  simp only [PyValue.get]
  show (PyValue.toList ((schema.entries.get "required".toList).getD (.list [])) >>= fun required =>
    forM required _ >>= fun _ => forM arguments.items
      (checkArgument ((schema.entries.get "properties".toList).getD (.dict [])) toolName)) = _
  rw [schema.properties_eq, schema.required_eq]
  rfl

/-- An argument ends the check exactly if its schema lists several types or it is of a wrong one. -/
theorem isOk_checkArgument (item : PyStr × PyValue) :
    (!(checkArgument (.dict schema.properties) toolName item).isOk) =
      (schema.hasTypeList item.1 || schema.isMistyped item) := by
  rcases checkArgument_cases schema toolName item with
    ⟨hlist, -, message, hcheck⟩ | ⟨hmistyped, -, message, hcheck⟩ | ⟨hlist, hmistyped, hcheck⟩
  · rw [hcheck, hlist]
    rfl
  · rw [hcheck, hmistyped, Bool.or_true]
    rfl
  · rw [hcheck, Bool.eq_false_of_not_eq_true hlist, Bool.eq_false_of_not_eq_true hmistyped]
    rfl

end Spec

/-- The validator decides whether the arguments conform: a required one is missing; or the first
argument that is declared with several types or has a wrong type has a wrong type; or there is no
such argument, and no boolean is declared as a number. -/
def Decides (schema : JsonSchema) (arguments : Dict PyStr PyValue) : Prop :=
  (∃ field ∈ schema.required, arguments.get field = none) ∨
    match arguments.items.find? fun item => schema.hasTypeList item.1 || schema.isMistyped item with
    | some item => schema.isMistyped item
    | none => ∀ item ∈ arguments.items, ¬schema.isBooleanNumber item

/-- For every JSON Schema and all arguments: the validator accepts exactly the arguments that
conform, and raises nothing but a `ToolDeniedError` (`AcceptsExactly`), if and only if it `Decides`
whether they do: a required argument is missing; or the first argument that is declared with several
types or has a wrong type has a wrong type; or there is no such argument, and no boolean is declared
as a number. -/
theorem acceptsExactly_iff (schema : JsonSchema) (arguments : Dict PyStr PyValue)
    (toolName : PyStr) :
    AcceptsExactly schema arguments
        (validateSchema (.dict schema.entries) arguments toolName) ↔
      Decides schema arguments := by
  rw [validateSchema_entries]
  rcases forM_checkRequired arguments toolName schema.required with
    ⟨hrequired, hloop⟩ | ⟨⟨field, hfield, hget⟩, message, hloop⟩
  swap
  -- a required argument is missing
  · have hnot : ¬Conforms schema arguments := fun h => by
      have hsome := h.required field hfield
      rw [hget] at hsome
      exact nomatch hsome
    rw [hloop]
    exact iff_of_true (acceptsExactly_of_denied hnot rfl) (Or.inl ⟨field, hfield, hget⟩)
  have hnone : ¬∃ field ∈ schema.required, arguments.get field = none := by
    rintro ⟨field, hfield, hget⟩
    exact nomatch hget ▸ hrequired field hfield
  rw [hloop, Decides, or_iff_right hnone]
  show AcceptsExactly schema arguments (forM arguments.items _) ↔ _
  rw [Except.forM_eq]
  simp only [isOk_checkArgument]
  cases hfirst : arguments.items.find? fun item =>
      schema.hasTypeList item.1 || schema.isMistyped item with
  | none =>
    -- no argument ends the check
    have hpass : ∀ item ∈ arguments.items, ¬schema.isMistyped item := fun item hitem hmistyped =>
      List.find?_eq_none.mp hfirst item hitem (Bool.or_eq_true_iff.mpr (Or.inr hmistyped))
    show AcceptsExactly schema arguments (.ok ()) ↔ _
    rw [acceptsExactly_ok_iff, conforms_iff, and_iff_right hrequired]
    exact forall₂_congr fun item hitem => and_iff_right (hpass item hitem)
  | some item =>
    have hitem : item ∈ arguments.items := List.mem_of_find?_eq_some hfirst
    rcases checkArgument_cases schema toolName item with
      ⟨hlist, hmistyped, message, hcheck⟩ | ⟨hmistyped, -, message, hcheck⟩ |
        ⟨hlist, hmistyped, -⟩
    -- several types
    · exact iff_of_false (not_acceptsExactly_of_typeError hcheck) hmistyped
    -- a wrong type
    · have hnot : ¬Conforms schema arguments := fun h =>
        (((conforms_iff schema arguments).mp h).2 item hitem).1 hmistyped
      exact iff_of_true (acceptsExactly_of_denied hnot hcheck) hmistyped
    · have hfails := List.find?_some hfirst
      rw [Bool.or_eq_true_iff] at hfails
      exact absurd hfails (not_or.mpr ⟨hlist, hmistyped⟩)

/-- A schema that declares the type of an argument `count`. -/
def countSchema {type : PyValue} (htype : TypeEntry (some type)) : JsonSchema where
  entries := [(.str "properties".toList,
    .dict [(.str "count".toList, .dict [(.str "type".toList, type)])])]
  properties := [(.str "count".toList, .dict [(.str "type".toList, type)])]
  required := []
  properties_eq := rfl
  required_eq := rfl
  property h := by
    rw [PyDict.get, List.lookup_cons] at h
    split at h
    · exact ⟨_, (Option.some.inj h).symm, htype⟩
    · exact nomatch h

/-- An argument `count`. -/
def countArguments (value : PyValue) : Dict PyStr PyValue where
  items := [("count".toList, value)]
  nodup := List.nodup_singleton _

/-- `True` passes for an integer, since `bool` is a subclass of `int`; and where an integer may also
be `null`, so that its type is a list, the lookup in the table of types raises a `TypeError`. -/
theorem count_not_acceptsExactly :
    (validateSchema (.dict (countSchema (.name "integer".toList)).entries)
        (countArguments (.bool true)) "counter".toList = .ok () ∧
      ¬AcceptsExactly (countSchema (.name "integer".toList)) (countArguments (.bool true))
        (validateSchema (.dict (countSchema (.name "integer".toList)).entries)
          (countArguments (.bool true)) "counter".toList)) ∧
    (validateSchema (.dict (countSchema (.names ["integer".toList, "null".toList])).entries)
        (countArguments (.int 3)) "counter".toList =
          .error (.of .TypeError "unhashable type: 'list'".toList) ∧
      ¬AcceptsExactly (countSchema (.names ["integer".toList, "null".toList]))
        (countArguments (.int 3))
        (validateSchema (.dict (countSchema (.names ["integer".toList, "null".toList])).entries)
          (countArguments (.int 3)) "counter".toList)) := by
  have hboolean : validateSchema (.dict (countSchema (.name "integer".toList)).entries)
      (countArguments (.bool true)) "counter".toList = .ok () := rfl
  have hlist : validateSchema
      (.dict (countSchema (.names ["integer".toList, "null".toList])).entries)
      (countArguments (.int 3)) "counter".toList =
        .error (.of .TypeError "unhashable type: 'list'".toList) := rfl
  refine ⟨⟨hboolean, ?_⟩, hlist, not_acceptsExactly_of_typeError hlist⟩
  rw [hboolean, acceptsExactly_ok_iff]
  exact fun h => nomatch h.typed _ List.mem_cons_self .integer rfl

end ToolValidator
