import AthenaAI.Python.DictLoop
import AthenaAI.Python.Value
import Mathlib.Data.Char
import Mathlib.Data.List.Lex
import Mathlib.Data.List.Sort

/-!
# The tool registry

`athenai.tools.registry`. A registry keeps the tools under their names, in the order in which the
names were first registered. That no name stands there twice is a field of the structure.

* `Tool` is the protocol: a name, a description, a schema and `execute`.
* `ToolRegistry.register`, `ToolRegistry.get`, `ToolRegistry.listTools` and
  `ToolRegistry.getSchemas` are the methods.
* `ToolRegistry.get_register`: after a registration its name finds the tool, and every other name
  what it found before.
* `ToolRegistry.registerAll_spec`: what the methods return after any tools have been registered. Of
  several tools of one name it is the last one, at the place of the first.
-/

/-- A tool. What `execute` does may depend on everything that has happened before, so it is given
the call it answers: the iteration of the agent loop and the position among the calls of that
iteration. -/
structure Tool where
  /-- The name. -/
  name : PyStr
  /-- The description. -/
  description : PyStr
  /-- The JSON Schema of the arguments. -/
  inputSchema : PyValue
  /-- `Tool.execute`: what the call returns or raises. -/
  execute : (iteration position : ℕ) → (arguments : PyValue) → Except PyExc PyValue

/-- The registry: its tools have different names. -/
structure ToolRegistry where
  /-- The tools, in the order of `_tools`. -/
  tools : List Tool
  /-- No name occurs twice. -/
  nodup : (tools.map Tool.name).Nodup

namespace ToolRegistry

/-- A registry without tools. -/
def empty : ToolRegistry := ⟨[], List.nodup_nil⟩

/-- `_tools[tool.name] = tool` on the items of `_tools`: a tool of the same name is replaced. -/
def insert (tools : List Tool) (tool : Tool) : List Tool :=
  if tool.name ∈ tools.map Tool.name then
    tools.map fun t => if t.name = tool.name then tool else t
  else tools ++ [tool]

/-- Inserting a tool of a known name keeps the list of names, and a new name goes to its end (the
order of a Python `dict`). -/
theorem map_name_insert (tools : List Tool) (tool : Tool) :
    (insert tools tool).map Tool.name =
      if tool.name ∈ tools.map Tool.name then tools.map Tool.name
      else tools.map Tool.name ++ [tool.name] := by
  unfold insert
  split_ifs
  · rw [List.map_map]
    apply List.map_congr_left
    intro t _
    show (if t.name = tool.name then tool else t).name = t.name
    split_ifs with heq
    · exact heq.symm
    · rfl
  · rw [List.map_append, List.map_singleton]

/-- `ToolRegistry.register`. -/
def register (registry : ToolRegistry) (tool : Tool) : ToolRegistry where
  tools := insert registry.tools tool
  nodup := by
    rw [map_name_insert]
    split_ifs with hmem
    · exact registry.nodup
    · refine List.nodup_append.mpr ⟨registry.nodup, List.pairwise_singleton _ _, ?_⟩
      rintro _ hname _ hnew rfl
      exact hmem (List.mem_singleton.mp hnew ▸ hname)

/-- The tool under a key. Only a string is the name of a tool. -/
def lookup (registry : ToolRegistry) : PyValue → Option Tool
  | .str name => registry.tools.find? fun t => t.name = name
  | _ => none

/-- `ToolRegistry.get`. The name comes from the model, so it need not be a string. -/
def get (registry : ToolRegistry) (name : PyValue) : Except PyExc Tool :=
  match name.unhashable with
  -- the lookup itself raises, and only `KeyError` is caught
  | some className =>
    .error (.of .TypeError ("unhashable type: ".toList ++ PyStr.repr className))
  | none =>
    match registry.lookup name with
    | some tool => .ok tool
    | none => .error (.keyError ("tool ".toList ++ name.repr ++ " not registered".toList))

/-- `ToolRegistry.get_schemas`. -/
def getSchemas (registry : ToolRegistry) : List PyDict :=
  registry.tools.map fun t =>
    [("name".toList, .str t.name), ("description".toList, .str t.description),
      ("input_schema".toList, t.inputSchema)]

/-- `ToolRegistry.list_tools`. -/
def listTools (registry : ToolRegistry) : List PyStr :=
  (registry.tools.map Tool.name).insertionSort (· ≤ ·)

/-! ## Registering and finding -/

/-- A tool that is replaced or added is found under its name, and every other tool as before. -/
theorem find?_insert (tools : List Tool) (tool : Tool) (name : PyStr) :
    (insert tools tool).find? (fun t => t.name = name) =
      if tool.name = name then some tool else tools.find? fun t => t.name = name := by
  unfold insert
  split_ifs with hmem heq heq
  · subst heq
    induction tools with
    | nil => simp at hmem
    | cons t tools ih =>
      by_cases ht : t.name = tool.name
      · simp [ht]
      · -- the tool that is replaced comes later
        have hlater : tool.name ∈ tools.map Tool.name :=
          (List.mem_cons.mp hmem).resolve_left (Ne.symm ht)
        simpa [ht] using ih hlater
  · clear hmem
    -- the tools of other names are where they were
    induction tools with
    | nil => rfl
    | cons t tools ih =>
      by_cases ht : t.name = tool.name
      · simpa [ht, heq] using ih
      · simp only [List.map_cons, if_neg ht, List.find?_cons, ih]
  -- no tool has the name yet, so the search gets to the end
  · subst heq
    rw [List.find?_append, List.find?_eq_none.mpr]
    · simp
    · intro t ht hname
      exact hmem (List.mem_map.mpr ⟨t, ht, of_decide_eq_true hname⟩)
  · simp [List.find?_append, heq]

/-- After `register`, `get` finds the tool under its name and every other one as before. -/
theorem get_register (registry : ToolRegistry) (tool : Tool) (name : PyStr) :
    (registry.register tool).get (.str name) =
      if tool.name = name then .ok tool else registry.get (.str name) := by
  have hlookup : (registry.register tool).lookup (.str name) =
      if tool.name = name then some tool else registry.lookup (.str name) :=
    find?_insert registry.tools tool name
  have hhash : (PyValue.str name).unhashable = none := rfl
  unfold get
  rw [hhash, hlookup]
  split_ifs <;> rfl

/-! ## Histories of registrations -/

/-- Tools are registered one after the other. -/
def registerAll (registry : ToolRegistry) (tools : List Tool) : ToolRegistry :=
  tools.foldl register registry

/-- The last tool of that name. -/
def lastNamed (tools : List Tool) (name : PyStr) : Option Tool :=
  tools.reverse.find? fun t => t.name = name

/-- The entry of a tool in `get_schemas`. -/
def schemaOf (tool : Tool) : PyDict :=
  [("name".toList, .str tool.name), ("description".toList, .str tool.description),
    ("input_schema".toList, tool.inputSchema)]

/-- The error for a name that is not registered. -/
def notRegistered (name : PyStr) : PyExc :=
  .keyError ("tool ".toList ++ name.repr ++ " not registered".toList)

theorem registerAll_concat (registry : ToolRegistry) (tools : List Tool) (tool : Tool) :
    registry.registerAll (tools ++ [tool]) = (registry.registerAll tools).register tool :=
  List.foldl_concat ..

theorem getSchemas_eq (registry : ToolRegistry) :
    registry.getSchemas = registry.tools.map schemaOf := rfl

/-- The names stand in the order in which they were first registered, without repetition. -/
theorem names_registerAll (tools : List Tool) :
    (empty.registerAll tools).tools.map Tool.name = Dict.distinct (tools.map Tool.name) := by
  induction tools using List.reverseRecOn with
  | nil => rfl
  | append_singleton tools tool ih =>
    rw [registerAll_concat, List.map_append, List.map_singleton, Dict.distinct_concat]
    show (insert _ tool).map Tool.name = _
    simp only [map_name_insert, ih, Dict.mem_distinct]
    split_ifs <;> rfl

/-- `get` finds the tool that was registered last under the name, or raises the `KeyError` of
`notRegistered` if none was. -/
theorem get_registerAll_empty (tools : List Tool) (name : PyStr) :
    (empty.registerAll tools).get (.str name) =
      ((lastNamed tools name).map .ok).getD (.error (notRegistered name)) := by
  induction tools using List.reverseRecOn with
  | nil => rfl
  | append_singleton tools tool ih =>
    rw [registerAll_concat, get_register, ih, lastNamed, lastNamed, List.reverse_concat,
      List.find?_cons]
    by_cases hname : tool.name = name
    · simp [hname]
    · simp [hname]

/-- `get` of a name returns exactly the tools of the registry that have it: at most one, by the
invariant of `ToolRegistry`. -/
theorem get_eq_ok_iff {registry : ToolRegistry} {name : PyStr} {tool : Tool} :
    registry.get (.str name) = .ok tool ↔ tool ∈ registry.tools ∧ tool.name = name := by
  have hhash : (PyValue.str name).unhashable = none := rfl
  have hlookup : registry.lookup (.str name) = some tool ↔
      tool ∈ registry.tools ∧ tool.name = name := by
    constructor
    · intro h
      have hname := List.find?_some h
      exact ⟨List.mem_of_find?_eq_some h, by simpa using hname⟩
    · rintro ⟨hmem, rfl⟩
      cases hfind : registry.lookup (.str tool.name) with
      | none =>
        have hnone := List.find?_eq_none.mp hfind tool hmem
        exact absurd (decide_eq_true rfl) hnone
      | some found =>
        have hname : found.name = tool.name := by simpa using List.find?_some hfind
        have hfound : found ∈ registry.tools := List.mem_of_find?_eq_some hfind
        rw [List.inj_on_of_nodup_map registry.nodup hfound hmem hname]
  rw [← hlookup, get, hhash]
  cases registry.lookup (.str name) <;> simp

/-- After any tools have been registered, a name stands for the last tool that had it (`lastNamed`).
The schemas are those of these tools, in the order in which their names were first registered, and
`list_tools` are the names, without repetition and in alphabetical order; every other name is
`notRegistered`. -/
theorem registerAll_spec (tools : List Tool) :
    (∀ name, (empty.registerAll tools).get (.str name) =
      ((lastNamed tools name).map .ok).getD (.error (notRegistered name))) ∧
    (empty.registerAll tools).getSchemas =
      (Dict.distinct (tools.map Tool.name)).filterMap
        (fun name => (lastNamed tools name).map schemaOf) ∧
    (empty.registerAll tools).listTools.Pairwise (· < ·) ∧
    ∀ name, name ∈ (empty.registerAll tools).listTools ↔ name ∈ tools.map Tool.name := by
  have hget := get_registerAll_empty tools
  have hnames := names_registerAll tools
  refine ⟨hget, ?_, ?_, fun name => ?_⟩
  · -- each tool of the registry is the last one of its name
    have hlast : ∀ tool ∈ (empty.registerAll tools).tools,
        (lastNamed tools tool.name).map schemaOf = some (schemaOf tool) := by
      intro tool htool
      have hok := hget tool.name
      rw [get_eq_ok_iff.mpr ⟨htool, rfl⟩] at hok
      cases hfind : lastNamed tools tool.name with
      | none =>
        rw [hfind] at hok
        exact nomatch hok
      | some found =>
        rw [hfind] at hok
        rw [Except.ok.inj hok]
        rfl
    rw [← hnames, List.filterMap_map, getSchemas_eq, ← List.filterMap_eq_map]
    exact List.filterMap_congr fun tool htool => (hlast tool htool).symm
  · have hsorted : (empty.registerAll tools).listTools.Pairwise (· ≤ ·) :=
      List.pairwise_insertionSort _ _
    have hnodup : (empty.registerAll tools).listTools.Nodup :=
      (List.perm_insertionSort _ _).nodup_iff.mpr (empty.registerAll tools).nodup
    exact (hsorted.and hnodup).imp fun h => lt_of_le_of_ne h.1 h.2
  · rw [listTools, (List.perm_insertionSort _ _).mem_iff, hnames, Dict.mem_distinct]

end ToolRegistry
