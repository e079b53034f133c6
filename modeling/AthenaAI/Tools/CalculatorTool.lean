import AthenaAI.Tools.CalculatorValues
import AthenaAI.Tools.Registry
import AthenaAI.Tools.Sql

/-!
# The calculator as a tool

`CalculatorTool` of `athenai.tools.calculator`: the expression comes as a text, and the value goes
back to whoever has called the tool.

* `CalculatorTool` is the tool, on an interpreter with its parser and its floats. What the parser
  raises for a text that is no expression is denied (`syntaxErrors`).
* `CalculatorTool.asTool` is the tool as the registry has it, with its name and its schema.
* `speaks_execute`: what a call raises has a text, which is what the executor tells the model.
* `execute_eq_ok_iff`: what it returns is the value of the parsed expression, which `Computes`
  describes without the walk.
-/

open Ast

/-- The tool, with what it uses of the interpreter. -/
structure CalculatorTool (F : Type) where
  /-- The arithmetic of floats. -/
  floats : Floats F
  /-- `repr` of a float. -/
  reprFloat : F → PyStr
  /-- `ast.parse(text, mode="eval").body`. -/
  parse : PyStr → Except PyExc (Expr F)
  /-- The exceptions of the parser have texts. -/
  text_parse : ∀ text e, parse text = .error e → e.text.isSome
  /-- How deep calls may be nested. -/
  frames : ℕ

namespace CalculatorTool

variable {F : Type} (tool : CalculatorTool F)

/-- `SyntaxError` and its subclasses. -/
def syntaxErrors : List ExcType :=
  [.other "SyntaxError".toList, .other "IndentationError".toList, .other "TabError".toList]

/-- A number as a value. -/
def toValue : Number F → PyValue
  | .bool b => .bool b
  | .int n => .int n
  | .float x => .float (tool.reprFloat x)
  | .complex _ _ => .object "complex".toList

/-- The expression in the arguments. -/
def parsed (arguments : PyValue) : Except PyExc (Expr F) := do
  let expression ← SQLTool.strip (← arguments.getItem "expression".toList)
  match tool.parse expression with
  | .ok body => return body
  | .error exc =>
    -- `except SyntaxError`
    if exc.type ∈ syntaxErrors then
      throw (.of .ToolDeniedError ("invalid expression: ".toList ++ (← exc.str)))
    else throw exc

/-- `CalculatorTool.execute`. -/
def execute (arguments : PyValue) : Except PyExc PyValue := do
  let body ← tool.parsed arguments
  return tool.toValue (← Calculator.outcome tool.floats tool.frames body)

/-- The tool, as the registry has it. -/
def asTool : Tool where
  name := "calculator".toList
  description := "Evaluates arithmetic expressions safely using AST walk — no eval().".toList
  inputSchema := .dict [(.str "type".toList, .str "object".toList),
    (.str "properties".toList, .dict [(.str "expression".toList,
      .dict [(.str "type".toList, .str "string".toList),
        (.str "description".toList,
          .str "Arithmetic expression to evaluate (e.g. '2 + 3 * 4')".toList)])]),
    (.str "required".toList, .list [.str "expression".toList])]
  execute _ _ arguments := tool.execute arguments

/-! ## What is raised -/

/-- What is raised, if anything is, has a text. -/
def Speaks {α : Type} (x : Except PyExc α) : Prop := ∀ e, x = .error e → e.text.isSome

variable {α β : Type} {fl : Floats F} {op : Operator} {v w : Number F}

/-- The exceptions of the steps of `execute` all have a text: for each function that it calls there
is a lemma here. -/
theorem speaks_ok (a : α) : Speaks (.ok a) := nofun

theorem speaks_of (type : ExcType) (message : PyStr) :
    Speaks (.error (.of type message) : Except PyExc α) := by
  intro e he
  rw [← Except.error.inj he]
  rfl

theorem Speaks.bind {x : Except PyExc α} {f : α → Except PyExc β} (hx : Speaks x)
    (hf : ∀ a, Speaks (f a)) : Speaks (x >>= f) := by
  intro e he
  obtain he | ⟨a, -, he⟩ := Except.bind_eq_error_iff.mp he
  · exact hx e he
  · exact hf a e he

theorem speaks_getItem (v : PyValue) (key : PyStr) : Speaks (v.getItem key) := by
  unfold PyValue.getItem
  split
  · split
    · exact speaks_ok _
    · exact fun e he => Except.error.inj he ▸ rfl
  · exact speaks_of _ _

theorem speaks_toFloat (n : ℤ) : Speaks (fl.toFloat n) := by
  unfold Floats.toFloat
  split
  · exact speaks_ok _
  · exact speaks_of _ _

theorem speaks_toComplex (v : Number F) : Speaks (fl.toComplex v) := by
  cases v with
  | bool b => exact (speaks_toFloat _).bind fun _ => speaks_ok _
  | int n => exact (speaks_toFloat n).bind fun _ => speaks_ok _
  | float x => exact speaks_ok _
  | complex re im => exact speaks_ok _

theorem speaks_convert : Speaks (fl.convert op v w) := by
  unfold Floats.convert
  split
  · split_ifs
    · exact (speaks_toFloat _).bind fun _ => (speaks_toFloat _).bind fun _ => speaks_ok _
    · exact speaks_ok _
  · exact speaks_ok _
  · exact (speaks_toFloat _).bind fun _ => speaks_ok _
  · exact (speaks_toFloat _).bind fun _ => speaks_ok _
  · split_ifs
    · exact speaks_of _ _
    · exact speaks_of _ _
    · exact (speaks_toComplex _).bind fun _ => (speaks_toComplex _).bind fun _ => speaks_ok _

theorem speaks_powComplex (z w : F × F) : Speaks (fl.powComplex z w) := by
  unfold Floats.powComplex
  repeat' split
  all_goals first | exact speaks_ok _ | exact speaks_of _ _

theorem speaks_powFloat (x y : F) : Speaks (fl.powFloat x y) := by
  unfold Floats.powFloat
  repeat' split
  all_goals first | exact speaks_ok _ | exact speaks_of _ _ | exact speaks_powComplex _ _

theorem speaks_apply (operands : Operands F) : Speaks (fl.apply op operands) := by
  cases operands with
  | ints m n =>
    show Speaks (fl.intOp op m n)
    unfold Floats.intOp
    repeat' split
    all_goals first | exact speaks_ok _ | exact speaks_of _ _
  | floats x y =>
    show Speaks (fl.floatOp op x y)
    unfold Floats.floatOp
    repeat' split
    all_goals first | exact speaks_ok _ | exact speaks_of _ _ | exact speaks_powFloat _ _
  | complexes z w =>
    show Speaks (fl.complexNumberOp op z w)
    unfold Floats.complexNumberOp
    repeat' split
    all_goals first | exact speaks_ok _ | exact speaks_of _ _ | exact speaks_powComplex _ _

open Calculator in
/-- Whatever the walk over an expression raises has a text, which the executor puts into the
conversation. -/
theorem speaks_outcome (frames : ℕ) (e : Expr F) : Speaks (outcome fl frames e) := by
  induction frames generalizing e with
  | zero => exact speaks_of _ _
  | succ frames ih =>
    obtain ⟨message, hres⟩ | ⟨value, u, rfl, hu, hres⟩ | ⟨left, op, right, rfl, hop, hres⟩ |
      ⟨operand, rfl, hres⟩ | ⟨operand, rfl, hres⟩ := outcome_cases (rfl : outcome fl _ e = _)
    · exact hres ▸ speaks_of _ _
    · exact hres ▸ speaks_ok _
    · refine hres ▸ (ih left).bind fun lv => (ih right).bind fun rv => ?_
      by_cases hzero : op ∈ [Operator.div, .floorDiv, .mod] ∧ isZero fl.arithmetic rv
      · obtain ⟨message, hdenied⟩ := evalBinop_of_isZero lv hzero.1 hzero.2
        exact hdenied ▸ speaks_of _ _
      · rw [evalBinop_of_not_isZero hop hzero]
        exact speaks_convert.bind speaks_apply
    · exact hres ▸ (ih operand).bind fun u => speaks_ok _
    · exact hres ▸ ih operand

/-- Whatever `execute` raises has a text, for arguments of any shape. -/
theorem speaks_execute (arguments : PyValue) : Speaks (tool.execute arguments) := by
  refine Speaks.bind ?_ fun body => (speaks_outcome _ body).bind fun u => speaks_ok _
  refine Speaks.bind ?_ fun expression => Speaks.bind ?_ fun text => ?_
  · exact speaks_getItem _ _
  · cases expression <;> first | exact speaks_ok _ | exact speaks_of _ _
  · split
    · exact speaks_ok _
    · next exc hexc =>
      split_ifs
      · refine Speaks.bind ?_ fun text => speaks_of _ _
        obtain ⟨text, htext⟩ := Option.isSome_iff_exists.mp (tool.text_parse _ _ hexc)
        unfold PyExc.str
        rw [htext]
        exact speaks_ok _
      · exact fun e he => Except.error.inj he ▸ tool.text_parse _ _ hexc

/-! ## What a call comes to -/

/-- The value that the tool computes for its arguments. -/
def Computes (arguments : PyValue) (v : Number F) : Prop :=
  ∃ body, tool.parsed arguments = .ok body ∧ Calculator.outcome tool.floats tool.frames body = .ok v

variable {tool} {arguments result : PyValue}

/-- `execute` returns exactly the values that `Computes` describes: those of the parsed expression,
in the form that JSON gives them. -/
theorem execute_eq_ok_iff :
    tool.execute arguments = .ok result ↔
      ∃ v, tool.Computes arguments v ∧ tool.toValue v = result := by
  unfold execute Computes
  simp only [Except.bind_eq_ok_iff]
  constructor
  · rintro ⟨body, hbody, v, hv, hresult⟩
    exact ⟨v, ⟨body, hbody, hv⟩, Except.ok.inj hresult⟩
  · rintro ⟨v, ⟨body, hbody, hv⟩, rfl⟩
    exact ⟨body, hbody, v, hv, rfl⟩

end CalculatorTool
