import AthenaAI.Python.Str

/-!
# Expression trees

The expressions of Python's `ast` module: every class of node, with the children that it has. The
contexts of names, which nothing reads, are left out.

* `Expr` is generic in the floats that constants may have; `Operator`, `UnaryOperator`,
  `BoolOperator` and `CmpOp` are the operators.
* `Expr.className`: `type(node).__name__`;
* `Expr.children` and `Expr.Within`: the expressions right below a node, and those anywhere in its
  tree. `Expr.within_iff` and the lemmas after it are how proofs go down a tree.
-/

namespace Ast

/-- What a `Constant` holds; `F` is the type of the floats. -/
inductive ConstantValue (F : Type) where
  | none
  | bool (b : Bool)
  | int (n : ℤ)
  | float (x : F)
  | complex (re im : F)
  | str (s : PyStr)
  | bytes (s : List UInt8)
  | ellipsis

/-- The binary operators. -/
inductive Operator where
  | add
  | sub
  | mult
  | matMult
  | div
  | mod
  | pow
  | lShift
  | rShift
  | bitOr
  | bitXor
  | bitAnd
  | floorDiv
  deriving DecidableEq

/-- `type(op).__name__`. -/
def Operator.className : Operator → PyStr
  | .add => "Add".toList
  | .sub => "Sub".toList
  | .mult => "Mult".toList
  | .matMult => "MatMult".toList
  | .div => "Div".toList
  | .mod => "Mod".toList
  | .pow => "Pow".toList
  | .lShift => "LShift".toList
  | .rShift => "RShift".toList
  | .bitOr => "BitOr".toList
  | .bitXor => "BitXor".toList
  | .bitAnd => "BitAnd".toList
  | .floorDiv => "FloorDiv".toList

/-- The unary operators. -/
inductive UnaryOperator where
  | invert
  | not
  | uAdd
  | uSub
  deriving DecidableEq

/-- `and` and `or`. -/
inductive BoolOperator where
  | and
  | or

/-- The comparisons. -/
inductive CmpOp where
  | eq
  | notEq
  | lt
  | ltE
  | gt
  | gtE
  | is
  | isNot
  | «in»
  | notIn

/-- A `for` of a comprehension. -/
structure Comprehension (E : Type) where
  /-- What the elements are assigned to. -/
  target : E
  /-- What is iterated over. -/
  iter : E
  /-- The conditions. -/
  ifs : List E
  /-- An `async for`. -/
  isAsync : Bool

/-- A keyword argument of a call; no name for `**value`. -/
structure Keyword (E : Type) where
  /-- The name. -/
  arg : Option PyStr
  /-- The value. -/
  value : E

/-- The parameters of a `lambda`. -/
structure Arguments (E : Type) where
  /-- The parameters before `/`. -/
  posonlyargs : List PyStr
  /-- The other positional ones. -/
  args : List PyStr
  /-- The name after `*`. -/
  vararg : Option PyStr
  /-- The parameters after `*`. -/
  kwonlyargs : List PyStr
  /-- The defaults of these. -/
  kwDefaults : List (Option E)
  /-- The name after `**`. -/
  kwarg : Option PyStr
  /-- The defaults of the last positional parameters. -/
  defaults : List E

/-- `ast.expr`. -/
inductive Expr (F : Type) where
  | boolOp (op : BoolOperator) (values : List (Expr F))
  | namedExpr (target value : Expr F)
  | binOp (left : Expr F) (op : Operator) (right : Expr F)
  | unaryOp (op : UnaryOperator) (operand : Expr F)
  | lambda (args : Arguments (Expr F)) (body : Expr F)
  | ifExp (test body orelse : Expr F)
  -- there is no key for `**value`
  | dict (keys : List (Option (Expr F))) (values : List (Expr F))
  | set (elts : List (Expr F))
  | listComp (elt : Expr F) (generators : List (Comprehension (Expr F)))
  | setComp (elt : Expr F) (generators : List (Comprehension (Expr F)))
  | dictComp (key value : Expr F) (generators : List (Comprehension (Expr F)))
  | generatorExp (elt : Expr F) (generators : List (Comprehension (Expr F)))
  | await (value : Expr F)
  | yield (value : Option (Expr F))
  | yieldFrom (value : Expr F)
  | compare (left : Expr F) (ops : List CmpOp) (comparators : List (Expr F))
  | call (func : Expr F) (args : List (Expr F)) (keywords : List (Keyword (Expr F)))
  | formattedValue (value : Expr F) (conversion : ℤ) (formatSpec : Option (Expr F))
  | joinedStr (values : List (Expr F))
  | constant (value : ConstantValue F)
  | attribute (value : Expr F) (attr : PyStr)
  | subscript (value slice : Expr F)
  | starred (value : Expr F)
  | name (id : PyStr)
  | list (elts : List (Expr F))
  | tuple (elts : List (Expr F))
  | slice (lower upper step : Option (Expr F))

variable {F : Type}

/-- The expressions of a `for` of a comprehension. -/
def Comprehension.children {E : Type} (c : Comprehension E) : List E := c.target :: c.iter :: c.ifs

namespace Expr

/-- `type(node).__name__`. -/
def className : Expr F → PyStr
  | .boolOp _ _ => "BoolOp".toList
  | .namedExpr _ _ => "NamedExpr".toList
  | .binOp _ _ _ => "BinOp".toList
  | .unaryOp _ _ => "UnaryOp".toList
  | .lambda _ _ => "Lambda".toList
  | .ifExp _ _ _ => "IfExp".toList
  | .dict _ _ => "Dict".toList
  | .set _ => "Set".toList
  | .listComp _ _ => "ListComp".toList
  | .setComp _ _ => "SetComp".toList
  | .dictComp _ _ _ => "DictComp".toList
  | .generatorExp _ _ => "GeneratorExp".toList
  | .await _ => "Await".toList
  | .yield _ => "Yield".toList
  | .yieldFrom _ => "YieldFrom".toList
  | .compare _ _ _ => "Compare".toList
  | .call _ _ _ => "Call".toList
  | .formattedValue _ _ _ => "FormattedValue".toList
  | .joinedStr _ => "JoinedStr".toList
  | .constant _ => "Constant".toList
  | .attribute _ _ => "Attribute".toList
  | .subscript _ _ => "Subscript".toList
  | .starred _ => "Starred".toList
  | .name _ => "Name".toList
  | .list _ => "List".toList
  | .tuple _ => "Tuple".toList
  | .slice _ _ _ => "Slice".toList

/-- The expressions right below a node. -/
def children : Expr F → List (Expr F)
  | .boolOp _ values => values
  | .namedExpr target value => [target, value]
  | .binOp left _ right => [left, right]
  | .unaryOp _ operand => [operand]
  | .lambda args body => args.defaults ++ args.kwDefaults.reduceOption ++ [body]
  | .ifExp test body orelse => [test, body, orelse]
  | .dict keys values => keys.reduceOption ++ values
  | .set elts => elts
  | .listComp elt generators => elt :: generators.flatMap Comprehension.children
  | .setComp elt generators => elt :: generators.flatMap Comprehension.children
  | .dictComp key value generators => key :: value :: generators.flatMap Comprehension.children
  | .generatorExp elt generators => elt :: generators.flatMap Comprehension.children
  | .await value => [value]
  | .yield value => value.toList
  | .yieldFrom value => [value]
  | .compare left _ comparators => left :: comparators
  | .call func args keywords => func :: args ++ keywords.map Keyword.value
  | .formattedValue value _ formatSpec => value :: formatSpec.toList
  | .joinedStr values => values
  | .constant _ => []
  | .attribute value _ => [value]
  | .subscript value index => [value, index]
  | .starred value => [value]
  | .name _ => []
  | .list elts => elts
  | .tuple elts => elts
  | .slice lower upper step => lower.toList ++ upper.toList ++ step.toList

/-- The first expression is a node of the tree of the second. -/
inductive Within : Expr F → Expr F → Prop
  | refl (e : Expr F) : Within e e
  | child {d c e : Expr F} (hchild : c ∈ e.children) (hwithin : Within d c) : Within d e

/-- A part of an expression is the expression itself or within one of its children. -/
theorem within_iff {d e : Expr F} : d.Within e ↔ d = e ∨ ∃ c ∈ e.children, d.Within c := by
  constructor
  · intro h
    cases h with
    | refl => exact Or.inl rfl
    | child hchild hwithin => exact Or.inr ⟨_, hchild, hwithin⟩
  · rintro (rfl | ⟨c, hchild, hwithin⟩)
    · exact .refl d
    · exact .child hchild hwithin

theorem within_constant_iff {d : Expr F} {value : ConstantValue F} :
    d.Within (.constant value) ↔ d = .constant value := by
  rw [within_iff]
  simp [children]

theorem within_unaryOp_iff {d operand : Expr F} {op : UnaryOperator} :
    d.Within (.unaryOp op operand) ↔ d = .unaryOp op operand ∨ d.Within operand := by
  rw [within_iff]
  simp [children]

theorem within_binOp_iff {d left right : Expr F} {op : Operator} :
    d.Within (.binOp left op right) ↔
      d = .binOp left op right ∨ d.Within left ∨ d.Within right := by
  rw [within_iff]
  simp [children]

end Expr

end Ast
