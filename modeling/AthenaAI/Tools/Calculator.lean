import AthenaAI.Python.Number
import AthenaAI.ToMathlib.Logged

/-!
# The calculator

`athenai.tools.calculator`. `_eval_node` walks an expression tree, computes what is on its whitelist
and denies every other node. Whether it denies before it computes is a matter of order, so the walk
keeps a log of the operations that it performs (`Evaluation`).

* `evalNode` is the walk, with the arithmetic operations that it performs on the way, and a bound on
  the frames it may use;
* `Allowed` is the whitelist, and `Denies` that the walk raises a `ToolDeniedError` without having
  performed an operation;
* `Stops` is when the walk comes to a denial before it has computed anything;
* `denies_first_iff`: it `Denies` if and only if it `Stops`; what comes before the first denied node
  are constants then.
-/

open Ast

namespace Calculator

variable {F : Type}

/-- The value of a constant, if `isinstance(v, int | float)`: a `bool` is an `int`. -/
def number? : ConstantValue F → Option (Number F)
  | .bool b => some (.bool b)
  | .int n => some (.int n)
  | .float x => some (.float x)
  | _ => none

/-- `_ALLOWED_BINOPS`. -/
def allowedBinops : List Operator := [.add, .sub, .mult, .div, .pow, .floorDiv, .mod]

/-- An arithmetic operation on its operands. -/
inductive Operation (F : Type) where
  | binary (op : Operator) (left right : Number F)
  | neg (operand : Number F)

/-- An evaluation, with the arithmetic operations that it performs. -/
abbrev Evaluation (F : Type) := Logged (Operation F) PyExc

/-- `raise ToolDeniedError(message)`. -/
def denied (message : PyStr) : Evaluation F (Number F) := throw (.of .ToolDeniedError message)

/-- The last case of `_eval_node`. -/
def disallowed (node : Expr F) : Evaluation F (Number F) :=
  denied ("expression contains disallowed node type: ".toList ++ node.className)

/-- The denial of an operator. -/
def unsupported (op : Operator) : Evaluation F (Number F) :=
  denied ("unsupported operator: ".toList ++ op.className)

/-- The recursion limit is reached. -/
def recursionError : PyExc :=
  .of (.other "RecursionError".toList) "maximum recursion depth exceeded".toList

section Eval

variable (arith : Arithmetic F)

/-- `-v`. -/
def neg : Number F → Number F
  | .bool b => .int (if b then -1 else 0)
  | .int n => .int (-n)
  | .float x => .float (arith.negFloat x)
  | .complex re im => .complex (arith.negFloat re) (arith.negFloat im)

/-- `v == 0`. -/
def isZero : Number F → Bool
  | .bool b => !b
  | .int n => n = 0
  | .float x => arith.isZeroFloat x
  | .complex re im => arith.isZeroFloat re && arith.isZeroFloat im

/-- `lv op rv`. -/
def compute (op : Operator) (lv rv : Number F) : Evaluation F (Number F) :=
  .perform (.binary op lv rv) (arith.binary op lv rv)

/-- What `_eval_node` does with an operator and the values of its operands. -/
def evalBinop (op : Operator) (lv rv : Number F) : Evaluation F (Number F) :=
  match op with
  | .add => compute arith .add lv rv
  | .sub => compute arith .sub lv rv
  | .mult => compute arith .mult lv rv
  | .div =>
    if isZero arith rv then denied "division by zero".toList else compute arith .div lv rv
  | .pow => compute arith .pow lv rv
  | .floorDiv =>
    if isZero arith rv then denied "division by zero".toList else compute arith .floorDiv lv rv
  | .mod => if isZero arith rv then denied "modulo by zero".toList else compute arith .mod lv rv
  | _ => unsupported op

/-- `_eval_node`, with the number of calls that the interpreter still allows to be nested. -/
def evalNode : ℕ → Expr F → Evaluation F (Number F)
  | 0, _ => throw recursionError
  | frames + 1, node =>
    match node with
    | .constant value =>
      match number? value with
      | some v => return v
      | none => disallowed node
    | .binOp left op right =>
      if op ∉ allowedBinops then unsupported op
      else do
        -- the left operand is computed before the right one is looked at
        let lv ← evalNode frames left
        let rv ← evalNode frames right
        evalBinop arith op lv rv
    | .unaryOp .uSub operand => do
      let v ← evalNode frames operand
      .perform (.neg v) (.ok (neg arith v))
    | .unaryOp .uAdd operand => evalNode frames operand
    | _ => disallowed node

end Eval

/-! ## The whitelist -/

/-- A node is on the whitelist. -/
def Allowed : Expr F → Prop
  | .constant value => (number? value).isSome
  | .binOp _ op _ => op ∈ allowedBinops
  | .unaryOp op _ => op = .uAdd ∨ op = .uSub
  | _ => False

/-- There is a node that is not on the whitelist somewhere in the tree. -/
def HasDisallowed (e : Expr F) : Prop := ∃ node : Expr F, node.Within e ∧ ¬Allowed node

/-- The evaluation raises a `ToolDeniedError`, and has not performed an operation. -/
def Denies (arith : Arithmetic F) (frames : ℕ) (e : Expr F) : Prop :=
  ∃ message, evalNode arith frames e = denied message

/-! ## When a denial comes first -/

/-- The number that an expression is without computing: a constant, with unary pluses before it. -/
def constant? : ℕ → Expr F → Option (Number F)
  | _ + 1, .constant value => number? value
  | frames + 1, .unaryOp .uAdd operand => constant? frames operand
  | _, _ => none

/-- The walk comes to a denial before it has computed anything. -/
inductive Stops (arith : Arithmetic F) : ℕ → Expr F → Prop
  | node {frames : ℕ} {node : Expr F} (hnode : ¬Allowed node) : Stops arith (frames + 1) node
  | operand {frames : ℕ} {op : UnaryOperator} {operand : Expr F}
    (hoperand : Stops arith frames operand) :
    Stops arith (frames + 1) (.unaryOp op operand)
  | left {frames : ℕ} {left right : Expr F} {op : Operator} (hleft : Stops arith frames left) :
    Stops arith (frames + 1) (.binOp left op right)
  | right {frames : ℕ} {left right : Expr F} {op : Operator} {lv : Number F}
    (hleft : constant? frames left = some lv) (hright : Stops arith frames right) :
    Stops arith (frames + 1) (.binOp left op right)
  | zero {frames : ℕ} {left right : Expr F} {op : Operator} {lv rv : Number F}
    (hleft : constant? frames left = some lv) (hright : constant? frames right = some rv)
    (hop : op ∈ [Operator.div, .floorDiv, .mod]) (hzero : isZero arith rv) :
    Stops arith (frames + 1) (.binOp left op right)

variable {arith : Arithmetic F} {frames : ℕ}

theorem denied_ne_pure (message : PyStr) (v : Number F) : denied message ≠ pure v :=
  Logged.throw_ne_pure _ _

theorem compute_ne_pure (op : Operator) (lv rv v : Number F) : compute arith op lv rv ≠ pure v :=
  Logged.perform_ne_pure _ _ _

/-- A node that is not `Allowed` is denied before its operands are looked at. -/
theorem denies_of_not_allowed {node : Expr F} (hnode : ¬Allowed node) :
    Denies arith (frames + 1) node := by
  cases node with
  | constant value =>
    have hvalue : number? value = none := Option.not_isSome_iff_eq_none.mp hnode
    refine ⟨"expression contains disallowed node type: Constant".toList, ?_⟩
    rw [evalNode, hvalue]
    rfl
  | binOp left op right => exact ⟨_, if_pos hnode⟩
  | unaryOp op operand =>
    cases op with
    | uAdd => exact absurd (Or.inl rfl) hnode
    | uSub => exact absurd (Or.inr rfl) hnode
    | invert | not => exact ⟨_, rfl⟩
  | _ => exact ⟨_, rfl⟩

/-- `evalNode` of an allowed operation evaluates its operands from left to right, and computes the
operation then. -/
theorem evalNode_binOp {left right : Expr F} {op : Operator} (hop : op ∈ allowedBinops) :
    evalNode arith (frames + 1) (.binOp left op right) =
      evalNode arith frames left >>= fun lv => evalNode arith frames right >>= fun rv =>
        evalBinop arith op lv rv := by
  rw [evalNode]
  exact if_neg (not_not_intro hop)

/-- `evalBinop` never gives a value without an operation of its own: this is what tells a
computation from a constant. -/
theorem evalBinop_ne_pure (op : Operator) (lv rv v : Number F) :
    evalBinop arith op lv rv ≠ pure v := by
  cases op with
  | add | sub | mult | pow => exact compute_ne_pure _ lv rv v
  | div | floorDiv | mod =>
    rw [evalBinop]
    split_ifs
    · exact denied_ne_pure _ v
    · exact compute_ne_pure _ lv rv v
  | _ => exact denied_ne_pure _ v

/-- `evalBinop` denies an allowed operator exactly if it is a division and the right operand is
zero. -/
theorem evalBinop_eq_denied_iff {op : Operator} (hop : op ∈ allowedBinops) {lv rv : Number F} :
    (∃ message, evalBinop arith op lv rv = denied message) ↔
      op ∈ [Operator.div, .floorDiv, .mod] ∧ isZero arith rv := by
  have hcompute (op : Operator) : ¬∃ message, compute arith op lv rv = denied message := by
    rintro ⟨message, h⟩
    exact Logged.perform_ne_throw _ _ _ h
  cases op with
  | add | sub | mult | pow => exact iff_of_false (hcompute _) (by simp)
  | div | floorDiv | mod =>
    rw [evalBinop]
    split_ifs with hzero
    · exact iff_of_true ⟨_, rfl⟩ ⟨by simp, hzero⟩
    · exact iff_of_false (hcompute _) fun h => hzero h.2
  | _ => exact absurd hop (by decide)

/-- An evaluation returns without an operation exactly on the expressions that are numbers
already. -/
theorem evalNode_eq_pure_iff {e : Expr F} {v : Number F} :
    evalNode arith frames e = pure v ↔ constant? frames e = some v := by
  induction frames generalizing e v with
  | zero => exact iff_of_false (Logged.throw_ne_pure _ _) nofun
  | succ frames ih =>
    cases e with
    | constant value =>
      rw [evalNode, constant?]
      cases number? value with
      | none => exact iff_of_false (denied_ne_pure _ v) nofun
      | some v' => exact Logged.pure_injective.eq_iff.trans Option.some_inj.symm
    | binOp left op right =>
      refine iff_of_false (fun h => ?_) nofun
      by_cases hop : op ∈ allowedBinops
      · rw [evalNode_binOp hop, Logged.bind_eq_pure_iff] at h
        obtain ⟨lv, -, h⟩ := h
        obtain ⟨rv, -, h⟩ := Logged.bind_eq_pure_iff.mp h
        exact evalBinop_ne_pure op lv rv v h
      · rw [evalNode, if_pos hop] at h
        exact denied_ne_pure _ v h
    | unaryOp op operand =>
      cases op with
      | uAdd => exact ih
      | uSub =>
        refine iff_of_false (fun h => ?_) nofun
        obtain ⟨w, -, h⟩ := Logged.bind_eq_pure_iff.mp h
        exact Logged.perform_ne_pure _ _ v h
      | invert | not => exact iff_of_false (denied_ne_pure _ v) nofun
    | _ => exact iff_of_false (denied_ne_pure _ v) nofun

/-- A sequence of two is denied before an operation if the first one is, or returns without an
operation and the second one is denied so. -/
theorem bind_eq_denied_iff {x : Evaluation F (Number F)}
    {f : Number F → Evaluation F (Number F)} :
    (∃ message, x >>= f = denied message) ↔
      (∃ message, x = denied message) ∨ ∃ v, x = pure v ∧ ∃ message, f v = denied message := by
  simp only [denied, Logged.bind_eq_throw_iff]
  constructor
  · rintro ⟨message, h | ⟨v, hx, hf⟩⟩
    · exact Or.inl ⟨message, h⟩
    · exact Or.inr ⟨v, hx, message, hf⟩
  · rintro (⟨message, h⟩ | ⟨v, hx, message, hf⟩)
    · exact ⟨message, Or.inl h⟩
    · exact ⟨message, Or.inr ⟨v, hx, hf⟩⟩

/-- An operator is denied before an operation if one of its operands is, and the operand before that
is a number already, or if it divides by a zero. -/
theorem denies_binOp_iff {left right : Expr F} {op : Operator} (hop : op ∈ allowedBinops) :
    Denies arith (frames + 1) (.binOp left op right) ↔
      Denies arith frames left ∨ ∃ lv, constant? frames left = some lv ∧
        (Denies arith frames right ∨ ∃ rv, constant? frames right = some rv ∧
          op ∈ [Operator.div, .floorDiv, .mod] ∧ isZero arith rv) := by
  simp only [Denies, evalNode_binOp hop, bind_eq_denied_iff, evalNode_eq_pure_iff,
    evalBinop_eq_denied_iff hop]

/-- An evaluation that `Denies` comes to a denial before it has computed anything: by induction on
the frames, each node stops where one of its parts does. -/
theorem stops_of_denies {e : Expr F} (hdenies : Denies arith frames e) : Stops arith frames e := by
  induction frames generalizing e with
  | zero =>
    obtain ⟨message, h⟩ := hdenies
    exact absurd (Logged.throw_injective h) (by simp [recursionError, PyExc.of])
  | succ frames ih =>
    by_cases hnode : Allowed e
    · cases e with
      | constant value =>
        obtain ⟨v, hv⟩ := Option.isSome_iff_exists.mp hnode
        obtain ⟨message, h⟩ := hdenies
        rw [evalNode, hv] at h
        exact absurd h (Logged.pure_ne_throw _ _)
      | binOp left op right =>
        rcases (denies_binOp_iff hnode).mp hdenies with hleft | ⟨lv, hlv, hright | hzero⟩
        · exact .left (ih hleft)
        · exact .right hlv (ih hright)
        · obtain ⟨rv, hrv, hop, hzero⟩ := hzero
          exact .zero hlv hrv hop hzero
      | unaryOp op operand =>
        rcases hnode with rfl | rfl
        · exact .operand (ih hdenies)
        · rcases bind_eq_denied_iff.mp hdenies with hoperand | ⟨v, -, message, hneg⟩
          · exact .operand (ih hoperand)
          · exact absurd hneg (Logged.perform_ne_throw _ _ _)
      | _ => exact hnode.elim
    · exact .node hnode

/-- A walk that `Stops` raises a `ToolDeniedError` and has performed no operation: by induction on
where it stops. -/
theorem denies_of_stops {e : Expr F} (hstops : Stops arith frames e) : Denies arith frames e := by
  induction hstops with
  | node hnode => exact denies_of_not_allowed hnode
  | @operand frames op operand _ ih =>
    cases op with
    | uAdd => exact ih
    | uSub => exact bind_eq_denied_iff.mpr (Or.inl ih)
    | invert | not => exact ⟨_, rfl⟩
  | @left frames left right op _ ih =>
    by_cases hop : op ∈ allowedBinops
    · exact (denies_binOp_iff hop).mpr (Or.inl ih)
    · exact denies_of_not_allowed hop
  | @right frames left right op lv hlv _ ih =>
    by_cases hop : op ∈ allowedBinops
    · exact (denies_binOp_iff hop).mpr (Or.inr ⟨lv, hlv, Or.inl ih⟩)
    · exact denies_of_not_allowed hop
  | @zero frames left right op lv rv hlv hrv hdiv hzero =>
    have hop : op ∈ allowedBinops := by
      revert hdiv
      cases op <;> decide
    exact (denies_binOp_iff hop).mpr (Or.inr ⟨lv, hlv, Or.inr ⟨rv, hrv, hdiv, hzero⟩⟩)

/-- For every expression tree and every number of stack frames: the evaluation raises a
`ToolDeniedError` without having performed an operation (`Denies`) if and only if the walk `Stops`,
that is, comes to a denial before it has computed anything. `Stops` is defined on the tree alone, in
the order in which `_eval_node` visits it. -/
theorem denies_first_iff {e : Expr F} : Denies arith frames e ↔ Stops arith frames e :=
  ⟨stops_of_denies, denies_of_stops⟩

/-- Addition, subtraction and multiplication of integers. -/
def integers : Arithmetic Empty where
  binary
    | .add, .int m, .int n => .ok (.int (m + n))
    | .sub, .int m, .int n => .ok (.int (m - n))
    | .mult, .int m, .int n => .ok (.int (m * n))
    | _, _, _ => .error (.of .TypeError "unsupported operand type(s)".toList)
  negFloat := nofun
  isZeroFloat := nofun

/-- `1 + 2 + x`. -/
def sumAndName : Expr Empty :=
  .binOp (.binOp (.constant (.int 1)) .add (.constant (.int 2))) .add (.name "x".toList)

/-- The name is denied, after the sum to the left of it has been computed: operands are evaluated
from left to right, and no node is checked before its turn. -/
theorem sumAndName_not_denies :
    HasDisallowed sumAndName ∧
      (evalNode integers 1000 sumAndName).log = [.binary .add (.int 1) (.int 2)] ∧
      ¬Denies integers 1000 sumAndName := by
  refine ⟨⟨.name "x".toList, .child (List.mem_cons_of_mem _ List.mem_cons_self) (.refl _), id⟩, rfl,
    ?_⟩
  rintro ⟨message, h⟩
  exact nomatch congrArg Logged.log h

end Calculator
