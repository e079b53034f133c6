import AthenaAI.Tools.Calculator

/-!
# The values of the calculator

What `_eval_node` returns and raises, beside what Python's arithmetic gives for the expression.

* `HasValue` is the value of an expression of numbers, the seven binary operators, `-` and `+`;
  `Escapes` is when the walk comes to an operation that has no value, or to the recursion limit.
* `hasValue_of_outcome`, `outcome_of_hasValue`: the walk computes the value, a `bool` for the `int`
  that it is, unless it comes to such an operation.
* `onlyDenials_iff`: it raises nothing but denials and returns no complex number if and only if it
  comes to no such operation, and no negative number is raised to a fractional power.
* `yieldsOnly_iff`: it returns only values of expressions on the whitelist, unless the expression is
  a `bool` with a `+` before it.
-/

open Ast

namespace Calculator

variable {F : Type}

section Values

variable (fl : Floats F)

/-- What `_eval_node` returns or raises. -/
def outcome (frames : ℕ) (e : Expr F) : Except PyExc (Number F) :=
  (evalNode fl.arithmetic frames e).result

/-- The value of an expression, as Python computes it: `+v` of a `bool` is an `int`. -/
inductive HasValue : Expr F → Number F → Prop
  | constant {value : ConstantValue F} {v : Number F} (hvalue : number? value = some v) :
    HasValue (.constant value) v
  | binOp {left right : Expr F} {op : Operator} {lv rv v : Number F} (hop : op ∈ allowedBinops)
    (hleft : HasValue left lv) (hright : HasValue right rv) (hv : fl.binary op lv rv = .ok v) :
    HasValue (.binOp left op right) v
  | neg {operand : Expr F} {v : Number F} (hoperand : HasValue operand v) :
    HasValue (.unaryOp .uSub operand) (neg fl.arithmetic v)
  | pos {operand : Expr F} {v : Number F} (hoperand : HasValue operand v) :
    HasValue (.unaryOp .uAdd operand) v.plain

/-- The walk comes to the recursion limit, or to an operator that has no value and is not denied. -/
inductive Escapes : ℕ → Expr F → Prop
  | deep {e : Expr F} : Escapes 0 e
  | operand {frames : ℕ} {op : UnaryOperator} {operand : Expr F} (hop : op = .uAdd ∨ op = .uSub)
    (hoperand : Escapes frames operand) : Escapes (frames + 1) (.unaryOp op operand)
  | left {frames : ℕ} {left right : Expr F} {op : Operator} (hop : op ∈ allowedBinops)
    (hleft : Escapes frames left) : Escapes (frames + 1) (.binOp left op right)
  | right {frames : ℕ} {left right : Expr F} {op : Operator} {lv : Number F}
    (hop : op ∈ allowedBinops) (hleft : HasValue fl left lv) (hright : Escapes frames right) :
    Escapes (frames + 1) (.binOp left op right)
  | operator {frames : ℕ} {left right : Expr F} {op : Operator} {lv rv : Number F}
    (hop : op ∈ allowedBinops) (hleft : HasValue fl left lv) (hright : HasValue fl right rv)
    (hzero : ¬(op ∈ [Operator.div, .floorDiv, .mod] ∧ isZero fl.arithmetic rv))
    (hraises : fl.Raises op lv rv) : Escapes (frames + 1) (.binOp left op right)

/-- A negative number is raised to a fractional power somewhere in the expression. -/
def HasRoot (e : Expr F) : Prop :=
  ∃ left right lv rv, (Expr.binOp left .pow right).Within e ∧ HasValue fl left lv ∧
    HasValue fl right rv ∧ fl.RootOfNegative lv rv

/-- An exception other than a denial is raised. -/
def RaisesOther (x : Except PyExc (Number F)) : Prop :=
  ∃ exc, x = .error exc ∧ exc.type ≠ .ToolDeniedError

/-- The walk returns no complex number and raises nothing but a `ToolDeniedError`. -/
def OnlyDenials (frames : ℕ) (e : Expr F) : Prop :=
  (∀ v, outcome fl frames e = .ok v → ¬v.IsComplex) ∧
    ∀ exc, outcome fl frames e = .error exc → exc.type = .ToolDeniedError

/-- If the walk returns a value, then every node is on the whitelist and this is the value of the
expression. -/
def YieldsOnly (frames : ℕ) (e : Expr F) : Prop :=
  ∀ v, outcome fl frames e = .ok v →
    (∀ node : Expr F, node.Within e → Allowed node) ∧ HasValue fl e v

end Values

variable {fl : Floats F} {frames : ℕ} {op : Operator} {lv rv : Number F}

/-! ## What the operators do with booleans and zeros -/

/-- Negation does not tell a `bool` from the integer that it is, and its result is no `bool`. -/
@[simp]
theorem neg_plain (v : Number F) : neg fl.arithmetic v.plain = neg fl.arithmetic v := by
  rcases v with (_ | _) | _ | _ | _ <;> rfl

theorem neg_ne_bool (v : Number F) (b : Bool) : neg fl.arithmetic v ≠ .bool b := by
  cases v <;> simp [neg]

@[simp]
theorem isComplex_neg (v : Number F) : (neg fl.arithmetic v).IsComplex ↔ v.IsComplex := by
  cases v <;> simp [neg, Number.IsComplex]

@[simp]
theorem isZero_plain (v : Number F) : isZero fl.arithmetic v.plain = isZero fl.arithmetic v := by
  rcases v with (_ | _) | _ | _ | _ <;> rfl

/-- `binary` does not tell a `bool` operand from the `int` that it is: both have the same `plain`
value. -/
theorem binary_congr {lv' rv' v : Number F} (hleft : lv.plain = lv'.plain)
    (hright : rv.plain = rv'.plain) :
    fl.binary op lv rv = .ok v ↔ fl.binary op lv' rv' = .ok v := by
  rw [← Floats.binary_plain_eq_ok_iff, hleft, hright, Floats.binary_plain_eq_ok_iff]

/-- The conversion to `complex` takes a zero to a zero, so a division by zero stays one. -/
theorem isZero_of_toComplex {z : F × F} (hzero : isZero fl.arithmetic rv)
    (hz : fl.toComplex rv = .ok z) : fl.isZero z.1 ∧ fl.isZero z.2 := by
  cases rv with
  | bool b =>
    obtain ⟨x, hx, h⟩ := Except.bind_eq_ok_iff.mp hz
    obtain rfl := Except.ok.inj h
    have hb : b = false := by simpa [isZero] using hzero
    subst hb
    exact ⟨(fl.isZero_ofInt (Floats.toFloat_eq_ok_iff.mp hx)).mpr rfl, fl.isZero_zero⟩
  | int n =>
    obtain ⟨x, hx, h⟩ := Except.bind_eq_ok_iff.mp hz
    obtain rfl := Except.ok.inj h
    have hn : n = 0 := by simpa [isZero] using hzero
    exact ⟨(fl.isZero_ofInt (Floats.toFloat_eq_ok_iff.mp hx)).mpr hn, fl.isZero_zero⟩
  | float x =>
    obtain rfl := Except.ok.inj hz
    exact ⟨hzero, fl.isZero_zero⟩
  | complex re im =>
    obtain rfl := Except.ok.inj hz
    simpa [isZero, Floats.arithmetic] using hzero

/-- A division by zero `Raises`: none of the three operators has a value there. -/
theorem raises_of_isZero (hop : op ∈ [Operator.div, .floorDiv, .mod])
    (hzero : isZero fl.arithmetic rv) : fl.Raises op lv rv := by
  rw [← isZero_plain] at hzero
  cases hconvert : fl.convert op lv rv with
  | error exc => exact Or.inl (Floats.convert_eq_error_iff.mp ⟨exc, hconvert⟩)
  | ok operands =>
    refine Or.inr ⟨operands, hconvert, ?_⟩
    have hright : fl.ConvertedTo rv operands := Floats.convertedTo_of_convert hconvert
    cases operands with
    | ints m n =>
      rw [hright] at hzero
      exact Or.inl ⟨hop, by simpa [isZero] using hzero⟩
    | floats x y =>
      refine Or.inl ⟨hop, ?_⟩
      rcases hright with h | ⟨n, h, hy⟩
      · rw [h] at hzero
        exact hzero
      · rw [h] at hzero
        exact (fl.isZero_ofInt hy).mpr (by simpa [isZero] using hzero)
    | complexes z u =>
      rw [isZero_plain] at hzero
      have hu := isZero_of_toComplex hzero hright
      simp only [List.mem_cons, List.not_mem_nil, or_false] at hop
      rcases hop with rfl | rfl | rfl
      · exact Or.inr (Or.inr (Or.inl ⟨rfl, hu⟩))
      · exact Or.inl rfl
      · exact Or.inr (Or.inl rfl)

/-! ## One step of the walk -/

/-- One equation of `outcome` for each kind of node that the calculator allows. -/
theorem outcome_binOp {left right : Expr F} (hop : op ∈ allowedBinops) :
    outcome fl (frames + 1) (.binOp left op right) = outcome fl frames left >>= fun lv =>
      outcome fl frames right >>= fun rv => (evalBinop fl.arithmetic op lv rv).result := by
  simp only [outcome, evalNode_binOp hop, Logged.result_bind]

theorem outcome_uSub (operand : Expr F) :
    outcome fl (frames + 1) (.unaryOp .uSub operand) =
      outcome fl frames operand >>= fun v => .ok (neg fl.arithmetic v) := by
  simp only [outcome, evalNode, Logged.result_bind]
  rfl

theorem outcome_constant {value : ConstantValue F} {v : Number F}
    (hvalue : number? value = some v) :
    outcome fl (frames + 1) (.constant value) = .ok v := by
  rw [outcome, evalNode, hvalue]
  rfl

theorem outcome_of_not_allowed (fl : Floats F) (frames : ℕ) {node : Expr F}
    (hnode : ¬Allowed node) :
    ∃ message, outcome fl (frames + 1) node = .error (.of .ToolDeniedError message) := by
  have hdenies : Denies fl.arithmetic (frames + 1) node := denies_of_not_allowed hnode
  obtain ⟨message, h⟩ := hdenies
  exact ⟨message, congrArg Logged.result h⟩

/-- What the walk does at a node, as one case list: it denies it, or it computes it from its
operands. -/
theorem outcome_cases {e : Expr F} {r : Except PyExc (Number F)}
    (h : outcome fl (frames + 1) e = r) :
    (∃ message, r = .error (.of .ToolDeniedError message)) ∨
      (∃ value v, e = .constant value ∧ number? value = some v ∧ r = .ok v) ∨
      (∃ left op right, e = .binOp left op right ∧ op ∈ allowedBinops ∧
        r = outcome fl frames left >>= fun lv => outcome fl frames right >>= fun rv =>
          (evalBinop fl.arithmetic op lv rv).result) ∨
      (∃ operand, e = .unaryOp .uSub operand ∧
        r = outcome fl frames operand >>= fun v => .ok (neg fl.arithmetic v)) ∨
      ∃ operand, e = .unaryOp .uAdd operand ∧ r = outcome fl frames operand := by
  subst h
  by_cases hnode : Allowed e
  · refine Or.inr ?_
    cases e with
    | constant value =>
      obtain ⟨v, hv⟩ := Option.isSome_iff_exists.mp hnode
      exact Or.inl ⟨value, v, rfl, hv, outcome_constant hv⟩
    | binOp left op right =>
      exact Or.inr (Or.inl ⟨left, op, right, rfl, hnode, outcome_binOp hnode⟩)
    | unaryOp op operand =>
      rcases hnode with rfl | rfl
      · exact Or.inr (Or.inr (Or.inr ⟨operand, rfl, rfl⟩))
      · exact Or.inr (Or.inr (Or.inl ⟨operand, rfl, outcome_uSub operand⟩))
    | _ => exact hnode.elim
  · exact Or.inl (outcome_of_not_allowed fl frames hnode)

/-- `evalBinop` answers a division by zero with a `ToolDeniedError` of its own. -/
theorem evalBinop_of_isZero (lv : Number F) (hop : op ∈ [Operator.div, .floorDiv, .mod])
    (hzero : isZero fl.arithmetic rv) :
    ∃ message, (evalBinop fl.arithmetic op lv rv).result =
      .error (.of .ToolDeniedError message) := by
  have hallowed : op ∈ allowedBinops := by
    revert hop
    cases op <;> decide
  have hdenied : ∃ message, evalBinop fl.arithmetic op lv rv = denied message :=
    (evalBinop_eq_denied_iff hallowed).mpr ⟨hop, hzero⟩
  obtain ⟨message, h⟩ := hdenied
  exact ⟨message, congrArg Logged.result h⟩

/-- Where it does not divide by zero, `evalBinop` is the operator of Python, with its exceptions. -/
theorem evalBinop_of_not_isZero (hallowed : op ∈ allowedBinops)
    (hzero : ¬(op ∈ [Operator.div, .floorDiv, .mod] ∧ isZero fl.arithmetic rv)) :
    (evalBinop fl.arithmetic op lv rv).result = fl.binary op lv rv := by
  cases op with
  | add | sub | mult | pow => rfl
  | div | floorDiv | mod =>
    rw [evalBinop, if_neg (by simpa using hzero)]
    rfl
  | _ => exact absurd hallowed (by decide)

/-- An operator `Raises` exactly if it has no value on the operands. -/
theorem raises_iff (hallowed : op ∈ allowedBinops) :
    fl.Raises op lv rv ↔ ∀ v, fl.binary op lv rv ≠ .ok v := by
  refine (Floats.binary_eq_error_iff hallowed).symm.trans ?_
  cases fl.binary op lv rv <;> simp

/-- Whether an operation `Raises` depends on the `plain` operands only. -/
theorem raises_congr {lv' rv' : Number F} (hallowed : op ∈ allowedBinops)
    (hleft : lv.plain = lv'.plain) (hright : rv.plain = rv'.plain) :
    fl.Raises op lv rv ↔ fl.Raises op lv' rv' := by
  simp only [raises_iff hallowed, ne_eq, binary_congr hleft hright]

theorem isZero_congr {rv' : Number F} (hright : rv.plain = rv'.plain) :
    isZero fl.arithmetic rv = isZero fl.arithmetic rv' := by
  rw [← isZero_plain, hright, isZero_plain]

/-- `evalBinop` returns exactly the value that `binary` has, so the check for zero loses none. -/
theorem evalBinop_eq_ok_iff {v : Number F} (hallowed : op ∈ allowedBinops) :
    (evalBinop fl.arithmetic op lv rv).result = .ok v ↔ fl.binary op lv rv = .ok v := by
  by_cases hzero : op ∈ [Operator.div, .floorDiv, .mod] ∧ isZero fl.arithmetic rv
  · obtain ⟨message, h⟩ := evalBinop_of_isZero lv hzero.1 hzero.2
    refine iff_of_false (by simp [h]) fun hv => ?_
    exact (raises_iff hallowed).mp (raises_of_isZero hzero.1 hzero.2) v hv
  · rw [evalBinop_of_not_isZero hallowed hzero]

/-! ## The walk and the value -/

/-- What the walk returns is the value of the expression, or a `bool` in place of the `int` that the
value is. -/
theorem hasValue_of_outcome {e : Expr F} {v : Number F} (h : outcome fl frames e = .ok v) :
    ∃ w, HasValue fl e w ∧ w.plain = v.plain := by
  induction frames generalizing e v with
  | zero => cases h
  | succ frames ih =>
    rcases outcome_cases h with ⟨message, hres⟩ | ⟨value, w, rfl, hw, hres⟩ |
      ⟨left, op, right, rfl, hop, hres⟩ | ⟨operand, rfl, hres⟩ | ⟨operand, rfl, hres⟩
    · cases hres
    · exact ⟨w, .constant hw, congrArg Number.plain (Except.ok.inj hres.symm)⟩
    · obtain ⟨lv, hlv, h⟩ := Except.bind_eq_ok_iff.mp hres.symm
      obtain ⟨rv, hrv, h⟩ := Except.bind_eq_ok_iff.mp h
      obtain ⟨lw, hlw, hl⟩ := ih hlv
      obtain ⟨rw, hrw, hr⟩ := ih hrv
      have hv : fl.binary op lv rv = .ok v := (evalBinop_eq_ok_iff hop).mp h
      exact ⟨v, .binOp hop hlw hrw ((binary_congr hl hr).mpr hv), rfl⟩
    · obtain ⟨u, hu, h⟩ := Except.bind_eq_ok_iff.mp hres.symm
      obtain ⟨w, hw, hplain⟩ := ih hu
      refine ⟨neg fl.arithmetic w, .neg hw, ?_⟩
      rw [← Except.ok.inj h, ← neg_plain w, hplain, neg_plain]
    · obtain ⟨w, hw, hplain⟩ := ih hres.symm
      exact ⟨w.plain, .pos hw, by simpa using hplain⟩

/-- If the expression `HasValue`, the walk returns it, up to a `bool`, or else it `Escapes`. -/
theorem outcome_of_hasValue (frames : ℕ) {e : Expr F} {v : Number F} (h : HasValue fl e v) :
    (∃ u, outcome fl frames e = .ok u ∧ u.plain = v.plain) ∨ Escapes fl frames e := by
  induction h generalizing frames with
  | @constant value v hvalue =>
    cases frames with
    | zero => exact Or.inr .deep
    | succ frames => exact Or.inl ⟨v, outcome_constant hvalue, rfl⟩
  | @binOp left right op lv rv v hop hleft hright hv ihleft ihright =>
    cases frames with
    | zero => exact Or.inr .deep
    | succ frames =>
      rcases @ihleft frames with ⟨lu, hlu, hl⟩ | hescapes
      · rcases @ihright frames with ⟨ru, hru, hr⟩ | hescapes
        · refine Or.inl ⟨v, ?_, rfl⟩
          rw [outcome_binOp hop, hlu, hru]
          exact (evalBinop_eq_ok_iff hop).mpr ((binary_congr hl hr).mpr hv)
        · exact Or.inr (.right hop hleft hescapes)
      · exact Or.inr (.left hop hescapes)
  | @neg operand v _ ih =>
    cases frames with
    | zero => exact Or.inr .deep
    | succ frames =>
      rcases @ih frames with ⟨u, hu, hplain⟩ | hescapes
      · refine Or.inl ⟨Calculator.neg fl.arithmetic u, ?_, ?_⟩
        · rw [outcome_uSub, hu]
          rfl
        · rw [← neg_plain u, hplain, neg_plain]
      · exact Or.inr (.operand (Or.inr rfl) hescapes)
  | @pos operand v _ ih =>
    cases frames with
    | zero => exact Or.inr .deep
    | succ frames =>
      rcases @ih frames with ⟨u, hu, hplain⟩ | hescapes
      · exact Or.inl ⟨u, hu, by simpa using hplain⟩
      · exact Or.inr (.operand (Or.inl rfl) hescapes)

/-- A walk that does not escape raises nothing but a `ToolDeniedError`. -/
theorem denied_or_escapes {e : Expr F} {exc : PyExc} (h : outcome fl frames e = .error exc) :
    exc.type = .ToolDeniedError ∨ Escapes fl frames e := by
  induction frames generalizing e exc with
  | zero => exact Or.inr .deep
  | succ frames ih =>
    rcases outcome_cases h with ⟨message, hres⟩ | ⟨value, w, rfl, hw, hres⟩ |
      ⟨left, op, right, rfl, hop, hres⟩ | ⟨operand, rfl, hres⟩ | ⟨operand, rfl, hres⟩
    · obtain rfl := Except.error.inj hres
      exact Or.inl rfl
    · cases hres
    · rcases Except.bind_eq_error_iff.mp hres.symm with h | ⟨lv, hlv, h⟩
      · exact (ih h).imp_right (.left hop)
      obtain ⟨lw, hlw, hl⟩ := hasValue_of_outcome hlv
      rcases Except.bind_eq_error_iff.mp h with h | ⟨rv, hrv, h⟩
      · exact (ih h).imp_right (.right hop hlw)
      obtain ⟨rw, hrw, hr⟩ := hasValue_of_outcome hrv
      by_cases hzero : op ∈ [Operator.div, .floorDiv, .mod] ∧ isZero fl.arithmetic rv
      · obtain ⟨message, hdenied⟩ := evalBinop_of_isZero lv hzero.1 hzero.2
        obtain rfl := Except.error.inj (h.symm.trans hdenied)
        exact Or.inl rfl
      · rw [evalBinop_of_not_isZero hop hzero] at h
        have hraises : fl.Raises op lv rv := (Floats.binary_eq_error_iff hop).mp ⟨exc, h⟩
        rw [← isZero_congr hr] at hzero
        exact Or.inr (.operator hop hlw hrw hzero ((raises_congr hop hl hr).mpr hraises))
    · rcases Except.bind_eq_error_iff.mp hres.symm with h | ⟨v, -, h⟩
      · exact (ih h).imp_right (.operand (Or.inr rfl))
      · cases h
    · exact (ih hres.symm).imp_right (.operand (Or.inl rfl))

/-- An exception other than a denial ends a chain of steps, in whichever step it is raised. -/
theorem RaisesOther.bind {x : Except PyExc (Number F)}
    {f : Number F → Except PyExc (Number F)} (hx : RaisesOther x) : RaisesOther (x >>= f) := by
  obtain ⟨exc, hexc, htype⟩ := hx
  exact ⟨exc, Except.bind_eq_error_iff.mpr (Or.inl hexc), htype⟩

theorem RaisesOther.bind_of_eq_ok {x : Except PyExc (Number F)} {v : Number F}
    {f : Number F → Except PyExc (Number F)} (hv : x = .ok v) (hf : RaisesOther (f v)) :
    RaisesOther (x >>= f) := by
  obtain ⟨exc, hexc, htype⟩ := hf
  exact ⟨exc, Except.bind_eq_error_iff.mpr (Or.inr ⟨v, hv, hexc⟩), htype⟩

/-- What Python's operators raise is no `ToolDeniedError`, so `execute` does not hide it. -/
theorem raisesOther_of_raises (hallowed : op ∈ allowedBinops) (hraises : fl.Raises op lv rv) :
    RaisesOther (fl.binary op lv rv) := by
  obtain ⟨exc, hexc⟩ := (Floats.binary_eq_error_iff hallowed).mpr hraises
  refine ⟨exc, hexc, ?_⟩
  rintro hdenied
  have htype := Floats.raisesArithmetic_binary exc hexc
  rw [hdenied] at htype
  revert htype
  decide

/-- A walk that `Escapes` raises an exception other than a denial: one of an operation, or the
`RecursionError`. -/
theorem raisesOther_of_escapes {e : Expr F} (h : Escapes fl frames e) :
    RaisesOther (outcome fl frames e) := by
  induction frames generalizing e with
  | zero => exact ⟨recursionError, rfl, by simp [recursionError, PyExc.of]⟩
  | succ frames ih =>
    -- an operand that has a value may escape before what comes after it
    have hoperand {operand : Expr F} {v : Number F} {f : Number F → Except PyExc (Number F)}
        (hv : HasValue fl operand v)
        (hf : ∀ u, u.plain = v.plain → RaisesOther (f u)) :
        RaisesOther (outcome fl frames operand >>= f) := by
      rcases outcome_of_hasValue frames hv with ⟨u, hu, hplain⟩ | hescapes
      · exact .bind_of_eq_ok hu (hf u hplain)
      · exact (ih hescapes).bind
    cases h with
    | operand hop hescapes =>
      rcases hop with rfl | rfl
      · exact ih hescapes
      · rw [outcome_uSub]
        exact (ih hescapes).bind
    | left hop hescapes =>
      rw [outcome_binOp hop]
      exact (ih hescapes).bind
    | right hop hleft hescapes =>
      rw [outcome_binOp hop]
      exact hoperand hleft fun _ _ => (ih hescapes).bind
    | operator hop hleft hright hzero hraises =>
      rw [outcome_binOp hop]
      refine hoperand hleft fun lu hl => hoperand hright fun ru hr => ?_
      rw [← isZero_congr hr] at hzero
      rw [evalBinop_of_not_isZero hop hzero]
      exact raisesOther_of_raises hop ((raises_congr hop hl hr).mpr hraises)

/-! ## Complex values -/

/-- `HasValue` is a partial function: an expression has at most one value. -/
theorem hasValue_unique {e : Expr F} {v w : Number F} (hv : HasValue fl e v)
    (hw : HasValue fl e w) : v = w := by
  induction hv generalizing w with
  | constant hvalue =>
    cases hw with
    | constant hvalue' => exact Option.some.inj (hvalue.symm.trans hvalue')
  | binOp _ _ _ hbinary ihleft ihright =>
    cases hw with
    | binOp _ hleft hright hbinary' =>
      rw [← ihleft hleft, ← ihright hright] at hbinary'
      exact Except.ok.inj (hbinary.symm.trans hbinary')
  | neg _ ih =>
    cases hw with
    | neg hoperand => rw [ih hoperand]
  | pos _ ih =>
    cases hw with
    | pos hoperand => rw [ih hoperand]

theorem not_hasRoot_constant (value : ConstantValue F) : ¬HasRoot fl (.constant value) := by
  rintro ⟨left, right, lv, rv, hwithin, -⟩
  cases Expr.within_constant_iff.mp hwithin

theorem hasRoot_unaryOp_iff {operand : Expr F} {op : UnaryOperator} :
    HasRoot fl (.unaryOp op operand) ↔ HasRoot fl operand := by
  simp [HasRoot, Expr.within_unaryOp_iff]

/-- `HasRoot` of a binary operation: there is a root of a negative number in an operand, or the
operation itself is one. -/
theorem hasRoot_binOp_iff {left right : Expr F} (hleft : HasValue fl left lv)
    (hright : HasValue fl right rv) :
    HasRoot fl (.binOp left op right) ↔
      HasRoot fl left ∨ HasRoot fl right ∨ op = .pow ∧ fl.RootOfNegative lv rv := by
  constructor
  · rintro ⟨left', right', lv', rv', hwithin, hlv', hrv', hroot⟩
    rcases Expr.within_binOp_iff.mp hwithin with h | h | h
    · obtain ⟨rfl, rfl, rfl⟩ := Expr.binOp.inj h
      rw [hasValue_unique hleft hlv', hasValue_unique hright hrv']
      exact Or.inr (Or.inr ⟨rfl, hroot⟩)
    · exact Or.inl ⟨left', right', lv', rv', h, hlv', hrv', hroot⟩
    · exact Or.inr (Or.inl ⟨left', right', lv', rv', h, hlv', hrv', hroot⟩)
  · rintro (⟨left', right', lv', rv', hwithin, h⟩ | ⟨left', right', lv', rv', hwithin, h⟩ | h)
    · exact ⟨left', right', lv', rv', .child (by simp [Expr.children]) hwithin, h⟩
    · exact ⟨left', right', lv', rv', .child (by simp [Expr.children]) hwithin, h⟩
    · obtain ⟨rfl, hroot⟩ := h
      exact ⟨left, right, lv, rv, .refl _, hleft, hright, hroot⟩

/-- The value of an expression is complex exactly if it `HasRoot`: no other operation leaves the
reals. -/
theorem isComplex_iff_hasRoot {e : Expr F} {v : Number F} (h : HasValue fl e v) :
    v.IsComplex ↔ HasRoot fl e := by
  induction h with
  | @constant value v hvalue =>
    refine iff_of_false ?_ (not_hasRoot_constant value)
    rintro ⟨re, im, rfl⟩
    cases value <;> simp [number?] at hvalue
  | binOp hop hleft hright hv ihleft ihright =>
    rw [Floats.isComplex_iff_of_binary hv, hasRoot_binOp_iff hleft hright, ihleft, ihright]
  | neg _ ih => rw [isComplex_neg, hasRoot_unaryOp_iff, ih]
  | pos _ ih => rw [Number.isComplex_plain, hasRoot_unaryOp_iff, ih]

/-! ## Nothing but denials -/

/-- For every expression tree: the walk returns no complex number and raises nothing but denials
(`OnlyDenials`) if and only if it does not come to the recursion limit or to an operation without a
value (`Escapes`), and the expression has no value that a root of a negative number goes into
(`HasRoot`). -/
theorem onlyDenials_iff {e : Expr F} :
    OnlyDenials fl frames e ↔
      ¬Escapes fl frames e ∧ ¬(HasRoot fl e ∧ ∃ v, HasValue fl e v) := by
  constructor
  · rintro ⟨hreal, hdenied⟩
    have hescapes : ¬Escapes fl frames e := by
      intro h
      obtain ⟨exc, hexc, htype⟩ := raisesOther_of_escapes h
      exact htype (hdenied exc hexc)
    refine ⟨hescapes, ?_⟩
    rintro ⟨hroot, v, hv⟩
    obtain ⟨u, hu, hplain⟩ := (outcome_of_hasValue frames hv).resolve_right hescapes
    rw [← isComplex_iff_hasRoot hv, ← Number.isComplex_plain, ← hplain,
      Number.isComplex_plain] at hroot
    exact hreal u hu hroot
  · rintro ⟨hescapes, hroot⟩
    refine ⟨fun v hv hcomplex => ?_, fun exc hexc => ?_⟩
    · obtain ⟨w, hw, hplain⟩ := hasValue_of_outcome hv
      rw [← Number.isComplex_plain, ← hplain, Number.isComplex_plain,
        isComplex_iff_hasRoot hw] at hcomplex
      exact hroot ⟨hcomplex, w, hw⟩
    · exact (denied_or_escapes hexc).resolve_right hescapes

/-- Exact arithmetic in place of the floats; the powers with a fractional exponent are left out. -/
def rationals : Floats ℚ where
  ofInt n := some n
  quotient m n := some (m / n)
  zero := 0
  neg x := -x
  op
    | .add, x, y => x + y
    | .sub, x, y => x - y
    | .mult, x, y => x * y
    | .floorDiv, x, y => (x / y).floor
    | .mod, x, y => x - y * (x / y).floor
    | _, x, y => x / y
  pow x y := if y.den = 1 then some (x ^ y.num) else none
  complexOp
    | .add, z, w => (z.1 + w.1, z.2 + w.2)
    | .sub, z, w => (z.1 - w.1, z.2 - w.2)
    | .mult, z, w => (z.1 * w.1 - z.2 * w.2, z.1 * w.2 + z.2 * w.1)
    | _, z, w =>
      ((z.1 * w.1 + z.2 * w.2) / (w.1 * w.1 + w.2 * w.2),
        (z.2 * w.1 - z.1 * w.2) / (w.1 * w.1 + w.2 * w.2))
  complexPow _ _ := .error .range
  isZero x := x = 0
  isNegative x := x < 0
  isFinite _ := true
  isIntegral x := x.den = 1
  isZero_ofInt h := by simp [← Option.some.inj h]
  isZero_zero := by simp

/-- `0 ** -1`. -/
def zeroToMinusOne : Expr ℚ :=
  .binOp (.constant (.int 0)) .pow (.unaryOp .uSub (.constant (.int 1)))

/-- The power `0 ** -1` raises a `ZeroDivisionError`, which is no denial: only a division is checked
for a zero. -/
theorem zeroToMinusOne_not_onlyDenials : ¬OnlyDenials rationals 1000 zeroToMinusOne := by
  rintro ⟨-, hdenied⟩
  have htype := hdenied
    (Floats.zeroDivision "0.0 cannot be raised to a negative power".toList) rfl
  exact absurd htype (by decide)

/-! ## Values of whitelisted expressions -/

/-- Every node within an expression that `HasValue` is `Allowed`: only whitelisted syntax is ever
computed. -/
theorem allowed_of_hasValue {e node : Expr F} {v : Number F} (h : HasValue fl e v)
    (hwithin : node.Within e) : Allowed node := by
  induction h with
  | constant hvalue =>
    obtain rfl := Expr.within_constant_iff.mp hwithin
    exact Option.isSome_iff_exists.mpr ⟨_, hvalue⟩
  | binOp hop _ _ _ ihleft ihright =>
    rcases Expr.within_binOp_iff.mp hwithin with rfl | hnode | hnode
    · exact hop
    · exact ihleft hnode
    · exact ihright hnode
  | neg _ ih =>
    rcases Expr.within_unaryOp_iff.mp hwithin with rfl | hnode
    · exact Or.inr rfl
    · exact ih hnode
  | pos _ ih =>
    rcases Expr.within_unaryOp_iff.mp hwithin with rfl | hnode
    · exact Or.inl rfl
    · exact ih hnode

/-- The walk returns a `bool` exactly where it has found a constant `bool` behind unary pluses. -/
theorem outcome_eq_bool_iff {e : Expr F} {b : Bool} :
    outcome fl frames e = .ok (.bool b) ↔ constant? frames e = some (.bool b) := by
  constructor
  · intro h
    induction frames generalizing e with
    | zero => cases h
    | succ frames ih =>
      rcases outcome_cases h with ⟨message, hres⟩ | ⟨value, w, rfl, hw, hres⟩ |
        ⟨left, op, right, rfl, hop, hres⟩ | ⟨operand, rfl, hres⟩ | ⟨operand, rfl, hres⟩
      · cases hres
      · obtain rfl := Except.ok.inj hres
        exact hw
      · obtain ⟨lv, -, h⟩ := Except.bind_eq_ok_iff.mp hres.symm
        obtain ⟨rv, -, h⟩ := Except.bind_eq_ok_iff.mp h
        exact absurd ((evalBinop_eq_ok_iff hop).mp h) Floats.binary_ne_bool
      · obtain ⟨v, -, h⟩ := Except.bind_eq_ok_iff.mp hres.symm
        exact absurd (Except.ok.inj h) (neg_ne_bool v b)
      · exact ih hres.symm
  · exact fun h => congrArg Logged.result (evalNode_eq_pure_iff.mpr h)

/-- Only a constant has a `bool` for its value: every operation makes a number of it. -/
theorem eq_constant_of_hasValue_bool {e : Expr F} {b : Bool} (h : HasValue fl e (.bool b)) :
    ∃ value, e = .constant value ∧ number? value = some (.bool b) := by
  generalize hv : Number.bool b = v at h
  cases h with
  | constant hvalue => exact ⟨_, rfl, hvalue⟩
  | binOp _ _ _ hbinary => exact absurd (hv ▸ hbinary) Floats.binary_ne_bool
  | neg _ => exact absurd hv.symm (neg_ne_bool _ b)
  | pos _ => exact absurd hv.symm (Number.plain_ne_bool _ b)

/-- What the walk returns is the value of the expression, if it is not a `bool` from behind a
`+`. -/
theorem hasValue_or_bool {e : Expr F} {v : Number F} (h : outcome fl frames e = .ok v) :
    HasValue fl e v ∨ ∃ operand b, e = .unaryOp .uAdd operand ∧ v = .bool b := by
  by_cases hbool : ∃ b, v = .bool b
  · obtain ⟨b, rfl⟩ := hbool
    have hconstant : constant? frames e = some (.bool b) := outcome_eq_bool_iff.mp h
    revert hconstant
    fun_cases constant? frames e with
    | case1 frames value => exact fun hvalue => Or.inl (.constant hvalue)
    | case2 frames operand => exact fun _ => Or.inr ⟨operand, b, rfl, rfl⟩
    | case3 => exact nofun
  · push Not at hbool
    obtain ⟨w, hw, hplain⟩ := hasValue_of_outcome h
    rw [Number.plain_of_ne_bool hbool, Number.plain_of_ne_bool] at hplain
    · exact Or.inl (hplain ▸ hw)
    · rintro b rfl
      obtain ⟨value, rfl, hvalue⟩ := eq_constant_of_hasValue_bool hw
      obtain ⟨frames, rfl⟩ : ∃ k, frames = k + 1 := by
        cases frames with
        | zero => cases h
        | succ frames => exact ⟨frames, rfl⟩
      exact hbool b (Except.ok.inj (h.symm.trans (outcome_constant hvalue)))

/-- For every expression tree: the walk yields values of whitelisted expressions only, and those
that Python gives (`YieldsOnly`), if and only if the tree is not a `bool` with a unary plus before
it. There `_eval_node` returns the `bool` itself, where Python gives an integer. -/
theorem yieldsOnly_iff {e : Expr F} :
    YieldsOnly fl frames e ↔
      ¬∃ operand b, e = .unaryOp .uAdd operand ∧ constant? frames e = some (.bool b) := by
  constructor
  · rintro honly ⟨operand, b, rfl, hconstant⟩
    obtain ⟨-, hvalue⟩ := honly (.bool b) (outcome_eq_bool_iff.mpr hconstant)
    generalize hv : Number.bool b = v at hvalue
    cases hvalue with
    | pos _ => exact Number.plain_ne_bool _ b hv.symm
  · intro hbool v hv
    rcases hasValue_or_bool hv with hvalue | ⟨operand, b, rfl, rfl⟩
    · exact ⟨fun node hwithin => allowed_of_hasValue hvalue hwithin, hvalue⟩
    · exact absurd ⟨operand, b, rfl, outcome_eq_bool_iff.mp hv⟩ hbool

/-- The walk gives `True` for `+True`, where Python gives `1`: the unary plus returns its operand as
it is. -/
theorem plusTrue_not_yieldsOnly :
    ¬YieldsOnly rationals 1000 (.unaryOp .uAdd (.constant (.bool true))) := by
  intro honly
  obtain ⟨-, hvalue⟩ := honly (.bool true) rfl
  obtain ⟨value, hconstant, -⟩ := eq_constant_of_hasValue_bool hvalue
  cases hconstant

end Calculator
