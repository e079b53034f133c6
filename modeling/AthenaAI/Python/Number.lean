import AthenaAI.Python.Ast
import AthenaAI.Python.Value
import AthenaAI.ToMathlib.Except

/-!
# Numbers

Python's numbers and the arithmetic operators on them, as the language reference has them: a `bool`
counts as an `int`; where one operand is a `complex` or a `float`, the other one is converted.

* `Floats` is the floating point arithmetic of the interpreter. It is a parameter: what is defined
  here is which operation the operators lead to, and which exceptions they raise.
* `Floats.binary` are the seven arithmetic operators.
* `Floats.binary_eq_error_iff`: when an operator raises; what it raises is an exception of Python's
  arithmetic (`Floats.raisesArithmetic_binary`).
* `Floats.isComplex_iff_of_binary`: when its value is a complex number.
-/

open Ast

/-- A number of Python; `F` is the type of the floats. -/
inductive Number (F : Type) where
  | bool (b : Bool)
  | int (n : ℤ)
  | float (x : F)
  | complex (re im : F)

/-- Python's arithmetic on numbers. -/
structure Arithmetic (F : Type) where
  /-- A binary operator. -/
  binary : Operator → Number F → Number F → Except PyExc (Number F)
  /-- `-x` of a float. -/
  negFloat : F → F
  /-- `x == 0` of a float. -/
  isZeroFloat : F → Bool

namespace Number

variable {F : Type}

/-- A `bool` as the `int` that it is, other numbers as they are: what `+v` gives. -/
def plain : Number F → Number F
  | .bool b => .int (if b then 1 else 0)
  | v => v

/-- The name of the class. -/
def className : Number F → PyStr
  | .bool _ => "bool".toList
  | .int _ => "int".toList
  | .float _ => "float".toList
  | .complex _ _ => "complex".toList

/-- The number is complex. -/
def IsComplex (v : Number F) : Prop := ∃ re im, v = .complex re im

/-- `plain` turns a `bool` into the integer that it is, once for all. -/
@[simp]
theorem plain_plain (v : Number F) : v.plain.plain = v.plain := by cases v <;> rfl

@[simp]
theorem plain_int (n : ℤ) : (int n : Number F).plain = int n := rfl

@[simp]
theorem plain_float (x : F) : (float x).plain = float x := rfl

@[simp]
theorem plain_complex (re im : F) : (complex re im).plain = complex re im := rfl

/-- Any other number stays as it is, and none becomes a `bool`. -/
theorem plain_of_ne_bool {v : Number F} (hv : ∀ b, v ≠ bool b) : v.plain = v := by
  cases v with
  | bool b => exact absurd rfl (hv b)
  | _ => rfl

theorem plain_ne_bool (v : Number F) (b : Bool) : v.plain ≠ bool b := by
  cases v <;> exact nofun

theorem plain_of_not_isComplex {v : Number F} (hreal : ¬v.IsComplex) :
    (∃ n, v.plain = .int n) ∨ ∃ x, v.plain = .float x := by
  cases v with
  | bool b => exact Or.inl ⟨_, rfl⟩
  | int n => exact Or.inl ⟨n, rfl⟩
  | float x => exact Or.inr ⟨x, rfl⟩
  | complex re im => exact absurd ⟨re, im, rfl⟩ hreal

@[simp]
theorem isComplex_plain (v : Number F) : v.plain.IsComplex ↔ v.IsComplex := by
  cases v <;> simp [IsComplex, plain]

end Number

/-- How the power of complex numbers fails. -/
inductive Errno where
  /-- It divides by a number that is zero, or has become it. -/
  | domain
  /-- It is too large. -/
  | range

/-- The floating point arithmetic of an interpreter. A complex number is a pair. -/
structure Floats (F : Type) where
  /-- `float(n)`, if `n` is not too large. -/
  ofInt : ℤ → Option F
  /-- `m / n` of integers for `n` not zero, if it is not too large. -/
  quotient : ℤ → ℤ → Option F
  /-- `0.0`. -/
  zero : F
  /-- `-x`. -/
  neg : F → F
  /-- `x op y` for `+`, `-`, `*`, and for `/`, `//` and `%` where `y` is not zero. -/
  op : Operator → F → F → F
  /-- `x ** y` where it is a float, if it is in range. -/
  pow : F → F → Option F
  /-- `z op w` of complex numbers for `+`, `-`, `*`, and for `/` where `w` is not zero. -/
  complexOp : Operator → F × F → F × F → F × F
  /-- `z ** w` of complex numbers, where `z` is not zero or `w` is a real number that is not
  negative. -/
  complexPow : F × F → F × F → Except Errno (F × F)
  /-- `x == 0`. -/
  isZero : F → Bool
  /-- `x < 0`. -/
  isNegative : F → Bool
  /-- Neither infinite nor a NaN. -/
  isFinite : F → Bool
  /-- `x == floor(x)`. -/
  isIntegral : F → Bool
  /-- Only the integer zero is a zero as a `float`. -/
  isZero_ofInt {n : ℤ} {x : F} : ofInt n = some x → (isZero x = true ↔ n = 0)
  /-- `0.0 == 0`. -/
  isZero_zero : isZero zero = true

/-- The operands of an operator, of a common type. -/
inductive Operands (F : Type) where
  | ints (m n : ℤ)
  | floats (x y : F)
  | complexes (z w : F × F)

namespace Floats

variable {F : Type} (fl : Floats F)

/-- `ZeroDivisionError(message)`. -/
def zeroDivision (message : PyStr) : PyExc := .of (.other "ZeroDivisionError".toList) message

/-- `OverflowError(message)`. -/
def overflow (message : PyStr) : PyExc := .of (.other "OverflowError".toList) message

/-- The error for operands that have no such operator. -/
def unsupportedOperands (symbol : PyStr) (v w : Number F) : PyExc :=
  .of .TypeError ("unsupported operand type(s) for ".toList ++ symbol ++ ": '".toList ++
    v.className ++ "' and '".toList ++ w.className ++ "'".toList)

/-- An `int` converted to a `float`. -/
def toFloat (n : ℤ) : Except PyExc F :=
  match fl.ofInt n with
  | some x => .ok x
  | none => .error (overflow "int too large to convert to float".toList)

/-- A number converted to a `complex`. -/
def toComplex : Number F → Except PyExc (F × F)
  | .bool b => do return (← fl.toFloat (if b then 1 else 0), fl.zero)
  | .int n => do return (← fl.toFloat n, fl.zero)
  | .float x => .ok (x, fl.zero)
  | .complex re im => .ok (re, im)

/-- The operands, converted to a common type. -/
def convert (op : Operator) (v w : Number F) : Except PyExc (Operands F) :=
  match v.plain, w.plain with
  | .int m, .int n =>
    -- a negative power of an `int` is one of floats
    if op = .pow ∧ n < 0 then do return .floats (← fl.toFloat m) (← fl.toFloat n)
    else .ok (.ints m n)
  | .float x, .float y => .ok (.floats x y)
  | .int m, .float y => do return .floats (← fl.toFloat m) y
  | .float x, .int n => do return .floats x (← fl.toFloat n)
  | _, _ =>
    if op = .floorDiv then .error (unsupportedOperands "//".toList v w)
    else if op = .mod then .error (unsupportedOperands "%".toList v w)
    else do return .complexes (← fl.toComplex v) (← fl.toComplex w)

/-- `z ** w` of complex numbers. -/
def powComplex (z w : F × F) : Except PyExc (Number F) :=
  if fl.isZero z.1 && fl.isZero z.2 && (!fl.isZero w.2 || fl.isNegative w.1) then
    .error (zeroDivision "0.0 to a negative or complex power".toList)
  else
    match fl.complexPow z w with
    | .ok u => .ok (.complex u.1 u.2)
    | .error .domain => .error (zeroDivision "0.0 to a negative or complex power".toList)
    | .error .range => .error (overflow "complex exponentiation".toList)

/-- The power of a negative number with a fractional exponent. -/
def isRoot (x y : F) : Bool :=
  fl.isNegative x && fl.isFinite x && fl.isFinite y && !fl.isIntegral y

/-- `x ** y` of floats. -/
def powFloat (x y : F) : Except PyExc (Number F) :=
  if fl.isZero x && fl.isFinite y && fl.isNegative y then
    .error (zeroDivision "0.0 cannot be raised to a negative power".toList)
  else if fl.isRoot x y then fl.powComplex (x, fl.zero) (y, fl.zero)
  else
    match fl.pow x y with
    | some z => .ok (.float z)
    | none => .error (overflow "(34, 'Numerical result out of range')".toList)

/-- An operator on two integers. -/
def intOp (op : Operator) (m n : ℤ) : Except PyExc (Number F) :=
  match op with
  | .add => .ok (.int (m + n))
  | .sub => .ok (.int (m - n))
  | .mult => .ok (.int (m * n))
  | .pow => .ok (.int (m ^ n.toNat))
  | .div =>
    if n = 0 then .error (zeroDivision "division by zero".toList)
    else
      match fl.quotient m n with
      | some x => .ok (.float x)
      | none => .error (overflow "integer division result too large for a float".toList)
  | .floorDiv =>
    if n = 0 then .error (zeroDivision "integer division or modulo by zero".toList)
    else .ok (.int (m.fdiv n))
  | .mod =>
    if n = 0 then .error (zeroDivision "integer modulo by zero".toList)
    else .ok (.int (m.fmod n))
  -- the other operators are not arithmetic
  | _ => .error (unsupportedOperands op.className (.int m : Number F) (.int n))

/-- An operator on two floats. -/
def floatOp (op : Operator) (x y : F) : Except PyExc (Number F) :=
  match op with
  | .add | .sub | .mult => .ok (.float (fl.op op x y))
  | .pow => fl.powFloat x y
  | .div =>
    if fl.isZero y then .error (zeroDivision "float division by zero".toList)
    else .ok (.float (fl.op .div x y))
  | .floorDiv =>
    if fl.isZero y then .error (zeroDivision "float floor division by zero".toList)
    else .ok (.float (fl.op .floorDiv x y))
  | .mod =>
    if fl.isZero y then .error (zeroDivision "float modulo".toList)
    else .ok (.float (fl.op .mod x y))
  | _ => .error (unsupportedOperands op.className (.float x) (.float y))

/-- An operator on two complex numbers. -/
def complexNumberOp (op : Operator) (z w : F × F) : Except PyExc (Number F) :=
  match op with
  | .add | .sub | .mult => .ok (.complex (fl.complexOp op z w).1 (fl.complexOp op z w).2)
  | .pow => fl.powComplex z w
  | .div =>
    if fl.isZero w.1 && fl.isZero w.2 then
      .error (zeroDivision "complex division by zero".toList)
    else .ok (.complex (fl.complexOp .div z w).1 (fl.complexOp .div z w).2)
  | _ => .error (unsupportedOperands op.className (.complex z.1 z.2) (.complex w.1 w.2))

/-- An operator on converted operands. -/
def apply (op : Operator) : Operands F → Except PyExc (Number F)
  | .ints m n => fl.intOp op m n
  | .floats x y => fl.floatOp op x y
  | .complexes z w => fl.complexNumberOp op z w

/-- `v op w`. -/
def binary (op : Operator) (v w : Number F) : Except PyExc (Number F) := do
  fl.apply op (← fl.convert op v w)

/-- The arithmetic of an interpreter with these floats. -/
def arithmetic : Arithmetic F where
  binary := fl.binary
  negFloat := fl.neg
  isZeroFloat := fl.isZero

/-! ## When an operator raises -/

/-- An integer that is too large for a `float`. -/
def TooLarge (v : Number F) : Prop := ∃ n, v.plain = .int n ∧ fl.ofInt n = none

/-- The operands are converted to floats or complex numbers, unless they are of that type already:
they are not both integers, or the operator is a negative power. -/
def NeedsFloats (op : Operator) (v w : Number F) : Prop :=
  ∀ m n, v.plain = .int m → w.plain = .int n → op = .pow ∧ n < 0

/-- The operands have no common type that has the operator. -/
def Unconvertible (op : Operator) (v w : Number F) : Prop :=
  (v.IsComplex ∨ w.IsComplex) ∧ (op = .floorDiv ∨ op = .mod) ∨
    NeedsFloats op v w ∧ (fl.TooLarge v ∨ fl.TooLarge w)

/-- The power of complex numbers divides by zero, or is out of range. -/
def PowComplexFails (z w : F × F) : Prop :=
  (fl.isZero z.1 ∧ fl.isZero z.2 ∧ (¬fl.isZero w.2 ∨ fl.isNegative w.1)) ∨
    ∃ errno, fl.complexPow z w = .error errno

/-- The power of floats divides by zero, or is out of range. -/
def PowFails (x y : F) : Prop :=
  (fl.isZero x ∧ fl.isFinite y ∧ fl.isNegative y) ∨
    (fl.isRoot x y ∧ fl.PowComplexFails (x, fl.zero) (y, fl.zero)) ∨
    (¬fl.isRoot x y ∧ fl.pow x y = none)

/-- The operator has no value on these operands. -/
def Fails (op : Operator) : Operands F → Prop
  | .ints m n =>
    (op ∈ [Operator.div, .floorDiv, .mod] ∧ n = 0) ∨ (op = .div ∧ fl.quotient m n = none)
  | .floats x y =>
    (op ∈ [Operator.div, .floorDiv, .mod] ∧ fl.isZero y) ∨ (op = .pow ∧ fl.PowFails x y)
  | .complexes z w =>
    op = .floorDiv ∨ op = .mod ∨ (op = .div ∧ fl.isZero w.1 ∧ fl.isZero w.2) ∨
      (op = .pow ∧ fl.PowComplexFails z w)

/-- `v op w` has no value. -/
def Raises (op : Operator) (v w : Number F) : Prop :=
  fl.Unconvertible op v w ∨ ∃ operands, fl.convert op v w = .ok operands ∧ fl.Fails op operands

variable {fl} {op : Operator} {v w : Number F}

/-- `float` of an integer raises exactly if the integer is too large for one. -/
theorem toFloat_eq_error_iff {n : ℤ} :
    (∃ exc, fl.toFloat n = .error exc) ↔ fl.ofInt n = none := by
  rw [toFloat]
  cases fl.ofInt n <;> simp

/-- For an integer that is what `TooLarge` says. -/
theorem tooLarge_iff_of_int {n : ℤ} (hv : v.plain = .int n) :
    fl.TooLarge v ↔ fl.ofInt n = none := by
  simp [TooLarge, hv]

theorem not_tooLarge_of_float {x : F} (hv : v.plain = .float x) : ¬fl.TooLarge v := by
  simp [TooLarge, hv]

/-- `complex` raises exactly for what is `TooLarge`. -/
theorem toComplex_eq_error_iff : (∃ exc, fl.toComplex v = .error exc) ↔ fl.TooLarge v := by
  cases v with
  | bool b =>
    rw [tooLarge_iff_of_int (v := .bool b) rfl]
    simpa [toComplex, Except.map_eq_error_iff] using toFloat_eq_error_iff
  | int n =>
    rw [tooLarge_iff_of_int (v := .int n) rfl]
    simpa [toComplex, Except.map_eq_error_iff] using toFloat_eq_error_iff
  | float x => simp [toComplex, TooLarge]
  | complex re im => simp [toComplex, TooLarge]

theorem toComplex_plain : fl.toComplex v.plain = fl.toComplex v := by
  cases v <;> rfl

/-- With a complex operand both are converted to complex numbers, except for `//` and `%`, which
complex numbers do not have. -/
theorem convert_of_isComplex (h : v.IsComplex ∨ w.IsComplex) :
    fl.convert op v w =
      if op = .floorDiv then .error (unsupportedOperands "//".toList v w)
      else if op = .mod then .error (unsupportedOperands "%".toList v w)
      else do return .complexes (← fl.toComplex v) (← fl.toComplex w) := by
  rcases h with ⟨re, im, rfl⟩ | ⟨re, im, rfl⟩
  · cases w <;> rfl
  · cases v <;> rfl

/-- With a complex operand, both have been converted to complex numbers. -/
theorem exists_of_convert_of_isComplex {operands : Operands F}
    (hcomplex : v.IsComplex ∨ w.IsComplex) (h : fl.convert op v w = .ok operands) :
    ∃ z z', fl.toComplex v = .ok z ∧ fl.toComplex w = .ok z' ∧ operands = .complexes z z' := by
  rw [convert_of_isComplex hcomplex] at h
  split_ifs at h
  obtain ⟨z, hz, h⟩ := Except.bind_eq_ok_iff.mp h
  obtain ⟨z', hz', h⟩ := Except.bind_eq_ok_iff.mp h
  exact ⟨z, z', hz, hz', (Except.ok.inj h).symm⟩

/-- With a complex operand, the other one is converted. -/
theorem needsFloats_of_isComplex (h : v.IsComplex ∨ w.IsComplex) : NeedsFloats op v w := by
  intro m n hv hw
  rcases h with ⟨re, im, rfl⟩ | ⟨re, im, rfl⟩
  · cases hv
  · cases hw

/-- A sequence of two conversions fails exactly if one of them does. -/
theorem convert_both_eq_error_iff {α β : Type} {x y : Except PyExc α} {f : α → α → β} :
    (∃ exc, (do return f (← x) (← y)) = Except.error exc) ↔
      (∃ exc, x = .error exc) ∨ ∃ exc, y = .error exc := by
  cases x <;> cases y <;> simp [bind, Except.bind, pure, Except.pure]

/-- The conversion of the two operands raises exactly if they are `Unconvertible` for the
operation. -/
theorem convert_eq_error_iff :
    (∃ exc, fl.convert op v w = .error exc) ↔ fl.Unconvertible op v w := by
  by_cases hcomplex : v.IsComplex ∨ w.IsComplex
  · rw [convert_of_isComplex hcomplex]
    have hneeds : NeedsFloats op v w := needsFloats_of_isComplex hcomplex
    split_ifs with hfloor hmod
    · exact iff_of_true ⟨_, rfl⟩ (Or.inl ⟨hcomplex, Or.inl hfloor⟩)
    · exact iff_of_true ⟨_, rfl⟩ (Or.inl ⟨hcomplex, Or.inr hmod⟩)
    · rw [convert_both_eq_error_iff, toComplex_eq_error_iff, toComplex_eq_error_iff]
      simp [Unconvertible, hfloor, hmod, hneeds]
  · obtain ⟨hreal, hreal'⟩ := not_or.mp hcomplex
    rcases Number.plain_of_not_isComplex hreal with ⟨m, hv⟩ | ⟨x, hv⟩ <;>
      rcases Number.plain_of_not_isComplex hreal' with ⟨n, hw⟩ | ⟨y, hw⟩
    · have hneeds : NeedsFloats op v w ↔ op = .pow ∧ n < 0 := by simp [NeedsFloats, hv, hw]
      simp only [convert, hv, hw, Unconvertible, hcomplex, false_and, false_or, hneeds,
        tooLarge_iff_of_int hv, tooLarge_iff_of_int hw, ← toFloat_eq_error_iff]
      split_ifs with hpow
      · rw [convert_both_eq_error_iff, and_iff_right hpow]
      · exact iff_of_false (by simp) (fun h => hpow h.1)
    · have hneeds : NeedsFloats op v w := by simp [NeedsFloats, hw]
      simp [convert, hv, hw, Unconvertible, hcomplex, hneeds, tooLarge_iff_of_int hv,
        not_tooLarge_of_float hw, Except.map_eq_error_iff, toFloat_eq_error_iff]
    · have hneeds : NeedsFloats op v w := by simp [NeedsFloats, hv]
      simp [convert, hv, hw, Unconvertible, hcomplex, hneeds, tooLarge_iff_of_int hw,
        not_tooLarge_of_float hv, Except.map_eq_error_iff, toFloat_eq_error_iff]
    · simp [convert, hv, hw, Unconvertible, hcomplex, not_tooLarge_of_float hv,
        not_tooLarge_of_float hw]

/-- What `float` makes of an integer is the parameter `ofInt` of the format. -/
theorem toFloat_eq_ok_iff {n : ℤ} {x : F} : fl.toFloat n = .ok x ↔ fl.ofInt n = some x := by
  rw [toFloat]
  cases fl.ofInt n <;> simp

/-- What the second operand has been converted to. -/
def ConvertedTo (w : Number F) : Operands F → Prop
  | .ints _ n => w.plain = .int n
  | .floats _ y => w.plain = .float y ∨ ∃ n, w.plain = .int n ∧ fl.ofInt n = some y
  | .complexes _ u => fl.toComplex w = .ok u

/-- Without a complex number among them, the operands are converted to integers or floats, the
second one as `ConvertedTo` says. -/
theorem convertedTo_of_not_isComplex {operands : Operands F}
    (hcomplex : ¬(v.IsComplex ∨ w.IsComplex)) (h : fl.convert op v w = .ok operands) :
    fl.ConvertedTo w operands ∧ ¬∃ z z', operands = .complexes z z' := by
  obtain ⟨hreal, hreal'⟩ := not_or.mp hcomplex
  rcases Number.plain_of_not_isComplex hreal with ⟨m, hv⟩ | ⟨x, hv⟩ <;>
    rcases Number.plain_of_not_isComplex hreal' with ⟨n, hw⟩ | ⟨y, hw⟩
  all_goals simp only [convert, hv, hw] at h
  · split_ifs at h
    · obtain ⟨x, -, h⟩ := Except.bind_eq_ok_iff.mp h
      obtain ⟨y, hy, h⟩ := Except.bind_eq_ok_iff.mp h
      obtain rfl := Except.ok.inj h
      exact ⟨Or.inr ⟨n, hw, toFloat_eq_ok_iff.mp hy⟩, nofun⟩
    · obtain rfl := Except.ok.inj h
      exact ⟨hw, nofun⟩
  · obtain ⟨x, -, h⟩ := Except.bind_eq_ok_iff.mp h
    obtain rfl := Except.ok.inj h
    exact ⟨Or.inl hw, nofun⟩
  · obtain ⟨y, hy, h⟩ := Except.bind_eq_ok_iff.mp h
    obtain rfl := Except.ok.inj h
    exact ⟨Or.inr ⟨n, hw, toFloat_eq_ok_iff.mp hy⟩, nofun⟩
  · obtain rfl := Except.ok.inj h
    exact ⟨Or.inl hw, nofun⟩

/-- What the conversion makes of the two operands is what `ConvertedTo` says. -/
theorem convertedTo_of_convert {operands : Operands F} (h : fl.convert op v w = .ok operands) :
    fl.ConvertedTo w operands := by
  by_cases hcomplex : v.IsComplex ∨ w.IsComplex
  · obtain ⟨z, u, -, hu, rfl⟩ := exists_of_convert_of_isComplex hcomplex h
    exact hu
  · exact (convertedTo_of_not_isComplex hcomplex h).1

theorem powComplex_eq_error_iff {z w : F × F} :
    (∃ exc, fl.powComplex z w = .error exc) ↔ fl.PowComplexFails z w := by
  rw [powComplex, PowComplexFails]
  split_ifs with hzero
  · exact iff_of_true ⟨_, rfl⟩ (Or.inl (by simpa [and_assoc] using hzero))
  · rw [or_iff_right (by simpa [and_assoc] using hzero)]
    split <;> simp [*]

theorem powFloat_eq_error_iff {x y : F} :
    (∃ exc, fl.powFloat x y = .error exc) ↔ fl.PowFails x y := by
  rw [powFloat, PowFails]
  split_ifs with hzero hroot
  · exact iff_of_true ⟨_, rfl⟩ (Or.inl (by simpa [and_assoc] using hzero))
  · rw [or_iff_right (by simpa [and_assoc] using hzero), powComplex_eq_error_iff]
    simp [hroot]
  · rw [or_iff_right (by simpa [and_assoc] using hzero)]
    split <;> simp [*]

/-- The operators that are modelled. -/
def operators : List Operator := [.add, .sub, .mult, .div, .pow, .floorDiv, .mod]

/-- An operator has no value on converted operands exactly if it `Fails` on them: a division by
zero, an overflow, or a power that is out of range. -/
theorem apply_eq_error_iff {operands : Operands F} (hop : op ∈ operators) :
    (∃ exc, fl.apply op operands = .error exc) ↔ fl.Fails op operands := by
  cases operands with
  | ints m n =>
    cases op with
    | add | sub | mult | pow => simp [apply, intOp, Fails]
    | floorDiv | mod => by_cases hn : n = 0 <;> simp [apply, intOp, Fails, hn]
    | div =>
      by_cases hn : n = 0
      · simp [apply, intOp, Fails, hn]
      · cases hquotient : fl.quotient m n <;> simp [apply, intOp, Fails, hn, hquotient]
    | _ => exact absurd hop (by decide)
  | floats x y =>
    cases op with
    | add | sub | mult => simp [apply, floatOp, Fails]
    | pow => simp [apply, floatOp, Fails, powFloat_eq_error_iff]
    | div | floorDiv | mod => by_cases hy : fl.isZero y <;> simp [apply, floatOp, Fails, hy]
    | _ => exact absurd hop (by decide)
  | complexes z w =>
    cases op with
    | add | sub | mult => simp [apply, complexNumberOp, Fails]
    | pow => simp [apply, complexNumberOp, Fails, powComplex_eq_error_iff]
    | div =>
      by_cases hw : fl.isZero w.1 ∧ fl.isZero w.2 <;> simp [apply, complexNumberOp, Fails, hw]
    | floorDiv | mod => simp [apply, complexNumberOp, Fails]
    | _ => exact absurd hop (by decide)

/-- An operator of the calculator raises exactly if it `Raises`, which is said of the operands as
they are given: they cannot be converted, or it fails on what they are converted to. -/
theorem binary_eq_error_iff (hop : op ∈ operators) :
    (∃ exc, fl.binary op v w = .error exc) ↔ fl.Raises op v w := by
  simp only [binary, Except.bind_eq_error_iff, exists_or, Raises, convert_eq_error_iff]
  apply or_congr_right
  constructor
  · rintro ⟨exc, operands, hconvert, hexc⟩
    exact ⟨operands, hconvert, (apply_eq_error_iff hop).mp ⟨exc, hexc⟩⟩
  · rintro ⟨operands, hconvert, hfails⟩
    obtain ⟨exc, hexc⟩ := (apply_eq_error_iff hop).mpr hfails
    exact ⟨exc, operands, hconvert, hexc⟩

/-! ## What an operator raises -/

/-- Only these exceptions are raised. -/
def RaisesArithmetic {α : Type} (x : Except PyExc α) : Prop :=
  ∀ exc, x = .error exc →
    exc.type ∈ [.other "ZeroDivisionError".toList, .other "OverflowError".toList, ExcType.TypeError]

/-- `RaisesArithmetic` allows a result, and the exceptions of Python's arithmetic: division by zero,
overflow and a type that the operation does not have. -/
theorem raisesArithmetic_ok {α : Type} (a : α) : RaisesArithmetic (.ok a) := nofun

theorem raisesArithmetic_zeroDivision {α : Type} (message : PyStr) :
    RaisesArithmetic (.error (zeroDivision message) : Except PyExc α) := by
  simp [RaisesArithmetic, zeroDivision, PyExc.of]

theorem raisesArithmetic_overflow {α : Type} (message : PyStr) :
    RaisesArithmetic (.error (overflow message) : Except PyExc α) := by
  simp [RaisesArithmetic, overflow, PyExc.of]

theorem raisesArithmetic_unsupported {α : Type} (symbol : PyStr) :
    RaisesArithmetic (.error (unsupportedOperands symbol v w) : Except PyExc α) := by
  simp [RaisesArithmetic, unsupportedOperands, PyExc.of]

theorem RaisesArithmetic.bind {α β : Type} {x : Except PyExc α} {f : α → Except PyExc β}
    (hx : RaisesArithmetic x) (hf : ∀ a, RaisesArithmetic (f a)) : RaisesArithmetic (x >>= f) := by
  intro exc hexc
  rcases Except.bind_eq_error_iff.mp hexc with h | ⟨a, -, h⟩
  · exact hx exc h
  · exact hf a exc h

/-- Every step of an operation raises one of these exceptions, or none. -/
theorem raisesArithmetic_toFloat (n : ℤ) : RaisesArithmetic (fl.toFloat n) := by
  rw [toFloat]
  split
  · exact raisesArithmetic_ok _
  · exact raisesArithmetic_overflow _

theorem raisesArithmetic_toComplex (v : Number F) : RaisesArithmetic (fl.toComplex v) := by
  cases v with
  | bool b => exact (raisesArithmetic_toFloat _).bind fun _ => raisesArithmetic_ok _
  | int n => exact (raisesArithmetic_toFloat n).bind fun _ => raisesArithmetic_ok _
  | float x => exact raisesArithmetic_ok _
  | complex re im => exact raisesArithmetic_ok _

theorem raisesArithmetic_convert : RaisesArithmetic (fl.convert op v w) := by
  rw [convert]
  split
  · split_ifs
    · exact (raisesArithmetic_toFloat _).bind fun _ =>
        (raisesArithmetic_toFloat _).bind fun _ => raisesArithmetic_ok _
    · exact raisesArithmetic_ok _
  · exact raisesArithmetic_ok _
  · exact (raisesArithmetic_toFloat _).bind fun _ => raisesArithmetic_ok _
  · exact (raisesArithmetic_toFloat _).bind fun _ => raisesArithmetic_ok _
  · split_ifs
    · exact raisesArithmetic_unsupported _
    · exact raisesArithmetic_unsupported _
    · exact (raisesArithmetic_toComplex _).bind fun _ =>
        (raisesArithmetic_toComplex _).bind fun _ => raisesArithmetic_ok _

theorem raisesArithmetic_powComplex (z w : F × F) : RaisesArithmetic (fl.powComplex z w) := by
  rw [powComplex]
  split_ifs
  · exact raisesArithmetic_zeroDivision _
  · split
    · exact raisesArithmetic_ok _
    · exact raisesArithmetic_zeroDivision _
    · exact raisesArithmetic_overflow _

theorem raisesArithmetic_powFloat (x y : F) : RaisesArithmetic (fl.powFloat x y) := by
  rw [powFloat]
  split_ifs
  · exact raisesArithmetic_zeroDivision _
  · exact raisesArithmetic_powComplex _ _
  · split
    · exact raisesArithmetic_ok _
    · exact raisesArithmetic_overflow _

theorem raisesArithmetic_apply (operands : Operands F) :
    RaisesArithmetic (fl.apply op operands) := by
  cases operands with
  | ints m n =>
    cases op with
    | add | sub | mult | pow => exact raisesArithmetic_ok _
    | div =>
      simp only [apply, intOp]
      split_ifs
      · exact raisesArithmetic_zeroDivision _
      · split
        · exact raisesArithmetic_ok _
        · exact raisesArithmetic_overflow _
    | floorDiv | mod =>
      simp only [apply, intOp]
      split_ifs
      · exact raisesArithmetic_zeroDivision _
      · exact raisesArithmetic_ok _
    | _ => exact raisesArithmetic_unsupported _
  | floats x y =>
    cases op with
    | add | sub | mult => exact raisesArithmetic_ok _
    | pow => exact raisesArithmetic_powFloat x y
    | div | floorDiv | mod =>
      simp only [apply, floatOp]
      split_ifs
      · exact raisesArithmetic_zeroDivision _
      · exact raisesArithmetic_ok _
    | _ => exact raisesArithmetic_unsupported _
  | complexes z w =>
    cases op with
    | add | sub | mult => exact raisesArithmetic_ok _
    | pow => exact raisesArithmetic_powComplex z w
    | div =>
      simp only [apply, complexNumberOp]
      split_ifs
      · exact raisesArithmetic_zeroDivision _
      · exact raisesArithmetic_ok _
    | _ => exact raisesArithmetic_unsupported _

/-- What an operator raises is a `ZeroDivisionError`, an `OverflowError` or a `TypeError`, and
nothing else (`RaisesArithmetic`). -/
theorem raisesArithmetic_binary : RaisesArithmetic (fl.binary op v w) :=
  raisesArithmetic_convert.bind raisesArithmetic_apply

/-! ## Complex values -/

/-- The operands of `**` are a negative base and a fractional exponent. -/
def RootOfNegative (v w : Number F) : Prop :=
  ∃ x y, fl.convert .pow v w = .ok (.floats x y) ∧ fl.isRoot x y

/-- The operands are converted to complex numbers exactly if one of them was complex before. -/
theorem exists_complexes_iff {operands : Operands F} (h : fl.convert op v w = .ok operands) :
    (∃ z z', operands = .complexes z z') ↔ v.IsComplex ∨ w.IsComplex := by
  by_cases hcomplex : v.IsComplex ∨ w.IsComplex
  · obtain ⟨z, z', -, -, heq⟩ := exists_of_convert_of_isComplex hcomplex h
    exact iff_of_true ⟨z, z', heq⟩ hcomplex
  · exact iff_of_false (convertedTo_of_not_isComplex hcomplex h).2 hcomplex

theorem isComplex_of_powComplex {z w : F × F} {u : Number F} (h : fl.powComplex z w = .ok u) :
    u.IsComplex := by
  rw [powComplex] at h
  split_ifs at h
  split at h
  · exact ⟨_, _, (Except.ok.inj h).symm⟩
  all_goals cases h

/-- A power of floats is complex for a root of a negative number, and a float otherwise. -/
theorem powFloat_value {x y : F} {u : Number F} (h : fl.powFloat x y = .ok u) :
    (fl.isRoot x y ∧ u.IsComplex) ∨ (¬fl.isRoot x y ∧ ∃ z, u = .float z) := by
  rw [powFloat] at h
  split_ifs at h with hzero hroot
  · exact Or.inl ⟨hroot, isComplex_of_powComplex h⟩
  · split at h
    · exact Or.inr ⟨hroot, _, (Except.ok.inj h).symm⟩
    · cases h

/-- The value of an operator on integers is an integer, or a float for a division or a negative
exponent. -/
theorem intOp_value {m n : ℤ} {u : Number F} (h : fl.intOp op m n = .ok u) :
    (∃ k, u = .int k) ∨ ∃ x, u = .float x := by
  cases op with
  | add | sub | mult | pow => exact Or.inl ⟨_, (Except.ok.inj h).symm⟩
  | div =>
    rw [intOp] at h
    split_ifs at h
    split at h
    · exact Or.inr ⟨_, (Except.ok.inj h).symm⟩
    · cases h
  | floorDiv | mod =>
    rw [intOp] at h
    split_ifs at h
    exact Or.inl ⟨_, (Except.ok.inj h).symm⟩
  | _ => cases h

/-- The value of an operator on floats is a float, but for the power that is a root of a negative
number (`isRoot`), which is complex. -/
theorem floatOp_value {x y : F} {u : Number F} (h : fl.floatOp op x y = .ok u) :
    ((op = .pow ∧ fl.isRoot x y) ∧ u.IsComplex) ∨
      (¬(op = .pow ∧ fl.isRoot x y) ∧ ∃ z, u = .float z) := by
  cases op with
  | add | sub | mult => exact Or.inr ⟨by simp, _, (Except.ok.inj h).symm⟩
  | pow => simpa using powFloat_value h
  | div | floorDiv | mod =>
    rw [floatOp] at h
    split_ifs at h
    exact Or.inr ⟨by simp, _, (Except.ok.inj h).symm⟩
  | _ => cases h

theorem isComplex_of_complexNumberOp {z w : F × F} {u : Number F}
    (h : fl.complexNumberOp op z w = .ok u) : u.IsComplex := by
  cases op with
  | add | sub | mult => exact ⟨_, _, (Except.ok.inj h).symm⟩
  | pow => exact isComplex_of_powComplex h
  | div =>
    rw [complexNumberOp] at h
    split_ifs at h
    exact ⟨_, _, (Except.ok.inj h).symm⟩
  | _ => cases h

/-- The result of an operation is complex exactly if its operands were, or if it is a root of a
negative number. -/
theorem isComplex_iff_of_apply {operands : Operands F} {u : Number F}
    (h : fl.apply op operands = .ok u) :
    u.IsComplex ↔ (∃ z w, operands = .complexes z w) ∨
      op = .pow ∧ ∃ x y, operands = .floats x y ∧ fl.isRoot x y := by
  cases operands with
  | ints m n => rcases intOp_value h with ⟨k, rfl⟩ | ⟨x, rfl⟩ <;> simp [Number.IsComplex]
  | floats x y =>
    rcases floatOp_value h with ⟨hroot, hu⟩ | ⟨hroot, z, rfl⟩
    · simpa [hu] using hroot
    · simpa [Number.IsComplex] using hroot
  | complexes z w => simpa using isComplex_of_complexNumberOp h

/-- The value of an operator is complex exactly if an operand is, or it is a power of a negative
number with a fractional exponent. -/
theorem isComplex_iff_of_binary {u : Number F} (h : fl.binary op v w = .ok u) :
    u.IsComplex ↔ v.IsComplex ∨ w.IsComplex ∨ op = .pow ∧ fl.RootOfNegative v w := by
  obtain ⟨operands, hconvert, happly⟩ := Except.bind_eq_ok_iff.mp h
  rw [isComplex_iff_of_apply happly, exists_complexes_iff hconvert, or_assoc]
  refine or_congr_right (or_congr_right (and_congr_right ?_))
  rintro rfl
  simp [RootOfNegative, hconvert]

/-! ## Booleans -/

/-- A `bool` is converted as the `int` that it is. -/
theorem convert_plain_eq_ok_iff {operands : Operands F} :
    fl.convert op v.plain w.plain = .ok operands ↔ fl.convert op v w = .ok operands := by
  by_cases hcomplex : v.IsComplex ∨ w.IsComplex
  · rw [convert_of_isComplex (by simpa using hcomplex), convert_of_isComplex hcomplex]
    split_ifs
    · simp
    · simp
    · rw [toComplex_plain, toComplex_plain]
  · obtain ⟨hreal, hreal'⟩ := not_or.mp hcomplex
    rcases Number.plain_of_not_isComplex hreal with ⟨m, hv⟩ | ⟨x, hv⟩ <;>
      rcases Number.plain_of_not_isComplex hreal' with ⟨n, hw⟩ | ⟨y, hw⟩
    all_goals simp [convert, hv, hw]

/-- A `bool` is computed with as the `int` that it is, so an operator has the same value on `plain`
operands. -/
theorem binary_plain_eq_ok_iff {u : Number F} :
    fl.binary op v.plain w.plain = .ok u ↔ fl.binary op v w = .ok u := by
  simp only [binary, Except.bind_eq_ok_iff, convert_plain_eq_ok_iff]

/-- The value of an operator is never a `bool`. -/
theorem binary_ne_bool {b : Bool} : fl.binary op v w ≠ .ok (.bool b) := by
  intro h
  obtain ⟨operands, -, h⟩ := Except.bind_eq_ok_iff.mp h
  cases operands with
  | ints m n => rcases intOp_value h with ⟨k, hb⟩ | ⟨x, hb⟩ <;> cases hb
  | floats x y =>
    rcases floatOp_value h with ⟨-, re, im, hb⟩ | ⟨-, z, hb⟩ <;> cases hb
  | complexes z w =>
    obtain ⟨re, im, hb⟩ := isComplex_of_complexNumberOp h
    cases hb

end Floats
