import Inlay.Text.Blank

/-!
# Periodic positions

The argument of `:nth-child`: `a*n + b`, with 32-bit numbers. Whether a position has that form is
decided in 32-bit arithmetic, in which an operation whose result does not fit is a fault and not a
wrong number.
-/

namespace Inlay.Selector

/-- An operation on numbers of fixed width without a result. -/
inductive ArithmeticFault where
  | addOverflow
  | subtractOverflow
  | remainderOverflow
  | remainderByZero
  | divideOverflow
  | divideByZero
  /-- A time that begins now ends after the last moment that the clock has. -/
  | momentOverflow
deriving DecidableEq

def ArithmeticFault.message : ArithmeticFault → String
  | addOverflow => "attempt to add with overflow"
  | subtractOverflow => "attempt to subtract with overflow"
  | remainderOverflow => "attempt to calculate the remainder with overflow"
  | remainderByZero => "attempt to calculate the remainder with a divisor of zero"
  | divideOverflow => "attempt to divide with overflow"
  | divideByZero => "attempt to divide by zero"
  | momentOverflow => "overflow when adding duration to instant"

/-! ### Checked arithmetic -/

/-- Whether `z` is a 32-bit number. -/
def isInt32 (z : Int) : Bool :=
  decide (Int32.minValue.toInt ≤ z ∧ z ≤ Int32.maxValue.toInt)

/-- The 32-bit number equal to `z`, or the given fault. -/
def fit (fault : ArithmeticFault) (z : Int) : Except ArithmeticFault Int32 :=
  if isInt32 z then .ok (Int32.ofInt z) else .error fault

def checkedAdd (x y : Int32) : Except ArithmeticFault Int32 :=
  fit .addOverflow (x.toInt + y.toInt)

def checkedSub (x y : Int32) : Except ArithmeticFault Int32 :=
  fit .subtractOverflow (x.toInt - y.toInt)

/-- The remainder of the division toward zero. It has no result where that division has none. -/
def checkedRem (x y : Int32) : Except ArithmeticFault Int32 :=
  if y = 0 then .error .remainderByZero
  else if x = Int32.minValue ∧ y = -1 then .error .remainderOverflow
  else .ok (Int32.ofInt (x.toInt.tmod y.toInt))

/-- The quotient rounded toward zero. -/
def checkedDiv (x y : Int32) : Except ArithmeticFault Int32 :=
  if y = 0 then .error .divideByZero else fit .divideOverflow (x.toInt.tdiv y.toInt)

/-! ### The numbers `a*n + b` -/

/-- The positions `step * n + offset` with `n ≥ 0`; positions count from one. -/
structure Nth where
  step : Int32
  offset : Int32
deriving DecidableEq

namespace Nth

/-- Whether a position is one of them. -/
def holds (n : Nth) (position : Int32) : Except ArithmeticFault Bool :=
  if n.step = 0 then .ok (position == n.offset)
  else do
    let distance ← checkedSub position n.offset
    if (← checkedRem distance n.step) = 0 then return decide (0 ≤ (← checkedDiv distance n.step))
    else return false

/-- A decimal number with an optional sign that fits into 32 bits. -/
def int32? (cs : List Char) : Option Int32 :=
  let (negative, digits) : Bool × List Char :=
    match cs with
    | '-' :: ds => (true, ds)
    | '+' :: ds => (false, ds)
    | ds => (false, ds)
  if digits.isEmpty || !digits.all Char.isDigit then none
  else
    let n := digits.foldl (fun n d => n * 10 + (d.toNat - '0'.toNat)) 0
    let z : Int := if negative then -(n : Int) else n
    if isInt32 z then some (Int32.ofInt z) else none

/-- The factor before the `n`; none or a lone sign stands for one. -/
def step? : List Char → Option Int32
  | [] | ['+'] => some 1
  | ['-'] => some (-1)
  | cs => int32? cs

/-- The term after the `n`, which needs a sign; none stands for zero. -/
def offset? : List Char → Option Int32
  | [] => some 0
  | cs => if cs.head? = some '+' ∨ cs.head? = some '-' then int32? cs else none

/-- Reads `odd`, `even`, `b`, `an`, `an+b` and the like, in any ASCII case. White space is ignored
wherever it stands. -/
def parse? (argument : String) : Option Nth :=
  let cs := (argument.toList.filter (!Text.isBlank ·)).map Char.toLower
  if cs = ['o', 'd', 'd'] then some ⟨2, 1⟩
  else if cs = ['e', 'v', 'e', 'n'] then some ⟨2, 0⟩
  else
    match cs.dropWhile (· ≠ 'n') with
    | [] => (int32? cs).map (⟨0, ·⟩)
    | _ :: after =>
      match step? (cs.takeWhile (· ≠ 'n')), offset? after with
      | some a, some b => some ⟨a, b⟩
      | _, _ => none

/-- A number with its sign, also if that is a plus. -/
def signed (b : Int32) : String :=
  if 0 ≤ b then "+" ++ toString b.toInt else toString b.toInt

/-- The shortest spelling without `odd` and `even`. -/
def text (n : Nth) : String :=
  if n.step = 0 then toString n.offset.toInt
  else if n.offset = 0 then toString n.step.toInt ++ "n"
  else toString n.step.toInt ++ "n" ++ signed n.offset

end Nth

end Inlay.Selector
