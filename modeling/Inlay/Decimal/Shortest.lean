/-!
# Shortest decimals

The decimal with the fewest digits that reads back as a given binary floating point number, and of
those the one nearest to it. A finite double is `mantissa * 2 ^ exponent`; the reals that round to
it form an interval, whose ends belong to it exactly if the mantissa is even. On the grid of
decimals with a given number of digits only the two neighbours of the number need to be tried: if
any point of the grid lies in the interval, so does one of these. All arithmetic is on natural
numbers.
-/

namespace Inlay.Decimal

/-- A positive fraction. -/
structure Ratio where
  num : Nat
  den : Nat

namespace Ratio

/-- `n * 2 ^ e`. -/
def binary (n : Nat) (e : Int) : Ratio :=
  if 0 ≤ e then ⟨n * Nat.pow 2 e.toNat, 1⟩ else ⟨n, Nat.pow 2 (-e).toNat⟩

/-- `r * 10 ^ k`. -/
def scale (r : Ratio) (k : Int) : Ratio :=
  if 0 ≤ k then ⟨r.num * Nat.pow 10 k.toNat, r.den⟩ else ⟨r.num, r.den * Nat.pow 10 (-k).toNat⟩

/-- How the natural number `n` compares with the fraction. -/
def compareNat (r : Ratio) (n : Nat) : Ordering :=
  compare (n * r.den) r.num

/-- Starting at `k`, the least power of ten that lifts the fraction to one or more. -/
def liftToOne (r : Ratio) : Nat → Nat → Nat
  | 0, k => k
  | fuel + 1, k => if r.den ≤ r.num * Nat.pow 10 k then k else liftToOne r fuel (k + 1)

/-- The decimal exponent of the leading digit: `10 ^ e ≤ r < 10 ^ (e + 1)`. No double needs more
than 400 steps to be lifted to one. -/
def leadingExponent (r : Ratio) : Int :=
  if r.den ≤ r.num then ((Nat.toDigits 10 (r.num / r.den)).length : Int) - 1
  else -(liftToOne r 400 0 : Int)

end Ratio

/-- A finite positive double: `mantissa * 2 ^ exponent`, with the size of the gap below it. -/
structure Binary where
  mantissa : Nat
  exponent : Int
  /-- The number is a power of two, whose lower neighbour is only half as far away. -/
  halfGapBelow : Bool

namespace Binary

/-- The magnitude in the bits of a finite double, whatever its sign. -/
def ofBits (bits : UInt64) : Binary :=
  let fraction := (bits &&& 0x000fffffffffffff).toNat
  let biased := ((bits >>> 52) &&& 0x7ff).toNat
  if biased = 0 then ⟨fraction, -1074, false⟩
  else ⟨0x10000000000000 + fraction, (biased : Int) - 1075, fraction == 0 && 1 < biased⟩

def value (b : Binary) : Ratio :=
  .binary b.mantissa b.exponent

/-- The midpoint with the next smaller double. -/
def lower (b : Binary) : Ratio :=
  .binary (4 * b.mantissa - if b.halfGapBelow then 1 else 2) (b.exponent - 2)

/-- The midpoint with the next larger double. -/
def upper (b : Binary) : Ratio :=
  .binary (4 * b.mantissa + 2) (b.exponent - 2)

/-- Whether `n * 10 ^ k` reads back as the number. -/
def readsBack (b : Binary) (n : Nat) (k : Int) : Bool :=
  match (b.lower.scale (-k)).compareNat n, (b.upper.scale (-k)).compareNat n with
  | .gt, .lt => true
  | .eq, _ | _, .eq => b.mantissa % 2 == 0
  | _, _ => false

end Binary

/-- `digits * 10 ^ exponent`. -/
structure Numeral where
  digits : Nat
  exponent : Int

/-- Drops trailing zeros of the digits, at most as many as there are digits. -/
def Numeral.trim (d : Numeral) : Nat → Numeral
  | 0 => d
  | fuel + 1 =>
    if d.digits ≠ 0 ∧ d.digits % 10 = 0 then trim ⟨d.digits / 10, d.exponent + 1⟩ fuel else d

/-- The exponent of the leading digit. -/
def Numeral.leading (d : Numeral) : Int :=
  d.exponent + (Nat.toDigits 10 d.digits).length - 1

/-- The neighbour of the number on the grid of multiples of `10 ^ k` that reads back, the nearer
one if both do; of two equally near ones the even one. -/
def onGrid? (b : Binary) (k : Int) : Option Nat :=
  let r := b.value.scale (-k)
  let below := r.num / r.den
  let above := below + 1
  match b.readsBack below k, b.readsBack above k with
  | false, false => none
  | true, false => some below
  | false, true => some above
  | true, true =>
    match compare (2 * (r.num % r.den)) r.den with
    | .lt => some below
    | .gt => some above
    | .eq => some (if below % 2 = 0 then below else above)

/-- The first grid with a hit, from `first` on towards finer ones. -/
def coarsest (b : Binary) : Nat → Int → Numeral
  | 0, k => ⟨b.value.scale (-k) |>.num, k⟩
  | fuel + 1, k =>
    match onGrid? b k with
    | some n => ⟨n, k⟩
    | none => coarsest b fuel (k - 1)

/-- The shortest decimal of a positive double; seventeen digits always suffice. -/
def shortest (b : Binary) : Numeral :=
  (coarsest b 18 b.value.leadingExponent).trim 18

end Inlay.Decimal
