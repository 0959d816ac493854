import Inlay.Json.Value

/-!
# Reading JSON

A reader for the standard's grammar. A number without fraction and exponent is an integer if it
fits into 64 bits, signed or unsigned; `-0` and every other number is a double. Its value is made
from at most the first digits that fit into 64 bits, scaled by a power of ten in floating point,
so that it can be off by a unit in the last place.

Every function takes a bound on the number of steps; the length of the text is one for the whole
text, as each step consumes a character.
-/

namespace Inlay.Json

/-- The four characters between tokens. -/
def skipSpace : List Char → List Char
  | c :: cs => if c = ' ' ∨ c = '\t' ∨ c = '\n' ∨ c = '\r' then skipSpace cs else c :: cs
  | [] => []

/-- The value of a hexadecimal digit. -/
def hexDigit? (c : Char) : Option Nat :=
  if '0' ≤ c ∧ c ≤ '9' then some (c.toNat - '0'.toNat)
  else if 'a' ≤ c ∧ c ≤ 'f' then some (c.toNat - 'a'.toNat + 10)
  else if 'A' ≤ c ∧ c ≤ 'F' then some (c.toNat - 'A'.toNat + 10)
  else none

/-- Four hexadecimal digits. -/
def hexUnit? : List Char → Option (Nat × List Char)
  | a :: b :: c :: d :: rest => do
    let n := (← hexDigit? a) * 4096 + (← hexDigit? b) * 256 + (← hexDigit? c) * 16 + (← hexDigit? d)
    return (n, rest)
  | _ => none

/-- The character of a `\u` escape after its `u`; a leading surrogate needs its partner. -/
def unicodeEscape? (cs : List Char) : Option (Char × List Char) := do
  let (hi, rest) ← hexUnit? cs
  if 0xd800 ≤ hi ∧ hi < 0xdc00 then
    match rest with
    | '\\' :: 'u' :: rest =>
      let (lo, rest) ← hexUnit? rest
      if 0xdc00 ≤ lo ∧ lo < 0xe000 then
        return (Char.ofNat (0x10000 + (hi - 0xd800) * 0x400 + (lo - 0xdc00)), rest)
      else none
    | _ => none
  else if 0xdc00 ≤ hi ∧ hi < 0xe000 then none
  else return (Char.ofNat hi, rest)

/-- The rest of a string after its opening quote. -/
def readString : Nat → List Char → List Char → Option (String × List Char)
  | 0, _, _ => none
  | _, _, [] => none
  | fuel + 1, acc, c :: cs =>
    if c = '"' then some (String.ofList acc.reverse, cs)
    else if c = '\\' then
      match cs with
      | '"' :: cs => readString fuel ('"' :: acc) cs
      | '\\' :: cs => readString fuel ('\\' :: acc) cs
      | '/' :: cs => readString fuel ('/' :: acc) cs
      | 'b' :: cs => readString fuel ('\x08' :: acc) cs
      | 'f' :: cs => readString fuel ('\x0c' :: acc) cs
      | 'n' :: cs => readString fuel ('\n' :: acc) cs
      | 'r' :: cs => readString fuel ('\r' :: acc) cs
      | 't' :: cs => readString fuel ('\t' :: acc) cs
      | 'u' :: cs => do
        let (c, cs) ← unicodeEscape? cs
        readString fuel (c :: acc) cs
      | _ => none
    else if c.toNat < 0x20 then none
    else readString fuel (c :: acc) cs

/-! ### Numbers -/

/-- The number that a run of decimal digits denotes. -/
def digitsValue (ds : List Char) : Nat :=
  ds.foldl (fun n d => n * 10 + (d.toNat - '0'.toNat)) 0

/-- Takes further digits into a significand while the result stays below `2 ^ 64`; the digits from
the first that does not fit on are left over. What is left over of the digits before the point
counts for the exponent only. -/
def significand (n : Nat) : List Char → Nat × List Char
  | [] => (n, [])
  | d :: ds =>
    let n' := n * 10 + (d.toNat - '0'.toNat)
    if n' < UInt64.size then significand n' ds else (n, d :: ds)

/-- `f * 10 ^ e` in floating point, in steps of at most `10 ^ 308`. Large positive exponents give no
number. -/
def scaleReal : Nat → Float → Int → Option Float
  | 0, f, _ => some f
  | fuel + 1, f, e =>
    if e.natAbs ≤ 308 then
      let p := Float.ofScientific 1 false e.natAbs
      let r := if 0 ≤ e then f * p else f / p
      if r.isInf then none else some r
    else if f == 0.0 then some f
    else if 0 ≤ e then none
    else scaleReal fuel (f / 1e308) (e + 308)

/-- The double with the given sign, digits before and after the point, and exponent. -/
def real? (negative : Bool) (whole fraction : List Char) (exponent : Int) : Option Float := do
  let (n, dropped) := significand 0 whole
  let (n, left) := significand n fraction
  let e : Int := dropped.length - (fraction.length - left.length)
  let f ← scaleReal (exponent.natAbs + 4) n.toUInt64.toFloat (exponent + e)
  return if negative then -f else f

/-- The exponent of a number, if there is one. -/
def readExponent : List Char → Option (Option Int × List Char)
  | c :: cs =>
    if c = 'e' ∨ c = 'E' then
      let (negative, ds) : Bool × List Char :=
        match cs with
        | '-' :: ds => (true, ds)
        | '+' :: ds => (false, ds)
        | ds => (false, ds)
      let digits := ds.takeWhile Char.isDigit
      if digits.isEmpty then none
      else
        let n : Int := (min (digitsValue digits) 100000 : Nat)
        some (some (if negative then -n else n), ds.dropWhile Char.isDigit)
    else some (none, c :: cs)
  | [] => some (none, [])

/-- A number, from its sign on. -/
def readNumber (cs : List Char) : Option (Json × List Char) := do
  let (negative, cs) : Bool × List Char :=
    match cs with
    | '-' :: cs => (true, cs)
    | cs => (false, cs)
  let whole := cs.takeWhile Char.isDigit
  let rest := cs.dropWhile Char.isDigit
  if whole.isEmpty || (whole.length > 1 && whole.head? == some '0') then none
  else
    let (fraction, rest) ← (match rest with
      | '.' :: cs =>
        let ds := cs.takeWhile Char.isDigit
        if ds.isEmpty then none else some (some ds, cs.dropWhile Char.isDigit)
      | cs => some (none, cs) : Option (Option (List Char) × List Char))
    let (exponent, rest) ← readExponent rest
    let n := digitsValue whole
    if fraction.isNone && exponent.isNone && !negative && n < UInt64.size then return (.int n, rest)
    else if fraction.isNone && exponent.isNone && negative && n ≠ 0 && 2 * n ≤ UInt64.size then
      return (.int (-(n : Int)), rest)
    else
      let x ← real? negative whole (fraction.getD []) (exponent.getD 0)
      return (.real x, rest)

/-! ### Values -/

/-- Drops a given word from the front. -/
def dropWord : List Char → List Char → Option (List Char)
  | [], cs => some cs
  | w :: ws, c :: cs => if w = c then dropWord ws cs else none
  | _ :: _, [] => none

mutual

/-- A value, white space before it included. -/
def readValue : Nat → List Char → Option (Json × List Char)
  | 0, _ => none
  | fuel + 1, cs =>
    match skipSpace cs with
    | 'n' :: cs => (dropWord ['u', 'l', 'l'] cs).map (.null, ·)
    | 't' :: cs => (dropWord ['r', 'u', 'e'] cs).map (.bool true, ·)
    | 'f' :: cs => (dropWord ['a', 'l', 's', 'e'] cs).map (.bool false, ·)
    | '"' :: cs => do
      let (s, cs) ← readString (cs.length + 1) [] cs
      return (.str s, cs)
    | '[' :: cs =>
      match skipSpace cs with
      | ']' :: cs => some (.arr [], cs)
      | cs => readItems fuel [] cs
    | '{' :: cs =>
      match skipSpace cs with
      | '}' :: cs => some (.obj [], cs)
      | cs => readFields fuel [] cs
    | cs => readNumber cs

/-- The items of an array up to its end, after the ones already read. -/
def readItems : Nat → List Json → List Char → Option (Json × List Char)
  | 0, _, _ => none
  | fuel + 1, acc, cs => do
    let (v, cs) ← readValue fuel cs
    match skipSpace cs with
    | ',' :: cs => readItems fuel (v :: acc) cs
    | ']' :: cs => return (.arr (v :: acc).reverse, cs)
    | _ => none

/-- The fields of an object up to its end, after the ones already read. -/
def readFields : Nat → List (String × Json) → List Char → Option (Json × List Char)
  | 0, _, _ => none
  | fuel + 1, acc, cs =>
    match skipSpace cs with
    | '"' :: cs => do
      let (name, cs) ← readString (cs.length + 1) [] cs
      match skipSpace cs with
      | ':' :: cs =>
        let (v, cs) ← readValue fuel cs
        match skipSpace cs with
        | ',' :: cs => readFields fuel ((name, v) :: acc) cs
        | '}' :: cs => return (ofFields ((name, v) :: acc).reverse, cs)
        | _ => none
      | _ => none
    | _ => none

end

/-- The value that a text denotes, if it is JSON. -/
def parse? (text : String) : Option Json := do
  let cs := text.toList
  let (v, rest) ← readValue (cs.length + 1) cs
  if (skipSpace rest).isEmpty then some v else none

end Inlay.Json
