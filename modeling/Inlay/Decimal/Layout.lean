import Inlay.Decimal.Shortest

/-!
# How a decimal is written

A decimal is written positionally while its leading exponent lies in a given window, and with one
digit before the point and an exponent outside it. `RealLayout.message` is the layout in which
messages show the doubles of JSON data.
-/

namespace Inlay.Decimal

/-- The choices left open by the digits. -/
structure RealLayout where
  /-- Least leading exponent that is written positionally. -/
  least : Int
  /-- Greatest leading exponent that is written positionally. -/
  greatest : Int
  /-- Whether a positive exponent has a plus sign. -/
  plus : Bool

/-- Positional from `0.00001` up to sixteen digits before the point; `1e+300` otherwise. -/
def RealLayout.message : RealLayout := ⟨-5, 15, true⟩

/-- Positional notation; a whole number keeps a zero behind the point. -/
def positional (digits : String) (exponent : Int) : String :=
  let n : Int := digits.length
  if 0 ≤ exponent then digits ++ String.ofList (List.replicate exponent.toNat '0') ++ ".0"
  else if 0 < n + exponent then
    let cut := (n + exponent).toNat
    String.ofList (digits.toList.take cut) ++ "." ++ String.ofList (digits.toList.drop cut)
  else "0." ++ String.ofList (List.replicate (-(n + exponent)).toNat '0') ++ digits

/-- One digit, the others behind a point if there are any, and the exponent of the first. -/
def scientific (plus : Bool) (digits : String) (leading : Int) : String :=
  let mantissa :=
    match digits.toList with
    | d :: e :: rest => d.toString ++ "." ++ String.ofList (e :: rest)
    | ds => String.ofList ds
  mantissa ++ "e" ++ (if 0 ≤ leading then (if plus then "+" else "") else "-") ++
    toString leading.natAbs

/-- A finite double. -/
def RealLayout.render (layout : RealLayout) (x : Float) : String :=
  let sign := if x.toBits >>> 63 == 1 then "-" else ""
  let b := Binary.ofBits x.toBits
  if b.mantissa = 0 then sign ++ "0.0"
  else
    let d := shortest b
    let digits := toString d.digits
    if layout.least ≤ d.leading ∧ d.leading ≤ layout.greatest then
      sign ++ positional digits d.exponent
    else sign ++ scientific layout.plus digits d.leading

end Inlay.Decimal
