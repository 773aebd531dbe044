import PolicyForge.Text.Basic

namespace PolicyForge.Number

/-- A positive number and the interval of reals that round to it, all counted in units of
`10 ^ (-places)`. -/
structure Rounded where
  value : Nat
  low : Nat
  high : Nat
  /-- Whether the ends of the interval round to the number as well. -/
  closed : Bool
  places : Nat
  deriving Repr, DecidableEq

namespace Rounded

/-- The number `mantissa * 2 ^ exponent`. Its neighbours are one step away, so the interval reaches
half a step to both sides, but only a quarter step down where the steps below are half as long. -/
def ofBinary (mantissa : Nat) (exponent : Int) (shortStepBelow : Bool) : Rounded :=
  let places := (2 - exponent).toNat
  let quarter := Nat.pow 5 places * Nat.pow 2 (exponent - 2).toNat
  { value := 4 * mantissa * quarter
    low := (4 * mantissa - if shortStepBelow then 1 else 2) * quarter
    high := (4 * mantissa + 2) * quarter
    closed := mantissa % 2 == 0
    places }

/-- The magnitude in the 63 bits below the sign of a finite double, which is not zero. -/
def ofBits (bits : UInt64) : Rounded :=
  let exponent := ((bits >>> 52) &&& 0x7FF).toNat
  let fraction := (bits &&& 0xFFFFFFFFFFFFF).toNat
  if exponent == 0 then ofBinary fraction (-1074) false
  else ofBinary (0x10000000000000 + fraction) (exponent - 1075) (fraction == 0 && exponent > 1)

/-- Whether a decimal, counted in the same units, rounds to the number. -/
def admits (x : Rounded) (decimal : Nat) : Bool :=
  if x.closed then x.low ≤ decimal && decimal ≤ x.high
  else x.low < decimal && decimal < x.high

/-- The multiple of `10 ^ dropped` units that rounds to the number, as this multiple's digits: of
two the nearer, and the larger when both are equally near. -/
def nearest? (x : Rounded) (dropped : Nat) : Option Nat :=
  let step := Nat.pow 10 dropped
  let below := x.value / step
  match x.admits (below * step), x.admits ((below + 1) * step) with
  | true, true =>
    some (if x.value - below * step < (below + 1) * step - x.value then below else below + 1)
  | true, false => some below
  | false, true => some (below + 1)
  | false, false => none

/-- The shortest digits that round to the number and the number of units' digits they leave out,
which is at most `dropped`. With nothing left out the number itself is found. -/
def shortest (x : Rounded) : (dropped : Nat) → Nat × Nat
  | 0 => (x.value, 0)
  | dropped + 1 =>
    match x.nearest? (dropped + 1) with
    | some digits => (digits, dropped + 1)
    | none => shortest x dropped

/-- Digits followed by `zeros` zeros, or with the last `-zeros` of them behind the point. -/
def positional (digits : Nat) (zeros : Int) : String :=
  let text := toString digits
  if 0 ≤ zeros then text ++ String.ofList (List.replicate zeros.toNat '0')
  else
    let behind := (-zeros).toNat
    let padded := Text.padded (behind + 1) digits
    let whole := padded.length - behind
    String.ofList (padded.toList.take whole) ++ "." ++ String.ofList (padded.toList.drop whole)

/-- The number written with its shortest digits. -/
def text (x : Rounded) : String :=
  let (digits, dropped) := x.shortest (toString x.value).length
  positional digits (dropped - x.places)

end Rounded

/-- The text of the double with the given bits. A whole number has no point, zero keeps its sign,
and the values that are no numbers have names. -/
def doubleText (bits : UInt64) : String :=
  let sign := if bits >>> 63 == 1 then "-" else ""
  let magnitude := bits &&& 0x7FFFFFFFFFFFFFFF
  if magnitude > 0x7FF0000000000000 then "NaN"
  else if magnitude == 0x7FF0000000000000 then sign ++ "inf"
  else if magnitude == 0 then sign ++ "0"
  else sign ++ (Rounded.ofBits magnitude).text

end PolicyForge.Number
