/-!
# Decimals

The decimal that a binary floating-point number is written as: of all decimals that round to the
number, those with the fewest digits, and of these the nearest one. All of it is exact arithmetic
on natural numbers; only `Dyadic64.ofFloat?` looks at a float.
-/

namespace Nominal

/-- The decimal `digits · 10 ^ exponent`. -/
structure Decimal where
  digits : Nat
  exponent : Int
  deriving DecidableEq, Repr

/-- A positive number `significand · 2 ^ exponent` of the 64-bit floating-point format. -/
structure Dyadic64 where
  significand : Nat
  exponent : Int
  deriving DecidableEq, Repr

namespace Dyadic64

/-- The magnitude of a float, unless it is zero, infinite or not a number. -/
def ofFloat? (x : Float) : Option Dyadic64 :=
  let bits := x.toBits.toNat
  let fraction := bits % (1 <<< 52)
  match (bits >>> 52) % (1 <<< 11) with
  | 0 => if fraction = 0 then none else some ⟨fraction, -1074⟩
  | 2047 => none
  | biased => some ⟨(1 <<< 52) + fraction, Int.ofNat biased - 1075⟩

/-- `quarters · 2 ^ (exponent - 2)` as a fraction of `10 ^ scale`, times a common denominator. -/
def scaled (x : Dyadic64) (scale : Int) (quarters : Nat) : Nat :=
  quarters * Nat.pow 2 (x.exponent - 2).toNat * Nat.pow 10 (-scale).toNat

/-- The common denominator of what `scaled` measures. -/
def denominator (x : Dyadic64) (scale : Int) : Nat :=
  Nat.pow 2 (2 - x.exponent).toNat * Nat.pow 10 scale.toNat

/-- The distance to the lower end of the numbers that round to `x`, in quarters of a unit in the
last place. It is halved where the binary exponent changes. -/
def lowerGap (x : Dyadic64) : Nat :=
  if x.significand = 1 <<< 52 ∧ x.exponent ≠ -1074 then 1 else 2

/-- Whether `d · 10 ^ scale` rounds to `x`. The ends of the interval round to the even one. -/
def roundsFrom (x : Dyadic64) (scale : Int) (d : Nat) : Bool :=
  let low := x.scaled scale (4 * x.significand - x.lowerGap)
  let high := x.scaled scale (4 * x.significand + 2)
  let d := d * x.denominator scale
  if x.significand % 2 = 0 then low ≤ d && d ≤ high else low < d && d < high

/-- The multiple of `10 ^ scale` that `x` is written as, if one rounds to `x`: the nearer one of its
two neighbours, and the even one if both are as near. -/
def onGrid? (x : Dyadic64) (scale : Int) : Option Nat :=
  let value := x.scaled scale (4 * x.significand)
  let one := x.denominator scale
  let below := value / one
  -- If any multiple rounds to `x`, one of the two next to `x` does.
  match x.roundsFrom scale below, x.roundsFrom scale (below + 1) with
  | true, true =>
    let left := value - below * one
    let right := (below + 1) * one - value
    if left < right ∨ left = right ∧ below % 2 = 0 then some below else some (below + 1)
  | true, false => some below
  | false, true => some (below + 1)
  | false, false => none

/-- The exponent of the first decimal digit. -/
def decimalExponent (x : Dyadic64) : Int :=
  let shifted := x.scaled (-400) (4 * x.significand) / x.denominator (-400)
  Int.ofNat (Nat.toDigits 10 shifted).length - 401

/-- Tries the grids of ever more digits. Seventeen digits always suffice. -/
def firstGrid (x : Dyadic64) : (fuel : Nat) → (scale : Int) → Decimal
  | 0, scale => ⟨x.scaled scale (4 * x.significand) / x.denominator scale, scale⟩
  | fuel + 1, scale =>
    match x.onGrid? scale with
    | some d => ⟨d, scale⟩
    | none => firstGrid x fuel (scale - 1)

/-- The decimal that `x` is written as. -/
def toDecimal (x : Dyadic64) : Decimal := x.firstGrid 17 x.decimalExponent

end Dyadic64

namespace Decimal

/-- Moves zeros from the end of the digits into the exponent. -/
def trim (fuel : Nat) (d : Decimal) : Decimal :=
  match fuel with
  | 0 => d
  | fuel + 1 =>
    if d.digits ≠ 0 ∧ d.digits % 10 = 0 then trim fuel ⟨d.digits / 10, d.exponent + 1⟩ else d

/-- A decimal as it is written: positionally as long as the point falls into the first sixteen
places or at most four zeros stand between it and the first digit, else with an exponent. A whole
number keeps one zero after the point, unless it has an exponent. -/
def text (d : Decimal) : String :=
  let d := d.trim 20
  let digits := Nat.toDigits 10 d.digits
  let point := Int.ofNat digits.length + d.exponent
  if 0 ≤ d.exponent ∧ point ≤ 16 then
    String.ofList (digits ++ List.replicate d.exponent.toNat '0' ++ ['.', '0'])
  else if 0 < point ∧ point ≤ 16 then
    String.ofList (digits.take point.toNat ++ '.' :: digits.drop point.toNat)
  else if -5 < point ∧ point ≤ 0 then
    String.ofList ('0' :: '.' :: List.replicate (-point).toNat '0' ++ digits)
  else
    let fraction := match digits.tail with
      | [] => []
      | rest => '.' :: rest
    String.ofList (digits.take 1 ++ fraction ++ ['e']) ++ toString (point - 1)

end Decimal

/-- A finite float as messages print it. -/
def floatText (x : Float) : String :=
  let sign := if x.toBits.toNat >>> 63 = 1 then "-" else ""
  match Dyadic64.ofFloat? x with
  | none => sign ++ "0.0"
  | some m => sign ++ m.toDecimal.text

end Nominal
