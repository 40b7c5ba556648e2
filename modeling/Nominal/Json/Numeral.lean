import Nominal.Json.Reader
import Nominal.Text.Decimal

/-!
# JSON numerals

A numeral is a whole part without leading zeros, an optional fraction and an optional exponent.
Reading one takes as many characters as can belong to it. What a numeral stands for is computed in
a second step: a whole number of 64 bits if it can be one, else a float.
-/

namespace Nominal.Json

/-- A numeral by its digits. The fraction is empty if there is none. -/
structure Numeral where
  negative : Bool := false
  whole : List Char
  fraction : List Char := []
  exponent : Option (Bool × List Char) := none
  deriving DecidableEq, Repr

namespace Numeral

/-! ## Reading

`atEnd` is the fault of a numeral that the end of the text cuts off. -/

/-- Reads one digit or more. -/
def readDigits (atEnd : Fault) : List Char → Except Fault (List Char × List Char)
  | [] => .error atEnd
  | c :: rest =>
    if c.isDigit then .ok (c :: rest.takeWhile Char.isDigit, rest.dropWhile Char.isDigit)
    else .error .malformed

/-- Reads the whole part: a single zero, or digits of which the first is none. -/
def readWhole (atEnd : Fault) : List Char → Except Fault (List Char × List Char)
  | '0' :: rest =>
    if (rest.head?.map Char.isDigit).getD false then .error .malformed else .ok (['0'], rest)
  | s => readDigits atEnd s

/-- Reads the fraction, if a point begins one. -/
def readFraction (atEnd : Fault) : List Char → Except Fault (List Char × List Char)
  | '.' :: rest => readDigits atEnd rest
  | s => .ok ([], s)

/-- Reads the sign of an exponent, and tells whether it is negative. -/
def readExponentSign : List Char → Bool × List Char
  | '+' :: rest => (false, rest)
  | '-' :: rest => (true, rest)
  | s => (false, s)

/-- Reads the exponent, if an `e` begins one. -/
def readExponent (atEnd : Fault) :
    List Char → Except Fault (Option (Bool × List Char) × List Char)
  | [] => .ok (none, [])
  | c :: rest =>
    if c = 'e' ∨ c = 'E' then
      match readDigits atEnd (readExponentSign rest).2 with
      | .error fault => .error fault
      | .ok (digits, rest') => .ok (some ((readExponentSign rest).1, digits), rest')
    else .ok (none, c :: rest)

/-- Reads a numeral without its sign. -/
def readUnsigned (atEnd : Fault) (negative : Bool) (s : List Char) :
    Except Fault (Numeral × List Char) := do
  let (whole, rest) ← readWhole atEnd s
  let (fraction, rest) ← readFraction atEnd rest
  let (exponent, rest) ← readExponent atEnd rest
  pure ({ negative, whole, fraction, exponent }, rest)

/-- Reads a numeral. -/
def read (atEnd : Fault) : List Char → Except Fault (Numeral × List Char)
  | '-' :: rest => readUnsigned atEnd true rest
  | s => readUnsigned atEnd false s

/-! ## Values -/

/-- The value of a digit. -/
def digitValue (c : Char) : Nat := c.toNat - '0'.toNat

/-- The number that digits stand for. -/
def digitsValue (digits : List Char) : Nat :=
  digits.foldl (fun n c => n * 10 + digitValue c) 0

/-- Appends digits to a number as long as it stays below 2⁶⁴. Returns the number and how many
digits are left out. -/
def append (n : Nat) : List Char → Nat × Nat
  | [] => (n, 0)
  | c :: digits =>
    let next := n * 10 + digitValue c
    if next < 1 <<< 64 then append next digits else (n, digits.length + 1)

/-- What a numeral stands for. -/
inductive Value where
  | integer (n : Int)
  | float (x : Float)

/-- The float nearest to `10 ^ n`. -/
def powerOfTen (n : Nat) : Float := Float.ofScientific 1 false n

/-- The largest `n` for which `10 ^ n` is a finite float. -/
def maxPower : Nat := 308

/-- Divides by `10 ^ n`, in several steps if `10 ^ n` is no finite float. -/
def divideByPower (x : Float) (n : Nat) : Float :=
  if n ≤ maxPower then x / powerOfTen n
  else if x == 0 then x
  else divideByPower (x / powerOfTen maxPower) (n - maxPower)
  termination_by n
  decreasing_by simp only [maxPower] at *; omega

/-- The float that `n · 10 ^ exponent` is rounded to, unless it is too large. -/
def scale (n : Nat) (exponent : Int) : Option Float :=
  let x := n.toUInt64.toFloat
  if exponent < 0 then some (divideByPower x (-exponent).toNat)
  else if n = 0 then some x
  else if exponent.toNat ≤ maxPower then
    let y := x * powerOfTen exponent.toNat
    if y.isInf then none else some y
  else none

/-- The largest exponent that is computed with; a larger one makes the number zero or too large. -/
def maxExponent : Nat := (1 <<< 31) - 1

/-- The magnitude as a float, unless it is too large. Digits that do not fit into 64 bits are left
out; of the whole part they still count as places. -/
def magnitude (v : Numeral) : Option Float :=
  let (n, places) := append 0 v.whole
  -- A digit of the fraction that is kept moves the point, one that is left out does not.
  let (n, leftOut) := append n v.fraction
  let places := Int.ofNat places - Int.ofNat (v.fraction.length - leftOut)
  match v.exponent with
  | none => scale n places
  | some (negative, digits) =>
    let exponent := digitsValue digits
    if exponent ≤ maxExponent then
      scale n (if negative then places - exponent else places + exponent)
    else if negative ∨ n = 0 then some 0
    else none

/-- What a numeral stands for, unless it is too large. Without fraction and exponent it is a whole
number if 64 bits hold it; minus zero is a float. -/
def value? (v : Numeral) : Option Value :=
  let (n, leftOut) := append 0 v.whole
  let signed (x : Float) : Value := .float (if v.negative then -x else x)
  if leftOut = 0 ∧ v.fraction = [] ∧ v.exponent = none then
    if !v.negative then some (.integer n)
    -- Minus zero has no whole number, and below -2⁶³ there is none of 64 bits.
    else if n = 0 ∨ 1 <<< 63 < n then some (signed n.toUInt64.toFloat)
    else some (.integer (-n))
  else v.magnitude.map signed

/-! ## What is left -/

theorem length_readDigits_lt {atEnd : Fault} {s digits rest : List Char}
    (h : readDigits atEnd s = .ok (digits, rest)) : rest.length < s.length := by
  unfold readDigits at h
  split at h
  · cases h
  · rename_i c r
    split at h
    · cases h
      have := (List.dropWhile_sublist Char.isDigit (l := r)).length_le
      simp only [List.length_cons]; omega
    · cases h

theorem length_readWhole_lt {atEnd : Fault} {s digits rest : List Char}
    (h : readWhole atEnd s = .ok (digits, rest)) : rest.length < s.length := by
  unfold readWhole at h
  split at h
  · split at h
    · cases h
    · cases h; simp
  · exact length_readDigits_lt h

theorem length_readFraction_le {atEnd : Fault} {s digits rest : List Char}
    (h : readFraction atEnd s = .ok (digits, rest)) : rest.length ≤ s.length := by
  unfold readFraction at h
  split at h
  · have := length_readDigits_lt h
    simp only [List.length_cons]; omega
  · cases h; simp

theorem length_readExponentSign_le (s : List Char) :
    (readExponentSign s).2.length ≤ s.length := by
  unfold readExponentSign
  split <;> simp

theorem length_readExponent_le {atEnd : Fault} {s rest : List Char}
    {exponent : Option (Bool × List Char)}
    (h : readExponent atEnd s = .ok (exponent, rest)) : rest.length ≤ s.length := by
  unfold readExponent at h
  split at h
  · cases h; simp
  · rename_i c r
    have hsign := length_readExponentSign_le r
    split at h
    · split at h
      · cases h
      · rename_i hd
        have := length_readDigits_lt hd
        cases h
        simp only [List.length_cons]; omega
    · cases h; simp

theorem length_readUnsigned_lt {atEnd : Fault} {negative : Bool} {s rest : List Char} {v : Numeral}
    (h : readUnsigned atEnd negative s = .ok (v, rest)) : rest.length < s.length := by
  simp only [readUnsigned, bind, Except.bind, pure, Except.pure] at h
  split at h
  · cases h
  · rename_i hw
    have := length_readWhole_lt hw
    split at h
    · cases h
    · rename_i hf
      have := length_readFraction_le hf
      split at h
      · cases h
      · rename_i he
        have := length_readExponent_le he
        cases h
        omega

theorem length_read_lt {atEnd : Fault} {s rest : List Char} {v : Numeral}
    (h : read atEnd s = .ok (v, rest)) : rest.length < s.length := by
  unfold read at h
  split at h
  · have := length_readUnsigned_lt h
    simp only [List.length_cons]; omega
  · exact length_readUnsigned_lt h

end Numeral
end Nominal.Json
