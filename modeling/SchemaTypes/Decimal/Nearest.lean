import SchemaTypes.Decimal.Shortest
import SchemaTypes.Text.Digit

/-!
# Nearest binary numbers

The binary number with 64 bits that is nearest to a fraction, of two equally
near ones the even one, and the reading of decimals with a point and an exponent
by it. The arithmetic is that of exact fractions.
-/

set_option autoImplicit false

namespace SchemaTypes.Decimal

/-- The exponent of the last bit of the number that is nearest to a fraction. -/
def Fraction.lastBit (f : Fraction) : Int :=
  let guess : Int := (f.numerator.log2 : Int) - f.denominator.log2 - 52
  let unit := scaledByTwo f.denominator guess
  let fits := unit.numerator * Nat.pow 2 52 ≤ f.numerator * unit.denominator
  max (if fits then guess else guess - 1) (-1074)

/-- The quotient rounded to the nearest whole number, halves to the even one. -/
def roundQuotient (n d : Nat) : Nat :=
  let q := n / d
  let r := n % d
  if d < 2 * r ∨ (d = 2 * r ∧ q % 2 = 1) then q + 1 else q

/-- The bits of the nearest number. Those of a fraction that is too large are not
the bits of a finite number. -/
def Fraction.nearestBits (f : Fraction) : Nat :=
  let e := f.lastBit
  let m :=
    if 0 ≤ e then roundQuotient f.numerator (f.denominator * Nat.pow 2 e.toNat)
    else roundQuotient (f.numerator * Nat.pow 2 (-e).toNat) f.denominator
  (e + 1074).toNat * Nat.pow 2 52 + m

/-- The number nearest to a fraction; nothing if the fraction is too large. -/
def Fraction.nearest? (f : Fraction) : Option Float :=
  let bits := f.nearestBits
  if bits < 2047 * Nat.pow 2 52 then some (Float.ofBits bits.toUInt64) else none

def Digits.fraction (d : Digits) : Fraction :=
  if 0 ≤ d.exponent then ⟨d.significand * Nat.pow 10 d.exponent.toNat, 1⟩
  else ⟨d.significand, Nat.pow 10 (-d.exponent).toNat⟩

/-- The number nearest to a decimal. Decimals of `10 ^ 310` and more have none, and
those below `10 ^ (-330)` have zero. -/
def Digits.nearest? (d : Digits) : Option Float :=
  let size : Int := (Nat.toDigits 10 d.significand).length + d.exponent
  if d.significand = 0 then some 0.0
  else if 310 < size then none
  else if size < -330 then some 0.0
  else d.fraction.nearest?

/-- The number that decimal digits spell, after `n`. -/
def ofDigits (n : Nat) : List Char → Nat
  | [] => n
  | c :: cs => ofDigits (n * 10 + Text.digitValue c) cs

def exponent? : List Char → Option Int
  | [] => some 0
  | c :: cs =>
    if c = 'e' ∨ c = 'E' then
      let (minus, ds) :=
        match cs with
        | '-' :: ds => (true, ds)
        | '+' :: ds => (false, ds)
        | ds => (false, ds)
      if ds ≠ [] ∧ ds.all Char.isDigit then
        some (if minus then -(ofDigits 0 ds : Int) else ofDigits 0 ds)
      else none
    else none

/-- A decimal without sign: digits with a point before, among or behind them or
with no point, and then perhaps an exponent. -/
def Digits.ofChars? (cs : List Char) : Option Digits :=
  let whole := cs.takeWhile Char.isDigit
  let (fraction, rest) :=
    match cs.dropWhile Char.isDigit with
    | '.' :: rest => (rest.takeWhile Char.isDigit, rest.dropWhile Char.isDigit)
    | rest => ([], rest)
  if whole = [] ∧ fraction = [] then none
  else (exponent? rest).map fun e => ⟨ofDigits 0 (whole ++ fraction), e - fraction.length⟩

/-- The number that a decimal with or without a minus sign spells. -/
def float? (cs : List Char) : Option Float :=
  match cs with
  | '-' :: rest => ((Digits.ofChars? rest).bind Digits.nearest?).map fun x => -x
  | _ => (Digits.ofChars? cs).bind Digits.nearest?

end SchemaTypes.Decimal
