/-!
# Shortest decimal digits

A binary number with 64 bits stands for an interval of reals, those that round
to it. Its shortest decimal is the decimal with the fewest digits inside the
interval, of two such decimals the nearer one, and at equal distance the one
whose last digit is even. All comparisons are of exact fractions.
-/

set_option autoImplicit false

namespace SchemaTypes.Decimal

/-- The number `significand * 10 ^ exponent`. -/
structure Digits where
  significand : Nat
  exponent : Int
deriving Repr, DecidableEq

/-- The magnitude `mantissa * 2 ^ exponent` of a finite number, and whether the
gap below it is half as wide as the gap above it. -/
structure Magnitude where
  mantissa : Nat
  exponent : Int
  narrowBelow : Bool
deriving Repr, DecidableEq

def Magnitude.ofBits (bits : Nat) : Magnitude :=
  let fraction : Nat := bits % Nat.pow 2 52
  let biased : Nat := bits / Nat.pow 2 52 % Nat.pow 2 11
  if biased = 0 then ⟨fraction, -1074, false⟩
  else ⟨fraction + Nat.pow 2 52, (biased : Int) - 1075, fraction = 0 && 1 < biased⟩

/-- The fraction `numerator / denominator`. -/
structure Fraction where
  numerator : Nat
  denominator : Nat

def scaledByTwo (n : Nat) (e : Int) : Fraction :=
  if 0 ≤ e then ⟨n * Nat.pow 2 e.toNat, 1⟩ else ⟨n, Nat.pow 2 (-e).toNat⟩

def Fraction.perTen (f : Fraction) (e : Int) : Fraction :=
  if 0 ≤ e then ⟨f.numerator, f.denominator * Nat.pow 10 e.toNat⟩
  else ⟨f.numerator * Nat.pow 10 (-e).toNat, f.denominator⟩

def Fraction.le (a b : Fraction) : Bool :=
  a.numerator * b.denominator ≤ b.numerator * a.denominator

def Fraction.lt (a b : Fraction) : Bool :=
  a.numerator * b.denominator < b.numerator * a.denominator

/-- How often ten goes into a number, as a power: one less than its digits. -/
def wholeLog (n : Nat) : Nat := (Nat.toDigits 10 n).length - 1

def smallLog (f : Fraction) : Nat → Nat → Nat
  | 0, j => j
  | fuel + 1, j =>
    if f.denominator ≤ f.numerator * Nat.pow 10 j then j else smallLog f fuel (j + 1)

/-- The exponent of the first digit of a fraction that is not zero. -/
def Fraction.leadingExponent (f : Fraction) : Int :=
  if f.denominator ≤ f.numerator then wholeLog (f.numerator / f.denominator)
  else -(smallLog f 400 1 : Int)

structure Interval where
  low : Fraction
  value : Fraction
  high : Fraction
  closed : Bool

def Magnitude.interval (m : Magnitude) : Interval :=
  let unit := m.exponent - 2
  { low := scaledByTwo (4 * m.mantissa - (if m.narrowBelow then 1 else 2)) unit
    value := scaledByTwo (4 * m.mantissa) unit
    high := scaledByTwo (4 * m.mantissa + 2) unit
    closed := m.mantissa % 2 = 0 }

def Interval.holds (i : Interval) (n : Nat) (e : Int) : Bool :=
  let point : Fraction := ⟨n, 1⟩
  let low := i.low.perTen e
  let high := i.high.perTen e
  if i.closed then low.le point && point.le high else low.lt point && point.lt high

/-- The neighbours of the value on the grid of the multiples of a power of ten,
if one of them lies in the interval; of two the nearer, and of two at the same
distance the even one. -/
def Interval.onGrid (i : Interval) (e : Int) : Option Nat :=
  let v := i.value.perTen e
  let below := v.numerator / v.denominator
  let rest := v.numerator % v.denominator
  match i.holds below e && below != 0, i.holds (below + 1) e with
  | true, true =>
    if 2 * rest < v.denominator then some below
    else if v.denominator < 2 * rest then some (below + 1)
    else if below % 2 = 0 then some below else some (below + 1)
  | true, false => some below
  | false, true => some (below + 1)
  | false, false => none

def Interval.search (i : Interval) (leading : Int) : Nat → Nat → Digits
  | 0, count =>
    let e := leading - count
    let v := i.value.perTen e
    ⟨v.numerator / v.denominator, e⟩
  | fuel + 1, count =>
    match i.onGrid (leading - count) with
    | some n => ⟨n, leading - count⟩
    | none => i.search leading fuel (count + 1)

/-- Seventeen digits always suffice. -/
def Magnitude.shortest (m : Magnitude) : Digits :=
  let i := m.interval
  i.search i.value.leadingExponent 17 0

/-- The digits without the zeros at their end, and the exponent of the first one. -/
def Digits.leading (d : Digits) : List Char × Int :=
  let ds := Nat.toDigits 10 d.significand
  ((ds.reverse.dropWhile (· = '0')).reverse, d.exponent + (ds.length - 1 : Nat))

def zeros (n : Nat) : List Char := List.replicate n '0'

/-- A number is positional if the exponent of its first digit lies in
`[-5, 16)`, always with a fraction; else it has an exponent with its sign, and a
fraction only if it has more than one digit. -/
def Digits.text (d : Digits) : List Char :=
  match d.leading with
  | ([], _) => ['0', '.', '0']
  | (first :: more, e) =>
    if -5 ≤ e ∧ e < 16 then
      if e < 0 then '0' :: '.' :: (zeros (-e - 1).toNat ++ first :: more)
      else
        let whole := (first :: more).take (e.toNat + 1)
        let rest := (first :: more).drop (e.toNat + 1)
        whole ++ zeros (e.toNat + 1 - whole.length) ++ '.' :: (if rest = [] then ['0'] else rest)
    else
      let sign := if e < 0 then '-' else '+'
      let mantissa := if more = [] then [first] else first :: '.' :: more
      mantissa ++ 'e' :: sign :: Nat.toDigits 10 e.natAbs

def floatText (x : Float) : String :=
  let bits := x.toBits.toNat
  let sign := if bits / Nat.pow 2 63 = 1 then "-" else ""
  if bits % Nat.pow 2 63 = 0 then sign ++ "0.0"
  else sign ++ String.ofList (Magnitude.ofBits bits).shortest.text

end SchemaTypes.Decimal
