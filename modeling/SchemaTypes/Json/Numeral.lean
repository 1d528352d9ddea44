import SchemaTypes.Json.Failure

/-!
# Numbers in JSON

Every number in a text is measured once, for two readers. The careful reader
wants its value. The careless reader only wants to get past it: it accepts the
same texts, whatever the size of the number, but words one of its complaints
differently.

A whole number is exact while it fits 64 bits. Any other number is a binary
number: its digits are taken as long as they fit 64 bits, and the result is
multiplied or divided by a power of ten.
-/

set_option autoImplicit false

namespace SchemaTypes.Json

/-- What two readers make of a token: the careful one its value, the careless
one only its end. -/
structure Token (α : Type) where
  careful : Except Failure α
  careless : Except Failure (List Char × Nat)

def Token.broken {α : Type} (careful careless : Cause) (p : Nat) : Token α :=
  ⟨.error ⟨careful, some p⟩, .error ⟨careless, some p⟩⟩

namespace Numeral

/-- Adds digits to a number while it stays below `2 ^ 64`. The digits that are
left begin with the first one that does not fit. -/
def takeDigits (n : Nat) : List Char → Nat × List Char
  | [] => (n, [])
  | c :: cs =>
    let m := n * 10 + Text.digitValue c
    if m < UInt64.size then takeDigits m cs else (n, c :: cs)

def powerOfTen (n : Nat) : Float := OfScientific.ofScientific 1 false n

/-- A number times a power of ten, nothing if that is too large. Powers beyond
`10 ^ 308` are taken in steps of that size, of which three reach zero. -/
def scale (x : Float) : Nat → Int → Option Float
  | 0, _ => some x
  | steps + 1, e =>
    if e.natAbs ≤ 308 then
      if 0 ≤ e then
        let y := x * powerOfTen e.natAbs
        if y.isInf then none else some y
      else some (x / powerOfTen e.natAbs)
    else if x == 0.0 then some x
    else if 0 ≤ e then none
    else scale (x / powerOfTen 308) steps (e + 308)

def signed (negative : Bool) (x : Float) : Number := .float (if negative then -x else x)

def binary (negative : Bool) (significand : Nat) (e : Int) : Option Number :=
  (scale significand.toUInt64.toFloat 4 e).map (signed negative)

/-- A number without fraction and exponent whose digits fit 64 bits. -/
def exact (negative : Bool) (n : Nat) : Number :=
  if negative then
    if 1 ≤ n ∧ n ≤ Nat.pow 2 63 then .int (-(n : Int)) else signed true n.toUInt64.toFloat
  else .int n

/-- The exponent that digits spell, with the number of digits that were read
when it passed `2 ^ 31 - 1`, if it did. -/
def readExponent (n : Nat) (count : Nat) : List Char → Nat × Option Nat
  | [] => (n, none)
  | c :: cs =>
    let m := n * 10 + Text.digitValue c
    if m < Nat.pow 2 31 then readExponent m (count + 1) cs else (n, some (count + 1))

structure Exponent where
  negative : Bool
  digits : List Char
  start : Nat

/-- The value of a number that ends at `stop`. -/
def value (negative : Bool) (whole : List Char) (fraction : Option (List Char))
    (exponent : Option Exponent) (stop : Nat) : Except Failure Number :=
  let (n, left) := takeDigits 0 whole
  let (significand, ignored) := takeDigits n (fraction.getD [])
  let shift : Int := (left.length : Int) - ((fraction.getD []).length - ignored.length : Nat)
  let tooLarge : Except Failure Number := .error ⟨.numberTooLarge, some stop⟩
  match exponent with
  | none =>
    match fraction, left with
    | none, [] => .ok (exact negative n)
    | _, _ => match binary negative significand shift with
      | some v => .ok v
      | none => tooLarge
  | some e =>
    match readExponent 0 0 e.digits with
    | (_, some count) =>
      if significand ≠ 0 ∧ ¬e.negative then .error ⟨.numberTooLarge, some (e.start + count)⟩
      else .ok (signed negative 0.0)
    | (n, none) =>
      match binary negative significand (if e.negative then shift - n else shift + n) with
      | some v => .ok v
      | none => tooLarge

def nextPlace (cs : List Char) (p : Nat) : Nat :=
  match cs with
  | [] => p
  | _ :: _ => p + 1

/-- The end of a number from its exponent sign on, if it has one. -/
def afterFraction (negative : Bool) (whole : List Char) (fraction : Option (List Char))
    (cs : List Char) (p : Nat) : Token Number :=
  let plain : Token Number := ⟨value negative whole fraction none p, .ok (cs, p)⟩
  match cs with
  | [] => plain
  | c :: rest =>
    if c = 'e' ∨ c = 'E' then
      let (minus, ds, q) : Bool × List Char × Nat :=
        match rest with
        | '+' :: ds => (false, ds, p + 2)
        | '-' :: ds => (true, ds, p + 2)
        | ds => (false, ds, p + 1)
      match ds with
      | [] => .broken .endInValue .invalidNumber q
      | d :: _ =>
        if d.isDigit then
          let digits := ds.takeWhile Char.isDigit
          let stop := q + digits.length
          ⟨value negative whole fraction (some ⟨minus, digits, q⟩) stop,
            .ok (ds.dropWhile Char.isDigit, stop)⟩
        else .broken .invalidNumber .invalidNumber (q + 1)
    else plain

def afterWhole (negative : Bool) (whole : List Char) (cs : List Char) (p : Nat) :
    Token Number :=
  match cs with
  | '.' :: rest =>
    let digits := rest.takeWhile Char.isDigit
    if digits = [] then
      let careful := if rest = [] then Cause.endInValue else .invalidNumber
      .broken careful .invalidNumber (nextPlace rest (p + 1))
    else
      afterFraction negative whole (some digits) (rest.dropWhile Char.isDigit)
        (p + 1 + digits.length)
  | _ => afterFraction negative whole none cs p

/-- A number after its sign. -/
def scan (negative : Bool) (cs : List Char) (p : Nat) : Token Number :=
  match cs with
  | [] => .broken .endInValue .invalidNumber p
  | '0' :: rest =>
    match rest with
    | d :: _ =>
      if d.isDigit then .broken .invalidNumber .invalidNumber (p + 2)
      else afterWhole negative ['0'] rest (p + 1)
    | [] => afterWhole negative ['0'] rest (p + 1)
  | c :: _ =>
    if c.isDigit then
      let digits := cs.takeWhile Char.isDigit
      afterWhole negative digits (cs.dropWhile Char.isDigit) (p + digits.length)
    else .broken .invalidNumber .invalidNumber (p + 1)

end Numeral

end SchemaTypes.Json
