import SchemaTypes.Decimal.Nearest
import SchemaTypes.Toml.Term

/-!
# Words of TOML

Values without quotes and brackets: truth values, integers, floating numbers and
points of time. A word is read as a whole.
-/

set_option autoImplicit false

namespace SchemaTypes.Toml.Word

def isWordChar (c : Char) : Bool :=
  c.isAlphanum || c = '_' || c = '+' || c = '-' || c = '.' || c = ':'

/-- Digits among which single underscores may stand, without them. -/
def grouped? (isDigit : Char → Bool) : List Char → Option (List Char)
  | [] => none
  | [c] => if isDigit c then some [c] else none
  | c :: '_' :: cs => if isDigit c then (grouped? isDigit cs).map (c :: ·) else none
  | c :: cs => if isDigit c then (grouped? isDigit cs).map (c :: ·) else none

def sign : List Char → Bool × List Char
  | '+' :: cs => (false, cs)
  | '-' :: cs => (true, cs)
  | cs => (false, cs)

/-- The digits of a decimal integer; only zero itself begins with a zero. -/
def decimal? (cs : List Char) : Option (List Char) :=
  match cs with
  | '0' :: _ :: _ => none
  | _ => grouped? Char.isDigit cs

def isDigitOf (base : Nat) (c : Char) : Bool := (Text.hexValue? c).any (· < base)

def based? (base : Nat) (cs : List Char) : Option Int :=
  (grouped? (isDigitOf base) cs).map fun ds =>
    (ds.foldl (fun n d => n * base + (Text.hexValue? d).getD 0) 0 : Nat)

/-- An integer of any size. Those in other bases have no sign. -/
def integer? (cs : List Char) : Option Int :=
  match cs with
  | '0' :: 'x' :: ds => based? 16 ds
  | '0' :: 'o' :: ds => based? 8 ds
  | '0' :: 'b' :: ds => based? 2 ds
  | _ =>
    let (minus, ds) := sign cs
    (decimal? ds).map fun ds =>
      if minus then -(Decimal.ofDigits 0 ds : Int) else Decimal.ofDigits 0 ds

/-- Integers have 64 bits with a sign. -/
def fits (n : Int) : Bool := Int64.minValue.toInt ≤ n ∧ n ≤ Int64.maxValue.toInt

def isExponentMark (c : Char) : Bool := c = 'e' || c = 'E'

/-- The exponent of a floating number, of which nothing may be left. -/
def exponent? : List Char → Option Int
  | [] => some 0
  | c :: cs =>
    if isExponentMark c then
      let (minus, ds) := sign cs
      (grouped? Char.isDigit ds).map fun ds =>
        if minus then -(Decimal.ofDigits 0 ds : Int) else Decimal.ofDigits 0 ds
    else none

/-- A floating number without sign: an integer with a fraction, an exponent, or both. -/
def digits? (cs : List Char) : Option Decimal.Digits :=
  let isPart := fun c => c ≠ '.' && !isExponentMark c
  match decimal? (cs.takeWhile isPart), cs.dropWhile isPart with
  | some whole, '.' :: rest =>
    match grouped? Char.isDigit (rest.takeWhile isPart), exponent? (rest.dropWhile isPart) with
    | some fraction, some e =>
      some ⟨Decimal.ofDigits 0 (whole ++ fraction), e - fraction.length⟩
    | _, _ => none
  | some whole, c :: rest => (exponent? (c :: rest)).map fun e => ⟨Decimal.ofDigits 0 whole, e⟩
  | _, _ => none

/-- Whether the word is a floating number. Only negative ones may be too large. -/
def isFloat (cs : List Char) : Bool :=
  let (minus, ds) := sign cs
  if ds = ['i', 'n', 'f'] ∨ ds = ['n', 'a', 'n'] then true
  else
    match digits? ds with
    | some d => minus || d.nearest?.isSome
    | none => false

def pair? (low high : Nat) : List Char → Option (Nat × List Char)
  | a :: b :: cs =>
    let n := Decimal.ofDigits 0 [a, b]
    if a.isDigit ∧ b.isDigit ∧ low ≤ n ∧ n ≤ high then some (n, cs) else none
  | _ => none

def after? (c : Char) : List Char → Option (List Char)
  | d :: cs => if d = c then some cs else none
  | [] => none

def isLeap (year : Nat) : Bool := year % 4 = 0 && (year % 100 ≠ 0 || year % 400 = 0)

def daysOf (year month : Nat) : Nat :=
  if month = 2 then (if isLeap year then 29 else 28)
  else if [4, 6, 9, 11].contains month then 30
  else 31

def date? (cs : List Char) : Option (List Char) := do
  let (century, cs) ← pair? 0 99 cs
  let (year, cs) ← pair? 0 99 cs
  let (month, cs) ← pair? 1 12 (← after? '-' cs)
  let (_, cs) ← pair? 1 (daysOf (century * 100 + year) month) (← after? '-' cs)
  return cs

def time? (cs : List Char) : Option (List Char) := do
  let (_, cs) ← pair? 0 23 cs
  let (_, cs) ← pair? 0 59 (← after? ':' cs)
  let (_, cs) ← pair? 0 60 (← after? ':' cs)
  match cs with
  | '.' :: rest => if rest.head?.any Char.isDigit then some (rest.dropWhile Char.isDigit) else none
  | _ => some cs

def isOffset (cs : List Char) : Bool :=
  match cs with
  | [] => true
  | [c] => c = 'Z' || c = 'z'
  | c :: rest =>
    (c = '+' || c = '-') &&
      (do
        let (_, rest) ← pair? 0 23 rest
        let (_, rest) ← pair? 0 59 (← after? ':' rest)
        some rest) = some []

/-- Whether the word is a time of day with or without an offset. -/
def isTime (cs : List Char) : Bool := (time? cs).any isOffset

def isMoment (cs : List Char) : Bool :=
  match date? cs with
  | some [] => true
  | some (c :: rest) => (c = 'T' || c = 't') && isTime rest
  | none => time? cs = some []

def term? (cs : List Char) : Option Term :=
  if cs = ['t', 'r', 'u', 'e'] then some (.boolean true)
  else if cs = ['f', 'a', 'l', 's', 'e'] then some (.boolean false)
  else if isMoment cs || isFloat cs then some .other
  else
    match integer? cs with
    | some n => if fits n then some (.integer n) else none
    | none => none

end SchemaTypes.Toml.Word
