import SchemaTypes.Decimal.Nearest
import SchemaTypes.Value

/-!
# Scalars

The value of a scalar. A plain scalar without a tag can be null, a truth value
or a number; any other text is itself. A tag of a standard type forces that type,
and any other standard tag makes the scalar a text.
-/

set_option autoImplicit false

namespace SchemaTypes.Yaml.Scalar

def isNull (cs : List Char) : Bool :=
  ["null", "Null", "NULL", "~"].contains (String.ofList cs)

/-- Whether a plain scalar without a tag stands for nothing. -/
def isAbsent (cs : List Char) : Bool := cs.isEmpty || isNull cs

def bool? (cs : List Char) : Option Bool :=
  if ["true", "True", "TRUE"].contains (String.ofList cs) then some true
  else if ["false", "False", "FALSE"].contains (String.ofList cs) then some false
  else none

/-- The number that digits of a base spell after `n`. -/
def digits? (base n : Nat) : List Char → Option Nat
  | [] => some n
  | c :: cs =>
    match Text.hexValue? c with
    | some d => if d < base then digits? base (n * base + d) cs else none
    | none => none

def natural? (base : Nat) (cs : List Char) : Option Nat :=
  if cs.isEmpty then none else digits? base 0 cs

/-- A natural number, in another base if a letter after a zero says so. -/
def magnitude? : List Char → Option Nat
  | '0' :: 'x' :: cs => natural? 16 cs
  | '0' :: 'o' :: cs => natural? 8 cs
  | '0' :: 'b' :: cs => natural? 2 cs
  | cs => natural? 10 cs

/-- Without a sign, more digits than one of which the first is zero. -/
def isPadded (cs : List Char) : Bool :=
  let digits :=
    match cs with
    | '+' :: rest => rest
    | '-' :: rest => rest
    | _ => cs
  match digits with
  | '0' :: d :: rest => (d :: rest).all Char.isDigit
  | _ => false

def integer? (cs : List Char) : Option Int :=
  if isPadded cs then none
  else
    match cs with
    | '-' :: rest => (magnitude? rest).map fun n => -(n : Int)
    | '+' :: rest => (magnitude? rest).map Int.ofNat
    | _ => (magnitude? cs).map Int.ofNat

/-- A decimal number, or one of the numbers that are not finite. -/
def float? (cs : List Char) : Option Float :=
  let unsigned :=
    match cs with
    | '+' :: '-' :: _ => none
    | '+' :: rest => some rest
    | _ => some cs
  if [".nan", ".NaN", ".NAN"].contains (String.ofList cs) then some (0.0 / 0.0)
  else if ["-.inf", "-.Inf", "-.INF"].contains (String.ofList cs) then some (-1.0 / 0.0)
  else
    match unsigned with
    | none => none
    | some rest =>
      if [".inf", ".Inf", ".INF"].contains (String.ofList rest) then some (1.0 / 0.0)
      else Decimal.float? rest

/-- How wide an integer is: 64 bits, no more than 128 bits, or more. -/
inductive Width
  | word
  | doubleWord
  | wide
deriving DecidableEq

/-- Whether so many bits suffice, one of them for the sign if there is one. -/
def fitsBits (bits : Nat) (n : Int) : Bool :=
  if n < 0 then n.natAbs ≤ Nat.pow 2 (bits - 1) else n.natAbs < Nat.pow 2 bits

def width (n : Int) : Width :=
  if fitsBits 64 n then .word
  else if fitsBits 128 n then .doubleWord
  else .wide

inductive Whole
  | value (n : Int)
  | tooWide
  | none

/-- Integers of 64 bits have a value, and those of 128 bits are too wide for one;
what is wider is no integer at all. -/
def whole (cs : List Char) : Whole :=
  match integer? cs with
  | some n =>
    match width n with
    | .word => .value n
    | .doubleWord => .tooWide
    | .wide => .none
  | none => .none

/-- The value of a plain scalar without a tag; nothing if it is an integer that is
too wide. -/
def plain? (cs : List Char) : Option Value :=
  if isAbsent cs then some .null
  else
    match bool? cs with
    | some b => some (.bool b)
    | none =>
      match whole cs with
      | .value n => some (.number (.int n))
      | .tooWide => none
      | .none =>
        match (if isPadded cs then none else float? cs) with
        | some x => some (.number (.float x))
        | none => some (.string (String.ofList cs))

def isLocal : List Char → Bool
  | '!' :: _ => true
  | _ => false

/-- The value of a scalar with a tag; nothing if the text does not fit the tag. -/
def tagged? (tag cs : List Char) : Option Value :=
  if isLocal tag then none
  else if tag = "tag:yaml.org,2002:bool".toList then (bool? cs).map .bool
  else if tag = "tag:yaml.org,2002:int".toList then
    match whole cs with
    | .value n => some (.number (.int n))
    | _ => none
  else if tag = "tag:yaml.org,2002:float".toList then (float? cs).map fun x => .number (.float x)
  else if tag = "tag:yaml.org,2002:null".toList then if isNull cs then some .null else none
  else some (.string (String.ofList cs))

def value? (tag : Option (List Char)) (cs : List Char) (plain : Bool) : Option Value :=
  match tag with
  | some t => tagged? t cs
  | none => if plain then plain? cs else some (.string (String.ofList cs))

end SchemaTypes.Yaml.Scalar
