import SchemaTypes.Text.Shown
import SchemaTypes.Value

/-!
# Failures of reading JSON

Why a text cannot be read, and where. A place is an offset in bytes; its line
counts the line feeds before it from one, and its column the bytes since the
last of them. A failure that concerns a whole value has no place of its own and
takes the place that the reader has reached after it.
-/

set_option autoImplicit false

namespace SchemaTypes.Json

inductive Found
  | null
  | bool (b : Bool)
  | number (n : Number)
  | string (s : String)
  | list
  | object

def Found.text : Found → String
  | .null => "null"
  | .bool b => "boolean `" ++ (if b then "true" else "false") ++ "`"
  | .number (.int n) => "integer `" ++ toString n ++ "`"
  | .number (.float x) => "floating point `" ++ Decimal.floatText x ++ "`"
  | .string s => "string " ++ Text.shown s
  | .list => "sequence"
  | .object => "map"

inductive Cause
  | endInValue
  | endInString
  | endInList
  | endInObject
  | expectedColon
  | expectedListMore
  | expectedObjectMore
  | expectedWord
  | expectedValue
  | invalidEscape
  | invalidNumber
  | numberTooLarge
  | controlCharacter
  | keyNotText
  | loneSurrogate
  | cutEscape
  | trailingComma
  | trailingText
  | tooDeep
  | wrongKind (found : Found) (expected : String)
  | wrongLength (found : Nat) (expected : String)
  | duplicateField (name : String)
  | noVariant (kind : String)

def Cause.message : Cause → String
  | .endInValue => "EOF while parsing a value"
  | .endInString => "EOF while parsing a string"
  | .endInList => "EOF while parsing a list"
  | .endInObject => "EOF while parsing an object"
  | .expectedColon => "expected `:`"
  | .expectedListMore => "expected `,` or `]`"
  | .expectedObjectMore => "expected `,` or `\x7d`"
  | .expectedWord => "expected ident"
  | .expectedValue => "expected value"
  | .invalidEscape => "invalid escape"
  | .invalidNumber => "invalid number"
  | .numberTooLarge => "number out of range"
  | .controlCharacter =>
    "control character (\\u0000-\\u001F) found while parsing a string"
  | .keyNotText => "key must be a string"
  | .loneSurrogate => "lone leading surrogate in hex escape"
  | .cutEscape => "unexpected end of hex escape"
  | .trailingComma => "trailing comma"
  | .trailingText => "trailing characters"
  | .tooDeep => "recursion limit exceeded"
  | .wrongKind found expected => "invalid type: " ++ found.text ++ ", expected " ++ expected
  | .wrongLength found expected => "invalid length " ++ toString found ++ ", expected " ++ expected
  | .duplicateField name => "duplicate field `" ++ name ++ "`"
  | .noVariant kind => "data did not match any variant of untagged enum " ++ kind

structure Failure where
  cause : Cause
  place : Option Nat

/-- The failure with a place, the given one if it has none of its own. -/
def Failure.reached (f : Failure) (p : Nat) : Failure :=
  match f.place with
  | some _ => f
  | none => ⟨f.cause, some p⟩

/-- The number of bytes that the characters take in UTF-8. -/
def byteCount : List Char → Nat
  | [] => 0
  | c :: cs => c.utf8Size + byteCount cs

structure Position where
  line : Nat
  column : Nat
deriving DecidableEq, Repr

/-- The position of the place `p`, with `i` the offset of the first of the
characters and `start` that of its line. -/
def positionFrom (p : Nat) : List Char → Nat → Nat → Nat → Position
  | [], _, line, start => ⟨line, p - start⟩
  | c :: cs, i, line, start =>
    if p ≤ i then ⟨line, p - start⟩
    else if c = '\n' then positionFrom p cs (i + 1) (line + 1) (i + 1)
    else positionFrom p cs (i + c.utf8Size) line start

def positionOf (cs : List Char) (p : Nat) : Position := positionFrom p cs 0 1 0

def Failure.message (f : Failure) (text : String) : String :=
  match f.place with
  | none => f.cause.message
  | some p =>
    let position := positionOf text.toList p
    f.cause.message ++ " at line " ++ toString position.line ++ " column " ++
      toString position.column

end SchemaTypes.Json
