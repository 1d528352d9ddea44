import SchemaTypes.Text.Blank
import SchemaTypes.Text.Lowercase
import SchemaTypes.TypeScript.Interface

/-!
# The marker of what is not known

The type that is written where a schema says nothing usable: `any` or `unknown`.
-/

set_option autoImplicit false

namespace SchemaTypes

inductive Marker
  | any
  | unknown
deriving DecidableEq, Repr

namespace Marker

def keyword : Marker → TypeScript.Keyword
  | .any => .any
  | .unknown => .unknown

def text (m : Marker) : String := m.keyword.text

def type (m : Marker) : TypeScript.TypeExpr := .keyword m.keyword

def ofName? (s : String) : Option Marker :=
  if s = "any" then some .any else if s = "unknown" then some .unknown else none

/-- A text that names no marker, trimmed and in small letters. -/
structure Unrecognised where
  text : String
deriving DecidableEq, Repr

def Unrecognised.message (e : Unrecognised) : String :=
  "invalid unknown type '" ++ e.text ++ "', expected 'any' or 'unknown'"

/-- The marker that a text names, whatever white space is around it and
whatever the case of its letters. -/
def ofText (s : String) : Except Unrecognised Marker :=
  let name := Text.asciiLower (Text.trim s)
  match ofName? name with
  | some m => .ok m
  | none => .error ⟨name⟩

end Marker

end SchemaTypes
