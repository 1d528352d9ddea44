import SchemaTypes.Value

/-!
# Outlines

How far a value is looked into while its text is read. Outside, a document is
made of records and of objects with free names, and a value that does not have
such a form makes the whole document unreadable. Inside, values are kept whole
and judged later.
-/

set_option autoImplicit false

namespace SchemaTypes

inductive Outline
  | whole (kind : String) (fits : Value → Bool)
  /-- An object of names, whose values have the outline `each`. -/
  | names (expected : String) (each : Outline)
  /-- An object with these fields, or a list of their values. A field may be
  null. In a list the first `spare` fields may be missing. -/
  | record (title : String) (spare : Nat) (fields : List (String × Outline))

namespace Outline

def field? : List (String × Outline) → String → Option Outline
  | [], _ => none
  | (m, o) :: fs, n => if m = n then some o else field? fs n

def expected : Outline → String
  | .whole kind _ => kind
  | .names expected _ => expected
  | .record title _ _ => "struct " ++ title

def fieldCount (title : String) (n : Nat) : String :=
  "struct " ++ title ++ " with " ++ toString n ++ (if n = 1 then " element" else " elements")

end Outline

end SchemaTypes
