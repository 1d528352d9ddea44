import SchemaTypes.Entries

/-!
# Shapes

What a schema says about one property, and the definitions that properties
make up, before anything is said in TypeScript.
-/

set_option autoImplicit false

namespace SchemaTypes

inductive Kind
  | integer
  | number
  | string
  | boolean
deriving DecidableEq, Repr

def Kind.ofKeyword? (keyword : String) : Option Kind :=
  if keyword = "integer" then some .integer
  else if keyword = "number" then some .number
  else if keyword = "string" then some .string
  else if keyword = "boolean" then some .boolean
  else none

mutual

inductive Shape
  | primitive (kind : Kind) (format : Option String)
  | reference (pointer : String)
  | array (element : Property)
  | enumeration (values : List String)
  | unknown

structure Property where
  shape : Shape
  description : Option String := none

end

def Property.unknown : Property := ⟨.unknown, none⟩

/-- The last segment of a pointer, what follows its last slash. -/
def lastSegment (cs : List Char) : List Char := (cs.reverse.takeWhile (· ≠ '/')).reverse

/-- The name at the end of a pointer, if the last segment is not empty. -/
def targetName? (pointer : String) : Option String :=
  match lastSegment pointer.toList with
  | [] => none
  | c :: cs => some (String.ofList (c :: cs))

/-- Properties in their order, no name twice, and the names that are required. -/
structure Definition where
  properties : List (String × Property) := []
  required : List String := []
  distinct : (Entries.names properties).Nodup := by simp

def Definition.isRequired (d : Definition) (property : String) : Bool :=
  d.required.contains property

def insertName (n : String) : List String → List String
  | [] => [n]
  | m :: ms => if n = m then m :: ms else if n < m then n :: m :: ms else m :: insertName n ms

/-- The required names once each, in the order of code points. -/
def Definition.requiredNames (d : Definition) : List String := d.required.foldr insertName []

/-- Definitions in the order in which their names first came, and the names that
came again, once for each time. -/
structure Definitions where
  entries : List (String × Definition) := []
  duplicates : List String := []
  distinct : (Entries.names entries).Nodup := by simp

end SchemaTypes
