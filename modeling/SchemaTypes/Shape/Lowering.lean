import SchemaTypes.Schema.Document
import SchemaTypes.Shape

/-!
# The shapes of schemas

A schema with a pointer is a reference, whatever else it says. Otherwise its
type decides: a list of types counts if all but one of them are null. A text
with an enumeration is that enumeration, with values that are no texts by their
text. Compositions and values that are no schemas have no known shape.
-/

set_option autoImplicit false

namespace SchemaTypes.Schema

def TypeKeyword.effective? : TypeKeyword → Option String
  | .single name => some name
  | .multiple names =>
    match names.filter (· ≠ "null") with
    | [name] => some name
    | _ => none
  | .other _ => none

def enumText : Value → String
  | .string s => s
  | v => v.text

def stringShape (format : Option String) : Option (List Value) → Shape
  | some values => .enumeration (values.map enumText)
  | none => .primitive .string format

/-- The shape of a type that is not an array. -/
def scalarShape (format : Option String) (enum : Option (List Value)) (type : String) : Shape :=
  match Kind.ofKeyword? type with
  | some .string => stringShape format enum
  | some kind => .primitive kind format
  | none => .unknown

mutual

def Node.property : Node → Property
  | .schema k => k.property
  | .bool _ => .unknown
  | .other _ => .unknown

def Keywords.property : Keywords → Property
  | ⟨type, format, ref, items, enum, description, _, _, _⟩ =>
    match ref with
    | some pointer => ⟨.reference pointer, description⟩
    | none =>
      match type.bind TypeKeyword.effective? with
      | none => ⟨.unknown, description⟩
      | some name =>
        if name = "array" then ⟨.array (elementOf items), description⟩
        else ⟨scalarShape format enum name, description⟩

/-- Only one schema for every element says what an element is. -/
def elementOf : Option Items → Property
  | some (.single n) => n.property
  | some (.tuple _) => .unknown
  | none => .unknown

end

/-- The properties and required names of a definition, whatever its type. -/
def Definition.lowered (d : Definition) : SchemaTypes.Definition :=
  { properties := Entries.ofList (Entries.mapValues Node.property (d.properties.getD []))
    required := (d.required.map Required.toNames).getD [] }

end SchemaTypes.Schema
