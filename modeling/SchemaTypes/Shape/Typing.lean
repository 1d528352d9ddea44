import SchemaTypes.Marker
import SchemaTypes.Shape

/-!
# The types of shapes

The type expression of a property and the interface of a definition. A property
has a type of its own, whatever definitions there are beside it.
-/

set_option autoImplicit false

namespace SchemaTypes

open TypeScript (TypeExpr Member Interface)

def Kind.type : Kind → TypeExpr
  | .integer => .keyword .number
  | .number => .keyword .number
  | .string => .keyword .string
  | .boolean => .keyword .boolean

def referenceType (marker : Marker) (pointer : String) : TypeExpr :=
  match targetName? pointer with
  | some name => .name name
  | none => marker.type

def enumerationType (marker : Marker) : List String → TypeExpr
  | [] => marker.type
  | v :: vs => .union ((v :: vs).map .literal)

mutual

def Shape.type (marker : Marker) : Shape → TypeExpr
  | .primitive kind _ => kind.type
  | .reference pointer => referenceType marker pointer
  | .array element => .array (element.type marker)
  | .enumeration values => enumerationType marker values
  | .unknown => marker.type

def Property.type (marker : Marker) : Property → TypeExpr
  | ⟨shape, _⟩ => shape.type marker

end

def Definition.member (marker : Marker) (d : Definition) (e : String × Property) : Member :=
  { name := e.1
    type := e.2.type marker
    optional := !d.isRequired e.1
    doc := e.2.description }

def Definition.interface (marker : Marker) (name : String) (d : Definition) : Interface :=
  ⟨name, d.properties.map (d.member marker)⟩

end SchemaTypes
