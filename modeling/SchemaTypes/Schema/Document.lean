import SchemaTypes.Outline
import SchemaTypes.Schema.Catalogue
import SchemaTypes.Schema.Reading

/-!
# Documents

The part of a Swagger 2.0 or OpenAPI 3.x document that names schemas, and the
outline that a document has as a value. The definitions in a document are never
an error; only the markers of its version and the objects that hold the
definitions can make it unreadable.
-/

set_option autoImplicit false

namespace SchemaTypes.Schema

structure Components where
  schemas : Option Catalogue := none

structure Document where
  swagger : Option String := none
  openapi : Option String := none
  definitions : Option Catalogue := none
  components : Option Components := none

def Document.version (d : Document) : Option String :=
  match d.swagger with
  | some v => some ("swagger " ++ v)
  | none => d.openapi.map ("openapi " ++ ·)

/-- The catalogue that counts: that of Swagger unless it is absent or empty, and
else that of OpenAPI. -/
def Document.catalogue? (d : Document) : Option Catalogue :=
  match d.definitions with
  | some ⟨e :: es, repeats, distinct, known⟩ => some ⟨e :: es, repeats, distinct, known⟩
  | _ => d.components.bind Components.schemas

def nodes? : List (Key × Value) → Option (List (String × Node))
  | [] => some []
  | (.name s, v) :: es =>
    match Node.ofValue? v, nodes? es with
    | some n, some ns => some ((s, n) :: ns)
    | _, _ => none
  | _ :: _ => none

/-- Named properties; a name that comes again takes the new property. -/
def properties? : Value → Option (List (String × Node))
  | .object es => (nodes? es).map Entries.ofList
  | _ => none

namespace Definition

def fields : List String := ["type", "required", "properties"]

def ofEntries? : List (Key × Value) → Option Definition
  | [] => some {}
  | (k, v) :: es =>
    match ofEntries? es with
    | none => none
    | some d =>
      match fieldIndex? fields k with
      | some 0 => (optional TypeKeyword.ofValue? v).map fun x => { d with type := x }
      | some 1 => (optional Required.ofValue? v).map fun x => { d with required := x }
      | some 2 => (optional properties? v).map fun x => { d with properties := x }
      | _ => some d

def ofList? : List Value → Option Definition
  | [type, required, properties] => do
    some
      { type := ← optional TypeKeyword.ofValue? type
        required := ← optional Required.ofValue? required
        properties := ← optional properties? properties }
  | _ => none

def ofValue? : Value → Option Definition
  | .object es => if isRecord fields es [] then ofEntries? es else none
  | .list vs => ofList? vs
  | _ => none

/-- A named value: a definition, or an empty one in the place of anything else. -/
def tolerant? (v : Value) : Option Definition :=
  match ofValue? v with
  | some d => some d
  | none => (Value.plain? v).map fun _ => {}

def outline : Outline :=
  .record "RawDefinition" 0
    [("type", .whole "SchemaType" fun v => (TypeKeyword.ofValue? v).isSome),
     ("required", .whole "Required" fun v => (Required.ofValue? v).isSome),
     ("properties", .names "a map" (.whole "SchemaNode" fun v => (Node.ofValue? v).isSome))]

end Definition

def Node.outline : Outline := .whole "SchemaNode" fun v => (Node.ofValue? v).isSome

def version? : Value → Option String
  | .string s => some s
  | .number (.int n) => some (Number.int n).text
  | .number (.float x) => if x.isFinite then some (Number.float x).text else none
  | _ => none

def catalogueEntries? : List (Key × Value) → Option (List (String × Definition))
  | [] => some []
  | (.name s, v) :: es =>
    match Definition.tolerant? v, catalogueEntries? es with
    | some d, some ds => some ((s, d) :: ds)
    | _, _ => none
  | _ :: _ => none

def catalogueOfValue? : Value → Option Catalogue
  | .object es => (catalogueEntries? es).map Catalogue.ofList
  | _ => none

namespace Components

def fields : List String := ["schemas"]

def ofEntries? : List (Key × Value) → Option Components
  | [] => some {}
  | (k, v) :: es =>
    match ofEntries? es with
    | none => none
    | some c =>
      match fieldIndex? fields k with
      | some 0 => (optional catalogueOfValue? v).map fun x => { c with schemas := x }
      | _ => some c

def ofValue? : Value → Option Components
  | .object es => ofEntries? es
  | _ => none

end Components

namespace Document

def fields : List String := ["swagger", "openapi", "definitions", "components"]

def ofEntries? : List (Key × Value) → Option Document
  | [] => some {}
  | (k, v) :: es =>
    match ofEntries? es with
    | none => none
    | some d =>
      match fieldIndex? fields k with
      | some 0 => (optional version? v).map fun x => { d with swagger := x }
      | some 1 => (optional version? v).map fun x => { d with openapi := x }
      | some 2 => (optional catalogueOfValue? v).map fun x => { d with definitions := x }
      | some 3 => (optional Components.ofValue? v).map fun x => { d with components := x }
      | _ => some d

def ofValue? : Value → Option Document
  | .null => some {}
  | .object es => ofEntries? es
  | _ => none

def catalogueOutline : Outline :=
  .names "a map of schema names to schema objects"
    (.whole "DefinitionNode" fun v => (Definition.tolerant? v).isSome)

def outline : Outline :=
  .record "SchemaDocument" 2
    [("swagger", .whole "Version" fun v => (version? v).isSome),
     ("openapi", .whole "Version" fun v => (version? v).isSome),
     ("definitions", catalogueOutline),
     ("components", .record "Components" 0 [("schemas", catalogueOutline)])]

end Document

end SchemaTypes.Schema
