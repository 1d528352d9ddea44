import SchemaTypes.Entries
import SchemaTypes.Schema.Node

/-!
# Schemas in values

How schemas are found in values. A record is an object in which no field comes
twice, or the list of all its fields in their order; a field that is null is
absent. If any keyword of a schema has a value that the keyword cannot have, the
whole value is no schema and is kept as it is. Only a key that is no name can
make a value unreadable, and only where the value is looked at.
-/

set_option autoImplicit false

namespace SchemaTypes.Schema

/-- The place of a key among the fields of a record: of a name where it stands
in the list, of a position that position. Other names belong to no field. -/
def fieldIndex? (fields : List String) : Key → Option Nat
  | .name s => if fields.contains s then some (fields.idxOf s) else none
  | .position n => if n < fields.length then some n else none
  | .other => none

/-- Whether the entries can be those of a record: every key is a name or a
position, and no field comes twice. -/
def isRecord (fields : List String) : List (Key × Value) → List Nat → Bool
  | [], _ => true
  | (.other, _) :: _, _ => false
  | (k, _) :: es, seen =>
    match fieldIndex? fields k with
    | none => isRecord fields es seen
    | some i => !seen.contains i && isRecord fields es (i :: seen)

/-- A field that may be absent. -/
def optional {α : Type} (read : Value → Option α) : Value → Option (Option α)
  | .null => some none
  | v => (read v).map some

def text? : Value → Option String
  | .string s => some s
  | _ => none

def texts? : List Value → Option (List String)
  | [] => some []
  | v :: vs =>
    match text? v, texts? vs with
    | some s, some ss => some (s :: ss)
    | _, _ => none

def values? : Value → Option (List Value)
  | .list vs => Value.plainItems? vs
  | _ => none

def TypeKeyword.ofValue? (v : Value) : Option TypeKeyword :=
  match v with
  | .string s => some (.single s)
  | .list vs =>
    match texts? vs with
    | some ss => some (.multiple ss)
    | none => (Value.plain? v).map .other
  | _ => (Value.plain? v).map .other

def Required.ofValue? (v : Value) : Option Required :=
  match v with
  | .list vs =>
    match texts? vs with
    | some ss => some (.names ss)
    | none => (Value.plain? v).map .other
  | .bool b => some (.flag b)
  | _ => (Value.plain? v).map .other

def keywordFields : List String :=
  ["type", "format", "$ref", "items", "enum", "description", "oneOf", "anyOf", "allOf"]

mutual

def Node.ofValue? : Value → Option Node
  | .object es => Node.ofEntries? es
  | .list vs => Node.ofList? vs
  | .bool b => some (.bool b)
  | v => (Value.plain? v).map .other

def Node.ofEntries? (es : List (Key × Value)) : Option Node :=
  match (if isRecord keywordFields es [] then Keywords.ofEntries? es else none) with
  | some k => some (.schema k)
  | none => (Value.plain? (.object es)).map .other

def Node.ofList? (vs : List Value) : Option Node :=
  match Keywords.ofList? vs with
  | some k => some (.schema k)
  | none => (Value.plain? (.list vs)).map .other

def Keywords.ofList? : List Value → Option Keywords
  | [type, format, ref, items, enum, description, oneOf, anyOf, allOf] => do
    some
      { type := ← optional TypeKeyword.ofValue? type
        format := ← optional text? format
        ref := ← optional text? ref
        items := ← Items.ofOptional? items
        enum := ← optional values? enum
        description := ← optional text? description
        oneOf := ← Node.nodes? oneOf
        anyOf := ← Node.nodes? anyOf
        allOf := ← Node.nodes? allOf }
  | _ => none

def Keywords.ofEntries? : List (Key × Value) → Option Keywords
  | [] => some {}
  | (k, v) :: es =>
    match Keywords.ofEntries? es with
    | none => none
    | some ks =>
      match fieldIndex? keywordFields k with
      | some 0 => (optional TypeKeyword.ofValue? v).map fun x => { ks with type := x }
      | some 1 => (optional text? v).map fun x => { ks with format := x }
      | some 2 => (optional text? v).map fun x => { ks with ref := x }
      | some 3 => (Items.ofOptional? v).map fun x => { ks with items := x }
      | some 4 => (optional values? v).map fun x => { ks with enum := x }
      | some 5 => (optional text? v).map fun x => { ks with description := x }
      | some 6 => (Node.nodes? v).map fun x => { ks with oneOf := x }
      | some 7 => (Node.nodes? v).map fun x => { ks with anyOf := x }
      | some 8 => (Node.nodes? v).map fun x => { ks with allOf := x }
      | _ => some ks

/-- A list is taken position by position if that is possible. -/
def Items.ofOptional? : Value → Option (Option Items)
  | .null => some none
  | .list vs =>
    match Node.ofValues? vs with
    | some nodes => some (some (.tuple nodes))
    | none => (Node.ofList? vs).map fun n => some (.single n)
  | .object es => (Node.ofEntries? es).map fun n => some (.single n)
  | .bool b => some (some (.single (.bool b)))
  | v => (Value.plain? v).map fun w => some (.single (.other w))

def Node.nodes? : Value → Option (Option (List Node))
  | .null => some none
  | .list vs => (Node.ofValues? vs).map some
  | _ => none

def Node.ofValues? : List Value → Option (List Node)
  | [] => some []
  | v :: vs =>
    match Node.ofValue? v, Node.ofValues? vs with
    | some n, some ns => some (n :: ns)
    | _, _ => none

end

end SchemaTypes.Schema
