import SchemaTypes.Shape
import SchemaTypes.TypeScript.Name

/-!
# Findings

What is worth telling about definitions besides their declarations. A finding
never changes a declaration.
-/

set_option autoImplicit false

namespace SchemaTypes

inductive Severity
  | note
  | warning
deriving DecidableEq, Repr

def Severity.text : Severity → String
  | .note => "note"
  | .warning => "warning"

inductive Finding
  | duplicateDefinition (name : String)
  | invalidTypeName (name : String)
  | quotedPropertyName (definition property : String)
  | malformedReference (definition property pointer : String)
  | unresolvedReference (definition property target : String)
deriving DecidableEq, Repr

namespace Finding

/-- Only a quoted key is what its author meant. -/
def severity : Finding → Severity
  | .quotedPropertyName _ _ => .note
  | _ => .warning

def message : Finding → String
  | .duplicateDefinition name =>
    "definition '" ++ name ++ "' is defined more than once; the last one wins"
  | .invalidTypeName name => "definition '" ++ name ++ "' is not a valid TypeScript type name"
  | .quotedPropertyName definition property =>
    definition ++ "." ++ property ++ ": emitted as a quoted property key"
  | .malformedReference definition property pointer =>
    definition ++ "." ++ property ++ ": reference '" ++ pointer ++ "' has no type name"
  | .unresolvedReference definition property target =>
    definition ++ "." ++ property ++ ": referenced type '" ++ target ++ "' is not defined"

end Finding

mutual

def Shape.pointer? : Shape → Option String
  | .reference pointer => some pointer
  | .array element => element.pointer?
  | .primitive _ _ => none
  | .enumeration _ => none
  | .unknown => none

def Property.pointer? : Property → Option String
  | ⟨shape, _⟩ => shape.pointer?

end

/-- How references are judged: whether their targets are looked up at all, and
the names they may have. -/
structure Lookup where
  checked : Bool
  known : List String

def referenceFindings (l : Lookup) (definition property : String) : Option String → List Finding
  | none => []
  | some pointer =>
    match targetName? pointer with
    | none => [.malformedReference definition property pointer]
    | some target =>
      if l.checked && !l.known.contains target then
        [.unresolvedReference definition property target]
      else []

def keyFindings (definition property : String) : List Finding :=
  if TypeScript.isIdentifier property then [] else [.quotedPropertyName definition property]

def propertyFindings (l : Lookup) (definition : String) (e : String × Property) : List Finding :=
  keyFindings definition e.1 ++ referenceFindings l definition e.1 e.2.pointer?

def nameFindings (name : String) : List Finding :=
  if TypeScript.isTypeName name then [] else [.invalidTypeName name]

/-- The name first, then property by property its key and its reference. -/
def definitionFindings (l : Lookup) (e : String × Definition) : List Finding :=
  nameFindings e.1 ++ e.2.properties.flatMap (propertyFindings l e.1)

end SchemaTypes
