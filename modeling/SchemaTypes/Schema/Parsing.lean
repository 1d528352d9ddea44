import SchemaTypes.Format
import SchemaTypes.Json.Reading
import SchemaTypes.Schema.Document
import SchemaTypes.Yaml.Reading

/-!
# Documents in texts

Documents, single definitions and single properties, read from texts of either
format.
-/

set_option autoImplicit false

namespace SchemaTypes.Schema

inductive Unreadable
  | json (f : Json.Failure) (text : String)
  | yaml

/-- What the reader of a format says. The words of that of YAML are left out. -/
def Unreadable.message : Unreadable → String
  | .json f text => f.message text
  | .yaml => ""

def Unreadable.documentMessage : Unreadable → String
  | .json f text => "failed to parse JSON schema document: " ++ f.message text
  | .yaml => "failed to parse YAML schema document"

/-- A text with the form of an outline, and what `find?` makes of its value. -/
def parseAs {α : Type} (orNull : Bool) (o : Outline) (find? : Value → Option α)
    (format : Format) (text : String) : Except Unreadable α :=
  match format with
  | .json =>
    match Json.read orNull o text with
    | .error f => .error (.json f text)
    | .ok v =>
      match find? v with
      | some a => .ok a
      | none => .error (.json ⟨.noVariant o.expected, none⟩ text)
  | .yaml =>
    match (Yaml.read orNull o text).bind find? with
    | some a => .ok a
    | none => .error .yaml

def Document.parse : Format → String → Except Unreadable Document :=
  parseAs true Document.outline Document.ofValue?

def Definition.parse : Format → String → Except Unreadable Definition :=
  parseAs false Definition.outline Definition.ofValue?

def Node.parse : Format → String → Except Unreadable Node :=
  parseAs false Node.outline Node.ofValue?

end SchemaTypes.Schema
