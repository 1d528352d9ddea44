import SchemaTypes.Path
import SchemaTypes.Text.Lowercase
import SchemaTypes.Text.Part

/-!
# Formats of documents

Documents are written in JSON or in YAML. A name that does not say YAML means JSON.
-/

set_option autoImplicit false

namespace SchemaTypes

inductive Format
  | json
  | yaml
deriving DecidableEq, Repr

namespace Format

def name : Format → String
  | .json => "json"
  | .yaml => "yaml"

def ofPath (path : String) : Format :=
  match Path.extension? path with
  | some e => if ["yaml", "yml"].contains (Text.asciiLower e) then .yaml else .json
  | none => .json

def ofContentType (type : String) : Format :=
  if Text.occursIn "yaml".toList (Text.asciiLower type).toList then .yaml else .json

end Format

end SchemaTypes
