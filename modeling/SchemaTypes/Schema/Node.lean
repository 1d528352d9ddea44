import SchemaTypes.Value

/-!
# Schemas as written

A property's schema with the keywords that matter, each as loose as documents
are. What is not a schema is kept as a value, so that nothing in the position of
a property is ever an error.
-/

set_option autoImplicit false

namespace SchemaTypes.Schema

/-- The keyword `type`: one name, a list of names, or anything else. -/
inductive TypeKeyword
  | single (name : String)
  | multiple (names : List String)
  | other (v : Value)

/-- The keyword `required` of a definition: a list of names, a stray truth value,
or anything else. -/
inductive Required
  | names (ns : List String)
  | flag (b : Bool)
  | other (v : Value)

def textsOf : List Value → List String
  | [] => []
  | .string s :: vs => s :: textsOf vs
  | _ :: vs => textsOf vs

/-- The names that are required. What is not a name is passed over. -/
def Required.toNames : Required → List String
  | .names ns => ns
  | .other (.list vs) => textsOf vs
  | .other _ => []
  | .flag _ => []

mutual

inductive Node
  | schema (k : Keywords)
  | bool (b : Bool)
  | other (v : Value)

/-- The keyword `items`: a schema for every element, or one for each position. -/
inductive Items
  | tuple (nodes : List Node)
  | single (node : Node)

structure Keywords where
  type : Option TypeKeyword := none
  format : Option String := none
  ref : Option String := none
  items : Option Items := none
  enum : Option (List Value) := none
  description : Option String := none
  oneOf : Option (List Node) := none
  anyOf : Option (List Node) := none
  allOf : Option (List Node) := none

end

structure Definition where
  type : Option TypeKeyword := none
  required : Option Required := none
  properties : Option (List (String × Node)) := none

end SchemaTypes.Schema
