import SchemaTypes.Generation
import SchemaTypes.Value

/-!
# Renderings of blocks

The texts in which blocks are put out: a file of declarations, a list in JSON, a
list of names, and the result of a search.
-/

set_option autoImplicit false

namespace SchemaTypes

def typescriptText : List Block → String
  | [] => ""
  | bs => "\n\n".intercalate (bs.map Block.code) ++ "\n"

def Block.json (b : Block) : String :=
  "  \x7b\n    \x22name\x22: " ++ Value.quoted b.name ++ ",\n    \x22code\x22: " ++
    Value.quoted b.code ++ "\n  \x7d"

/-- A list of objects with the fields `name` and `code`, one field on a line. -/
def jsonText : List Block → String
  | [] => "[]\n"
  | bs => "[\n" ++ ",\n".intercalate (bs.map Block.json) ++ "\n]\n"

def namesText (bs : List Block) : String := String.join (bs.map fun b => b.name ++ "\n")

def foundText (bs : List Block) : String :=
  String.join (bs.map fun b => "// " ++ b.name ++ "\n" ++ b.code ++ "\n\n")

def foundSummary (found total : Nat) : String :=
  (if found = 0 then "no results" else toString found ++ " found") ++
    " (" ++ toString total ++ " types)"

end SchemaTypes
