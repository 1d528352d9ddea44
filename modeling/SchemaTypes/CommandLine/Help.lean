import SchemaTypes.CommandLine.Flag

/-!
# Help

The pages of help. A short page has a line for every flag, with the explanations in
one column; a long page has the explanations on lines of their own. Only commands
with a flag whose values need explaining have a long page.
-/

set_option autoImplicit false

namespace SchemaTypes.CommandLine

inductive Topic
  | program
  | command (c : Subcommand)
  | help
deriving DecidableEq, Repr

namespace Help

def programName : String := "typepick"

def programVersion : String := "0.1.0"

def about : Topic → String
  | .program =>
    "Generate TypeScript interfaces from Swagger 2.0 / OpenAPI 3.x schema definitions"
  | .command .generate => "Generate one interface per schema definition"
  | .command .search => "Print the interfaces whose name contains QUERY"
  | .command .list => "Print every interface name in output order"
  | .help => "Print this message or the help of the given subcommand(s)"

def usage : Topic → String
  | .program => "[COMMAND]"
  | .command .generate => "generate [OPTIONS]"
  | .command .search => "search [OPTIONS] <QUERY>"
  | .command .list => "list [OPTIONS]"
  | .help => "help [COMMAND]..."

/-- The explanation of a flag, without what is said about its values. -/
def purpose : Flag → String
  | .input => "Schema document file (JSON or YAML); repeat to merge several"
  | .url => "Fetch the schema document from this URL"
  | .token => "Bearer token sent with URL requests"
  | .lang => "Accept-Language sent with URL requests [default: ko]"
  | .config => "Config file to use instead of the default lookup"
  | .out => "Write here instead of stdout"
  | .format => "Output encoding"
  | .unknown => "Type emitted for unmapped schemas (any or unknown)"
  | .sort => "Order declarations by name instead of document order"
  | .help => "Print help"
  | .version => "Print version"

def remark : Flag → String
  | .token => " [env: TYPEPICK_TOKEN]"
  | .format => " [default: ts] [possible values: ts, json]"
  | _ => ""

def remarkLines : Flag → List String
  | .token => ["          ", "          [env: TYPEPICK_TOKEN]"]
  | .format =>
    ["", "          Possible values:",
     "          - ts:   All declarations as one TypeScript file",
     "          - json: JSON array of `\x7b \x22name\x22, \x22code\x22 \x7d`",
     "          ", "          [default: ts]"]
  | _ => []

def hasLongPage : Topic → Bool
  | .command .generate => true
  | _ => false

def flagTerm (f : Flag) : String :=
  (match f.short? with
    | some c => "-" ++ String.singleton c ++ ", "
    | none => "    ") ++ f.shown

/-- The explanation of a flag on a short page. The flag for help tells of the long one. -/
def shortText (topic : Topic) (f : Flag) : String :=
  if f = .help ∧ hasLongPage topic then purpose f ++ " (see more with '--help')"
  else purpose f ++ remark f

def longText (f : Flag) : String :=
  if f = .help then purpose f ++ " (see a summary with '-h')" else purpose f

def padded (width : Nat) (s : String) : String :=
  s ++ String.ofList (List.replicate (width - s.length) ' ')

def rows (entries : List (String × String)) : List String :=
  let width := (entries.map fun e => e.1.length).foldl max 0
  entries.map fun e => "  " ++ padded width e.1 ++ "  " ++ e.2

def longRow (f : Flag) : List String :=
  ("  " ++ flagTerm f) :: ("          " ++ longText f) :: remarkLines f

def flags : Topic → List Flag
  | .program => programFlags
  | .command c => c.flags
  | .help => []

def flagLines (topic : Topic) (long : Bool) : List String :=
  if long && hasLongPage topic then [""].intercalate ((flags topic).map longRow)
  else rows ((flags topic).map fun f => (flagTerm f, shortText topic f))

def commandRows : List (String × String) :=
  (Subcommand.all.map fun c => (c.name, about (.command c))) ++ [("help", about .help)]

def argumentRows : Topic → List (String × String)
  | .command .search => [("<QUERY>", "Case-insensitive part of a type name")]
  | .help => [("[COMMAND]...", "Print help for the subcommand(s)")]
  | _ => []

/-- A part of a page under its title, which is left out if it has no lines. -/
def part (title : String) (lines : List String) : List String :=
  if lines.isEmpty then [] else "" :: (title ++ ":") :: lines

def lines (topic : Topic) (long : Bool) : List String :=
  [about topic, "", "Usage: " ++ programName ++ " " ++ usage topic] ++
    part "Commands" (if topic = .program then rows commandRows else []) ++
    part "Arguments" (rows (argumentRows topic)) ++
    part "Options" (flagLines topic long)

def page (topic : Topic) (long : Bool) : String :=
  String.join ((lines topic long).map fun l => l ++ "\n")

end Help

end SchemaTypes.CommandLine
