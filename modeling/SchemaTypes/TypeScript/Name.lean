import SchemaTypes.Text.Blank
import SchemaTypes.Text.Digit

/-!
# Names and string literals of TypeScript

Which names can be declared as they are, how any text is written as a string
literal on one line, and how a name is written as the key of a member.
-/

set_option autoImplicit false

namespace SchemaTypes.TypeScript

def startsName (c : Char) : Bool := c.isAlpha || c = '_' || c = '$'

def continuesName (c : Char) : Bool := c.isAlphanum || c = '_' || c = '$'

/-- Letters, digits, underscores and dollar signs of ASCII, no digit in front. -/
def isIdentifier (name : String) : Bool :=
  match name.toList with
  | [] => false
  | c :: cs => startsName c && cs.all continuesName

def predefinedTypes : List String :=
  ["any", "bigint", "boolean", "never", "null", "number", "object", "string", "symbol",
   "undefined", "unknown", "void"]

def reservedWords : List String :=
  ["break", "case", "catch", "class", "const", "continue", "debugger", "default", "delete",
   "do", "else", "enum", "export", "extends", "false", "finally", "for", "function", "if",
   "implements", "import", "in", "instanceof", "interface", "let", "new", "package",
   "private", "protected", "public", "return", "static", "super", "switch", "this", "throw",
   "true", "try", "typeof", "var", "while", "with", "yield"]

/-- A name that can stand after `export interface`. -/
def isTypeName (name : String) : Bool :=
  isIdentifier name && !(predefinedTypes ++ reservedWords).contains name

/-- One character inside a string literal. Quotes, backslashes, control
characters and the two separators of Unicode are escaped, so that a literal
never leaves its line. -/
def escapeChar (c : Char) : List Char :=
  if c = '\\' then ['\\', '\\']
  else if c = '\x22' then ['\\', '\x22']
  else if c = '\n' then ['\\', 'n']
  else if c = '\r' then ['\\', 'r']
  else if c = '\t' then ['\\', 't']
  else if Text.isControl c || c = '\u2028' || c = '\u2029' then '\\' :: 'u' :: Text.hex4 c.toNat
  else [c]

def literalChars (cs : List Char) : List Char :=
  '\x22' :: (cs.flatMap escapeChar ++ ['\x22'])

def literal (s : String) : String := String.ofList (literalChars s.toList)

/-- A member's name as its key: bare if it is an identifier, reserved or not,
and otherwise a literal. -/
def key (name : String) : String := if isIdentifier name then name else literal name

end SchemaTypes.TypeScript
