import SchemaTypes.Decimal.Shortest
import SchemaTypes.Text.Digit

/-!
# Values

What a document is made of before it is read as a schema: null, truth values,
numbers, texts, lists, and objects that keep the order and the repeats of their
entries. A key is nearly always a name; other keys come from documents whose
format allows any value as a key.

`Value.plain?` forgets order and repeats, for values that are shown and not
read, and `Value.text` shows a value on one line.
-/

set_option autoImplicit false

namespace SchemaTypes

/-- Whole numbers stay exact, all others are binary numbers with 64 bits. -/
inductive Number
  | int (n : Int)
  | float (x : Float)
deriving DecidableEq

def Number.text : Number → String
  | .int n => toString n
  | .float x => Decimal.floatText x

/-- A key is a name, or a position that stands for the field at that place of a
record, or neither. -/
inductive Key
  | name (s : String)
  | position (n : Nat)
  | other
deriving DecidableEq

inductive Value
  | null
  | bool (b : Bool)
  | number (n : Number)
  | string (s : String)
  | list (items : List Value)
  | object (entries : List (Key × Value))

instance : Inhabited Value := ⟨.null⟩

namespace Value

/-- Entries with one more, in the order of names; an entry of the same name gives way. -/
def insertByName (s : String) (v : Value) : List (Key × Value) → List (Key × Value)
  | [] => [(.name s, v)]
  | (.name t, w) :: es =>
    if s = t then (.name s, v) :: es
    else if s < t then (.name s, v) :: (.name t, w) :: es
    else (.name t, w) :: insertByName s v es
  | e :: es => e :: insertByName s v es

mutual

/-- The value with the entries of every object in the order of their names, the
last one of each name; nothing if some key is not a name. A number that is not
finite has no text and becomes null. -/
def plain? : Value → Option Value
  | .list items => (plainItems? items).map .list
  | .object entries => (plainEntries? entries []).map .object
  | .number (.float x) => some (if x.isFinite then .number (.float x) else .null)
  | v => some v

def plainItems? : List Value → Option (List Value)
  | [] => some []
  | v :: vs =>
    match plain? v, plainItems? vs with
    | some w, some ws => some (w :: ws)
    | _, _ => none

def plainEntries? : List (Key × Value) → List (Key × Value) → Option (List (Key × Value))
  | [], seen => some seen
  | (.name s, v) :: es, seen =>
    match plain? v with
    | some w => plainEntries? es (insertByName s w seen)
    | none => none
  | _ :: _, _ => none

end

def escapeChar (c : Char) : List Char :=
  if c = '\x22' then ['\\', '\x22']
  else if c = '\\' then ['\\', '\\']
  else if c = '\x08' then ['\\', 'b']
  else if c = '\x0c' then ['\\', 'f']
  else if c = '\n' then ['\\', 'n']
  else if c = '\r' then ['\\', 'r']
  else if c = '\t' then ['\\', 't']
  else if c.toNat < 0x20 then '\\' :: 'u' :: Text.hex4 c.toNat
  else [c]

def quotedChars (cs : List Char) : List Char := '\x22' :: (cs.flatMap escapeChar ++ ['\x22'])

/-- The text between double quotes, with quotes, backslashes and the control
characters below the blank escaped. -/
def quoted (s : String) : String := String.ofList (quotedChars s.toList)

def keyText : Key → String
  | .name s => quoted s
  | .position n => quoted (toString n)
  | .other => quoted ""

mutual

/-- The value on one line without blanks, its entries in the order they have. -/
def text : Value → String
  | .null => "null"
  | .bool b => if b then "true" else "false"
  | .number n => n.text
  | .string s => quoted s
  | .list items => "[" ++ ",".intercalate (itemTexts items) ++ "]"
  | .object entries => "\x7b" ++ ",".intercalate (entryTexts entries) ++ "\x7d"

def itemTexts : List Value → List String
  | [] => []
  | v :: vs => text v :: itemTexts vs

def entryTexts : List (Key × Value) → List String
  | [] => []
  | (k, v) :: es => (keyText k ++ ":" ++ text v) :: entryTexts es

end

end Value

end SchemaTypes
