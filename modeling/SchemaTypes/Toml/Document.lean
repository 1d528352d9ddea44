import SchemaTypes.Toml.Quoted
import SchemaTypes.Toml.Word

/-!
# Documents in TOML

A document is a list of statements, each on lines of its own: headers of tables,
doubled headers, and assignments to keys. Read one after the other they make a
table.
-/

set_option autoImplicit false

namespace SchemaTypes.Toml

open Reader

inductive Statement
  | header (path : List String) (key : String)
  | element (path : List String) (key : String)
  | assign (path : List String) (key : String) (value : Term)

/-- Brackets and the parts of a key may be nested up to this depth. -/
def depthLimit : Nat := 79

def isBareKeyChar (c : Char) : Bool := c.isAlphanum || c = '_' || c = '-'

def simpleKey : Reader String := do
  match ← peek with
  | some '\x22' => Quoted.short
  | some '\x27' => Quoted.short
  | _ =>
    let cs ← takeWhile isBareKeyChar
    if cs = [] then failure else return String.ofList cs

def moreKeys : Nat → Reader (List String)
  | 0 => failure
  | fuel + 1 => do
    gaps
    if ← took ['.'] then
      gaps
      let k ← simpleKey
      return k :: (← moreKeys fuel)
    else return []

/-- A key with dots: the parents and the last part. -/
def key : Reader (List String × String) := do
  gaps
  let first ← simpleKey
  let rest ← moreKeys depthLimit
  return ((first :: rest).dropLast, rest.getLastD first)

/-- A word. A date and a time of day may have a blank between them. -/
def word : Reader Term := do
  let cs ← takeWhile Word.isWordChar
  if Word.date? cs = some [] then
    match ← get with
    | ' ' :: d :: _ =>
      if d.isDigit then
        drop 1
        let t ← takeWhile Word.isWordChar
        if Word.isTime t then return .other else failure
      else return .other
    | _ => return .other
  else (Word.term? cs : Option Term)

mutual

/-- A value, with `depth` more levels of brackets allowed. -/
def value : Nat → Nat → Reader Term
  | 0, _ => failure
  | fuel + 1, depth => do
    match ← peek with
    | some '\x22' => return .text (← Quoted.text)
    | some '\x27' => return .text (← Quoted.text)
    | some '[' =>
      drop 1
      if depth = 0 then failure else return .list (← items fuel (depth - 1))
    | some '{' =>
      drop 1
      if depth = 0 then failure
      else
        gaps
        if ← took ['}'] then return .table .braces []
        else return .table .braces (← pairs fuel (depth - 1) [])
    | _ => word

def items : Nat → Nat → Reader (List Term)
  | 0, _ => failure
  | fuel + 1, depth => do
    space (fuel + 1)
    if ← took [']'] then return []
    else
      let v ← value fuel depth
      space (fuel + 1)
      if ← took [','] then return v :: (← items fuel depth)
      else
        expect [']']
        return [v]

/-- The entries of a table in braces, in which no line ends. -/
def pairs : Nat → Nat → Table → Reader Table
  | 0, _, _ => failure
  | fuel + 1, depth, t => do
    let (path, k) ← key
    gaps
    expect ['=']
    gaps
    let v ← value fuel depth
    gaps
    match Table.assign path k v .braces t with
    | none => failure
    | some t =>
      if ← took [','] then pairs fuel depth t
      else
        expect ['}']
        return t

end

def statement (fuel : Nat) : Reader Statement := do
  let s ←
    if ← took ['[', '['] then (do
      let (path, k) ← key
      gaps
      expect [']', ']']
      pure (.element path k))
    else if ← took ['['] then (do
      let (path, k) ← key
      gaps
      expect [']']
      pure (.header path k))
    else (do
      let (path, k) ← key
      gaps
      expect ['=']
      gaps
      pure (.assign path k (← value fuel depthLimit)))
  endOfLine
  return s

def statements : Nat → Reader (List Statement)
  | 0 => failure
  | fuel + 1 => do
    gaps
    match ← peek with
    | none => return []
    | some '#' =>
      endOfLine
      statements fuel
    | some _ =>
      if ← newline then statements fuel
      else
        let s ← statement (fuel + 1)
        return s :: (← statements fuel)

/-- The table that has been made so far, and the path of the table that gets the
next assignments. -/
structure Draft where
  table : Table := []
  current : List String := []

def Draft.add (d : Draft) : Statement → Option Draft
  | .header path k => (Table.openTable path k .header d.table).map fun t => ⟨t, path ++ [k]⟩
  | .element path k => (Table.openElement path k .header d.table).map fun t => ⟨t, path ++ [k]⟩
  | .assign path k v =>
    (Table.descend false (Table.assign path k v) d.current .header d.table).map fun t =>
      ⟨t, d.current⟩

def withoutMark : List Char → List Char
  | '\ufeff' :: cs => cs
  | cs => cs

/-- The table of a text; nothing if the text is no TOML. -/
def Table.ofText? (text : String) : Option Table := do
  let cs := withoutMark text.toList
  let (statements, _) ← (statements (cs.length + 2)).run cs
  let d ← statements.foldlM Draft.add {}
  return d.table

end SchemaTypes.Toml
