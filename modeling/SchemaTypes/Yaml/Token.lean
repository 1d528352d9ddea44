import SchemaTypes.Yaml.Cursor

/-!
# Tokens

The tokens of a YAML text, and the scanning of the small ones: anchors, aliases,
tags and directives.
-/

set_option autoImplicit false

namespace SchemaTypes.Yaml

inductive Token
  | version (major minor : Nat)
  | tagHandle (handle expansion : List Char)
  | documentStart
  | documentEnd
  | blockSequence
  | blockMapping
  | blockEnd
  | flowSequence
  | flowSequenceEnd
  | flowMapping
  | flowMappingEnd
  | blockEntry
  | flowEntry
  | key
  | value
  | alias (name : List Char)
  | anchor (name : List Char)
  | tag (handle suffix : List Char)
  | scalar (text : List Char) (plain : Bool)
deriving DecidableEq

namespace Token

def endsName (c : Cursor) : Bool :=
  c.endsWord 0 || c.sees fun d =>
    d = '?' || d = ':' || d = ',' || d = ']' || d = '}' || d = '%' || d = '@' || d = '\x60'

/-- The name after `&` or `*`. -/
def name? (c : Cursor) : Option (List Char × Cursor) :=
  let (name, next) := c.takeWhile isWordChar
  if name ≠ [] && endsName next then some (name, next) else none

/-- A handle: an exclamation mark, word characters, and an exclamation mark
again. In a tag the last mark may be missing; in a directive only from the
handle that is one mark alone. -/
def handle? (directive : Bool) (c : Cursor) : Option (List Char × Cursor) :=
  if c.seesChar '!' then
    let (word, next) := (c.advance 1).takeWhile isWordChar
    if next.seesChar '!' then some ('!' :: (word ++ ['!']), next.advance 1)
    else if directive && word ≠ [] then none
    else some ('!' :: word, next)
  else none

def isUriChar (verbatim : Bool) (c : Char) : Bool :=
  isWordChar c || c = ';' || c = '/' || c = '?' || c = ':' || c = '@' || c = '&' || c = '=' ||
    c = '+' || c = '$' || c = '.' || c = '%' || c = '!' || c = '~' || c = '*' || c = '\x27' ||
    c = '(' || c = ')' || (verbatim && (c = ',' || c = '[' || c = ']'))

/-- The byte that two hexadecimal digits after a percent sign stand for. -/
def escapedByte? : List Char → Option (Nat × List Char)
  | '%' :: a :: b :: cs =>
    match Text.hexValue? a, Text.hexValue? b with
    | some x, some y => some (x * 16 + y, cs)
    | _, _ => none
  | _ => none

/-- How many bytes a character takes that begins with this one. -/
def sequenceLength? (b : Nat) : Option Nat :=
  if b < 0x80 then some 1
  else if 0xC0 ≤ b ∧ b < 0xE0 then some 2
  else if 0xE0 ≤ b ∧ b < 0xF0 then some 3
  else if 0xF0 ≤ b ∧ b < 0xF8 then some 4
  else none

def continuation? : Nat → Nat → List Char → Option (Nat × List Char)
  | 0, n, cs => some (n, cs)
  | k + 1, n, cs =>
    match escapedByte? cs with
    | some (b, rest) => if 0x80 ≤ b ∧ b < 0xC0 then continuation? k (n * 64 + b % 64) rest else none
    | none => none

def escaped? (cs : List Char) : Option (Char × List Char) :=
  match escapedByte? cs with
  | none => none
  | some (b, rest) =>
    match sequenceLength? b with
    | none => none
    | some 1 => some (Char.ofNat b, rest)
    | some n => (continuation? (n - 1) (b % Nat.pow 2 (7 - n)) rest).map fun r => (Char.ofNat r.1, r.2)

def uri? (verbatim : Bool) : Nat → Cursor → Option (List Char × Cursor)
  | 0, c => some ([], c)
  | fuel + 1, c =>
    match c.rest with
    | [] => some ([], c)
    | d :: _ =>
      if isUriChar verbatim d then
        if d = '%' then
          match escaped? c.rest with
          | none => none
          | some (e, rest) =>
            (uri? verbatim fuel (c.advance (c.rest.length - rest.length))).map fun r =>
              (e :: r.1, r.2)
        else (uri? verbatim fuel (c.advance 1)).map fun r => (d :: r.1, r.2)
      else some ([], c)

/-- A tag, which may also be a single exclamation mark. Its handle is empty if
its suffix is all there is to it. -/
def tagBody? (c : Cursor) : Option (Token × Cursor) :=
  if c.startsWith ['!', '<'] then
    match uri? true (c.rest.length + 1) (c.advance 2) with
    | some (suffix, next) =>
      if suffix ≠ [] && next.seesChar '>' then some (.tag [] suffix, next.advance 1) else none
    | none => none
  else
    match handle? false c with
    | none => none
    | some (handle, next) =>
      match uri? false (c.rest.length + 1) next with
      | none => none
      | some (suffix, last) =>
        if handle.length ≥ 2 ∧ handle.getLast? = some '!' then
          if suffix = [] then none else some (.tag handle suffix, last)
        else
          match handle.drop 1 ++ suffix with
          | [] => some (.tag [] ['!'], last)
          | d :: ds => some (.tag ['!'] (d :: ds), last)

/-- White space follows a tag, or inside brackets a comma. -/
def tag? (inFlow : Bool) (c : Cursor) : Option (Token × Cursor) :=
  match tagBody? c with
  | none => none
  | some (t, next) =>
    if next.endsWord 0 || (inFlow && next.seesChar ',') then some (t, next) else none

/-- A number of at most nine digits. -/
def versionNumber? (c : Cursor) : Option (Nat × Cursor) :=
  let (digits, next) := c.takeWhile Char.isDigit
  if digits = [] || 9 < digits.length then none
  else some (digits.foldl (fun n d => n * 10 + Text.digitValue d) 0, next)

def versionDirective? (c : Cursor) : Option (Token × Cursor) :=
  match versionNumber? (c.skipWhile isGap) with
  | none => none
  | some (major, c) =>
    if c.seesChar '.' then (versionNumber? (c.advance 1)).map fun r => (.version major r.1, r.2)
    else none

def tagDirective? (c : Cursor) : Option (Token × Cursor) :=
  match handle? true (c.skipWhile isGap) with
  | none => none
  | some (handle, c) =>
    if c.sees isGap then
      match uri? true (c.rest.length + 1) (c.skipWhile isGap) with
      | some (expansion, next) =>
        if expansion ≠ [] && next.endsWord 0 then some (.tagHandle handle expansion, next) else none
      | none => none
    else none

/-- A directive with its line, after the percent sign. -/
def directive? (c : Cursor) : Option (Token × Cursor) :=
  let (name, next) := c.takeWhile isWordChar
  if !next.endsWord 0 then none
  else
    let found :=
      if name = ['Y', 'A', 'M', 'L'] then versionDirective? next
      else if name = ['T', 'A', 'G'] then tagDirective? next
      else none
    match found with
    | none => none
    | some (t, c) => c.finishLine?.map fun c => (t, c)

end Token

end SchemaTypes.Yaml
