import SchemaTypes.Toml.Reader

/-!
# Quoted texts in TOML

Texts between double quotes have escapes, and texts between single quotes have
none. Between three quotes a text may have several lines: a line end right after
the opening quotes does not count, every other one is a line feed, and one or two
quotes are part of the text, also in front of the three that close it.
-/

set_option autoImplicit false

namespace SchemaTypes.Toml.Quoted

open Reader

def numbered? (digits : List Char) : Option Char :=
  match digits.foldlM (fun n d => (Text.hexValue? d).map (n * 16 + ·)) 0 with
  | some n => if n.isValidChar then some (Char.ofNat n) else none
  | none => none

def escaped? (c : Char) : Option Char :=
  if c = 'b' then some '\x08'
  else if c = 't' then some '\t'
  else if c = 'n' then some '\n'
  else if c = 'f' then some '\x0c'
  else if c = 'r' then some '\r'
  else if c = '\x22' then some '\x22'
  else if c = '\\' then some '\\'
  else none

def escape : Reader Char := do
  match ← peek with
  | none => failure
  | some c =>
    drop 1
    if c = 'u' ∨ c = 'U' then
      let count := if c = 'u' then 4 else 8
      let digits := (← get).take count
      drop count
      if digits.length = count then (numbered? digits : Option Char) else failure
    else (escaped? c : Option Char)

/-- How many quotes come next, and how many of them belong to the text: those
before the last three if there are three of them. -/
def closing? (quotes : Nat) : Option (Nat × Bool) :=
  if quotes < 3 then some (quotes, false)
  else if quotes ≤ 5 then some (quotes - 3, true)
  else none

/-- Whether a backslash is the last visible character of its line. -/
def endsLine (cs : List Char) : Bool :=
  match cs.dropWhile isGap with
  | '\n' :: _ => true
  | '\r' :: '\n' :: _ => true
  | _ => false

def margin : Nat → Reader Unit
  | 0 => failure
  | fuel + 1 => do
    gaps
    if ← newline then margin fuel

def line (quote : Char) (escapes : Bool) : Nat → List Char → Reader (List Char)
  | 0, _ => failure
  | fuel + 1, acc => do
    match ← peek with
    | none => failure
    | some c =>
      if c = quote then
        drop 1
        return acc.reverse
      else if escapes ∧ c = '\\' then
        drop 1
        line quote escapes fuel ((← escape) :: acc)
      else if isVisible c then
        drop 1
        line quote escapes fuel (c :: acc)
      else failure

def lines (quote : Char) (escapes : Bool) : Nat → List Char → Reader (List Char)
  | 0, _ => failure
  | fuel + 1, acc => do
    match ← peek with
    | none => failure
    | some c =>
      if c = quote then
        let run ← takeWhile (· = quote)
        match closing? run.length with
        | none => failure
        | some (n, ends) =>
          let acc := List.replicate n quote ++ acc
          if ends then return acc.reverse else lines quote escapes fuel acc
      else if escapes ∧ c = '\\' then
        drop 1
        let cs ← get
        if endsLine cs then
          margin (cs.length + 1)
          lines quote escapes fuel acc
        else lines quote escapes fuel ((← escape) :: acc)
      else if ← newline then lines quote escapes fuel ('\n' :: acc)
      else if isVisible c then
        drop 1
        lines quote escapes fuel (c :: acc)
      else failure

def short : Reader String := do
  let cs ← get
  match cs.head? with
  | none => failure
  | some quote =>
    drop 1
    return String.ofList (← line quote (quote = '\x22') (cs.length + 1) [])

/-- A text of either kind, whose first character is a quote. -/
def text : Reader String := do
  let cs ← get
  match cs.head? with
  | none => failure
  | some quote =>
    if ← took [quote, quote, quote] then
      discard newline
      return String.ofList (← lines quote (quote = '\x22') (cs.length + 1) [])
    else short

end SchemaTypes.Toml.Quoted
