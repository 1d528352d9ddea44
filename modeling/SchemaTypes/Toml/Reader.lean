import SchemaTypes.Text.Digit

/-!
# Readers of TOML

A reader takes characters from the front of a text, or fails. Here are the small
ones: blanks, comments and the ends of lines.
-/

set_option autoImplicit false

namespace SchemaTypes.Toml

abbrev Reader := StateT (List Char) Option

namespace Reader

def peek : Reader (Option Char) := do return (← get).head?

def drop (n : Nat) : Reader Unit := modify fun cs => cs.drop n

/-- Takes these characters if they come next. -/
def took (s : List Char) : Reader Bool := do
  if s.isPrefixOf (← get) then
    drop s.length
    return true
  return false

def expect (s : List Char) : Reader Unit := do
  if !(← took s) then failure

def takeWhile (p : Char → Bool) : Reader (List Char) := do
  let run := (← get).takeWhile p
  drop run.length
  return run

def isGap (c : Char) : Bool := c = ' ' || c = '\t'

/-- What may stand in comments and in texts: all but the control characters of
ASCII, of which the tab is allowed. -/
def isVisible (c : Char) : Bool := c = '\t' || (0x20 ≤ c.toNat && c.toNat ≠ 0x7F)

def gaps : Reader Unit := do discard (takeWhile isGap)

def newline : Reader Bool := do
  if ← took ['\n'] then return true
  took ['\r', '\n']

def comment : Reader Unit := do
  if ← took ['#'] then discard (takeWhile isVisible)

/-- The rest of a line that holds no more than a comment. -/
def endOfLine : Reader Unit := do
  gaps
  comment
  if (← peek).isSome then
    if !(← newline) then failure

def space : Nat → Reader Unit
  | 0 => failure
  | fuel + 1 => do
    gaps
    match ← peek with
    | some '#' =>
      comment
      if ← newline then space fuel else failure
    | _ => if ← newline then space fuel

end Reader

end SchemaTypes.Toml
