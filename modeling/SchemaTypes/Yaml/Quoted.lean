import SchemaTypes.Yaml.Folding

/-!
# Quoted scalars

Scalars in single quotes, where a quote is written twice, and in double quotes,
where a backslash begins an escape. A backslash at the end of a line joins the
lines.
-/

set_option autoImplicit false

namespace SchemaTypes.Yaml.Quoted

/-- Characters without a gap: their text, how many they are, and whether a
backslash before a line break follows. -/
structure Run where
  text : List Char := []
  count : Nat := 0
  joined : Bool := false

def Run.cons (c : Char) (n : Nat) (r : Run) : Run := ⟨c :: r.text, r.count + n, r.joined⟩

def single : List Char → Run
  | [] => {}
  | '\x27' :: '\x27' :: cs => (single cs).cons '\x27' 2
  | c :: cs => if c = '\x27' || isGapOrBreak c then {} else (single cs).cons c 1

def shortEscape? (c : Char) : Option Char :=
  if c = '0' then some '\x00'
  else if c = 'a' then some '\x07'
  else if c = 'b' then some '\x08'
  else if c = 't' || c = '\t' then some '\t'
  else if c = 'n' then some '\n'
  else if c = 'v' then some '\x0b'
  else if c = 'f' then some '\x0c'
  else if c = 'r' then some '\r'
  else if c = 'e' then some '\x1b'
  else if c = ' ' then some ' '
  else if c = '\x22' then some '\x22'
  else if c = '/' then some '/'
  else if c = '\\' then some '\\'
  else if c = 'N' then some '\u0085'
  else if c = '_' then some '\u00a0'
  else if c = 'L' then some '\u2028'
  else if c = 'P' then some '\u2029'
  else none

def number? : List Char → Nat → Option Nat
  | [], n => some n
  | c :: cs, n => (Text.hexValue? c).bind fun d => number? cs (n * 16 + d)

/-- The character with the hexadecimal number, which must not be a surrogate. -/
def numbered? (digits : List Char) : Option Char :=
  (number? digits 0).bind fun n => if n.isValidChar then some (Char.ofNat n) else none

def double? : List Char → Option Run
  | [] => some {}
  | '\\' :: 'x' :: a :: b :: cs =>
    match numbered? [a, b], double? cs with
    | some c, some r => some (r.cons c 4)
    | _, _ => none
  | '\\' :: 'u' :: a :: b :: c :: d :: cs =>
    match numbered? [a, b, c, d], double? cs with
    | some c, some r => some (r.cons c 6)
    | _, _ => none
  | '\\' :: 'U' :: a :: b :: c :: d :: e :: f :: g :: h :: cs =>
    match numbered? [a, b, c, d, e, f, g, h], double? cs with
    | some c, some r => some (r.cons c 10)
    | _, _ => none
  | '\\' :: c :: cs =>
    if isBreak c then some { joined := true }
    else
      match shortEscape? c, double? cs with
      | some e, some r => some (r.cons e 2)
      | _, _ => none
  | c :: cs =>
    if c = '\\' then none
    else if c = '\x22' || isGapOrBreak c then some {}
    else (double? cs).map (Run.cons c 1)

def run? (quote : Char) (cs : List Char) : Option Run :=
  if quote = '\x27' then some (single cs) else double? cs

def scan? (quote : Char) : Nat → List Char → Cursor → Option (List Char × Cursor)
  | 0, _, _ => none
  | fuel + 1, acc, c =>
    if c.atDocumentMark || c.rest = [] then none
    else
      match run? quote c.rest with
      | none => none
      | some r =>
        let acc := acc ++ r.text
        let c := c.advance r.count
        let c := if r.joined then (c.advance 1).skipBreak else c
        if c.seesChar quote then some (acc, c.advance 1)
        else
          match Gap.read 0 fuel { broken := r.joined } c with
          | none => none
          | some (g, c) => scan? quote fuel (acc ++ g.text) c

/-- The scalar after its opening quote. The fuel is more than the characters that are
left. -/
def read? (quote : Char) (fuel : Nat) (c : Cursor) : Option (List Char × Cursor) :=
  scan? quote fuel [] c

end SchemaTypes.Yaml.Quoted
