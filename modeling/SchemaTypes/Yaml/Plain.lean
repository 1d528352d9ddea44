import SchemaTypes.Yaml.Folding

/-!
# Plain scalars

Scalars without quotes. A colon before white space ends one, and so does a
comment after white space; inside brackets the indicators of collections do too.
-/

set_option autoImplicit false

namespace SchemaTypes.Yaml.Plain

def isFlowIndicator (c : Char) : Bool :=
  c = ',' || c = '[' || c = ']' || c = '{' || c = '}'

def wordEnds : List Char → Bool
  | [] => true
  | c :: _ => isGapOrBreak c

def startsConfusion : List Char → Bool
  | [] => false
  | c :: _ => isFlowIndicator c || c = '?'

/-- The characters up to a gap or to the end of the scalar. Inside brackets a
colon must not stand before an indicator. -/
def run? (inFlow : Bool) : List Char → Option (List Char)
  | [] => some []
  | c :: cs =>
    if isGapOrBreak c then some []
    else if inFlow && c = ':' && startsConfusion cs then none
    else if (c = ':' && wordEnds cs) || (inFlow && isFlowIndicator c) then some []
    else (run? inFlow cs).map (c :: ·)

structure Scalar where
  text : List Char
  broken : Bool
  next : Cursor

/-- Reads on after the text `acc` and the gap `g`. Outside brackets every line
reaches the column `margin`. -/
def scan? (inFlow : Bool) (margin : Int) : Nat → List Char → Gap → Cursor → Option Scalar
  | 0, acc, g, c => some ⟨acc, g.broken, c⟩
  | fuel + 1, acc, g, c =>
    if c.atDocumentMark || c.seesChar '#' then some ⟨acc, g.broken, c⟩
    else
      match run? inFlow c.rest with
      | none => none
      | some word =>
        let acc := if word = [] then acc else acc ++ g.text ++ word
        let g : Gap := if word = [] then g else {}
        let c := c.advance word.length
        if c.sees isGapOrBreak then
          match g.read margin fuel c with
          | none => none
          | some (g, c) =>
            if !inFlow && (c.column : Int) < margin then some ⟨acc, g.broken, c⟩
            else scan? inFlow margin fuel acc g c
        else some ⟨acc, g.broken, c⟩

/-- The plain scalar that begins here, inside an indentation of `indent`. The fuel is
more than the characters that are left. -/
def read? (inFlow : Bool) (indent : Int) (fuel : Nat) (c : Cursor) : Option Scalar :=
  scan? inFlow (indent + 1) fuel [] {} c

end SchemaTypes.Yaml.Plain
