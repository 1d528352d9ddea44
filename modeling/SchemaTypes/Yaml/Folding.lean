import SchemaTypes.Yaml.Cursor

/-!
# Folding

The white space between two words of a scalar that is written over several
lines. Within a line it stands for itself. A single line break stands for a
blank, and further breaks stand for themselves.
-/

set_option autoImplicit false

namespace SchemaTypes.Yaml

structure Gap where
  /-- The white space, if no line has ended yet. -/
  spaces : List Char := []
  broken : Bool := false
  first : List Char := []
  further : List Char := []

namespace Gap

def text (g : Gap) : List Char :=
  if g.broken then
    if g.first.head? = some '\n' then (if g.further = [] then [' '] else g.further)
    else g.first ++ g.further
  else g.spaces

/-- Reads a gap to its end. On a new line no tab may stand left of the column
`margin`. -/
def read (margin : Int) : Nat → Gap → Cursor → Option (Gap × Cursor)
  | 0, g, c => some (g, c)
  | fuel + 1, g, c =>
    match c.rest with
    | [] => some (g, c)
    | d :: _ =>
      if isGap d then
        if g.broken then
          if d = '\t' && (c.column : Int) < margin then none else read margin fuel g (c.advance 1)
        else read margin fuel { g with spaces := g.spaces ++ [d] } (c.advance 1)
      else if isBreak d then
        let (b, next) := c.readBreak
        if g.broken then read margin fuel { g with further := g.further ++ b } next
        else read margin fuel { g with broken := true, first := b } next
      else some (g, c)

end Gap

end SchemaTypes.Yaml
