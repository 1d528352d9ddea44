import SchemaTypes.Yaml.Cursor

/-!
# Block scalars

Scalars whose lines are indented below a header. Literal ones keep their line
breaks, folded ones join lines that do not begin with white space. The header
may give the indentation and say what becomes of the breaks at the end.
-/

set_option autoImplicit false

namespace SchemaTypes.Yaml.Block

/-- What becomes of the line breaks at the end: none, the first, or all stay. -/
inductive Chomping
  | strip
  | clip
  | keep
deriving DecidableEq

structure Header where
  chomping : Chomping
  increment : Option Nat
  next : Cursor

def chomping? (c : Cursor) : Option Chomping :=
  if c.seesChar '+' then some .keep else if c.seesChar '-' then some .strip else none

/-- An indentation digit, which must not be zero. -/
def increment? (c : Cursor) : Option (Option Nat × Cursor) :=
  match c.rest with
  | d :: _ =>
    if d.isDigit then
      if d = '0' then none else some (some (Text.digitValue d), c.advance 1)
    else some (none, c)
  | [] => some (none, c)

def header? (c : Cursor) : Option Header :=
  match chomping? c with
  | some k =>
    match increment? (c.advance 1) with
    | none => none
    | some (n, c) => c.finishLine?.map fun c => ⟨k, n, c⟩
  | none =>
    match increment? c with
    | none => none
    | some (none, c) => c.finishLine?.map fun c => ⟨.clip, none, c⟩
    | some (some n, c) =>
      match chomping? c with
      | some k => (c.advance 1).finishLine?.map fun c => ⟨k, some n, c⟩
      | none => c.finishLine?.map fun c => ⟨.clip, some n, c⟩

/-- The blanks of an indentation that is still left of the column `indent`, or of
any indentation if that is not known yet. -/
def skipIndent (indent : Nat) : List Char → Nat → Nat
  | ' ' :: cs, column =>
    if indent = 0 || column < indent then skipIndent indent cs (column + 1) + 1 else 0
  | _, _ => 0

structure Breaks where
  text : List Char
  widest : Nat
  next : Cursor

def breaks? (indent : Nat) : Nat → List Char → Nat → Cursor → Option Breaks
  | 0, acc, widest, c => some ⟨acc, widest, c⟩
  | fuel + 1, acc, widest, c =>
    let c := c.advance (skipIndent indent c.rest c.column)
    let widest := max widest c.column
    if (indent = 0 || c.column < indent) && c.seesChar '\t' then none
    else if c.sees isBreak then
      let (b, next) := c.readBreak
      breaks? indent fuel (acc ++ b) widest next
    else some ⟨acc, widest, c⟩

/-- The lines of the scalar: its text, the break after the last line, and the
empty lines after that. -/
structure Lines where
  text : List Char
  last : List Char
  trailing : List Char
  next : Cursor

def foldsInto (literal leadingGap gap : Bool) (last : List Char) : Bool :=
  !literal && last.head? = some '\n' && !leadingGap && !gap

def lines? (literal : Bool) (indent : Nat) : Nat → Bool → Lines → Option Lines
  | 0, _, l => some l
  | fuel + 1, leadingGap, l =>
    let c := l.next
    if c.column = indent && c.rest ≠ [] then
      let gap := c.sees isGap
      let joint :=
        if foldsInto literal leadingGap gap l.last then
          (if l.trailing = [] then [' '] else [])
        else l.last
      let (line, c) := c.takeWhile fun d => !isBreak d
      let (last, c) := c.readBreak
      match breaks? indent fuel [] 0 c with
      | none => none
      | some b =>
        lines? literal indent fuel gap ⟨l.text ++ joint ++ l.trailing ++ line, last, b.text, b.next⟩
    else some l

def chomp (k : Chomping) (l : Lines) : List Char :=
  match k with
  | .strip => l.text
  | .clip => l.text ++ l.last
  | .keep => l.text ++ l.last ++ l.trailing

/-- The scalar after its indicator, inside an indentation of `outer`. The fuel is more
than the characters that are left. -/
def read? (literal : Bool) (outer : Int) (fuel : Nat) (c : Cursor) : Option (List Char × Cursor) :=
  match header? c with
  | none => none
  | some h =>
    let given : Nat := match h.increment with
      | some n => if 0 ≤ outer then outer.toNat + n else n
      | none => 0
    match breaks? given fuel [] 0 h.next with
    | none => none
    | some b =>
      let indent := if given = 0 then max (max b.widest (outer + 1).toNat) 1 else given
      match lines? literal indent fuel false ⟨[], [], b.text, b.next⟩ with
      | none => none
      | some l => some (chomp h.chomping l, l.next)

end SchemaTypes.Yaml.Block
