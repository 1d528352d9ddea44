import SchemaTypes.Text.Digit

/-!
# Cursors

A place in a YAML text: the characters from there on, and where that is. The
five characters that end a line, the two that separate words, and the marks that
begin and end a document.
-/

set_option autoImplicit false

namespace SchemaTypes.Yaml

structure Cursor where
  rest : List Char
  index : Nat := 0
  line : Nat := 0
  column : Nat := 0

def isBreak (c : Char) : Bool :=
  c = '\r' || c = '\n' || c = '\u0085' || c = '\u2028' || c = '\u2029'

def isGap (c : Char) : Bool := c = ' ' || c = '\t'

def isGapOrBreak (c : Char) : Bool := isGap c || isBreak c

def isWordChar (c : Char) : Bool := c.isAlphanum || c = '_' || c = '-'

def isAllowed (c : Char) : Bool :=
  let n := c.toNat
  n = 0x09 || n = 0x0A || n = 0x0D || (0x20 ≤ n && n ≤ 0x7E) || n = 0x85 ||
    (0xA0 ≤ n && n ≤ 0xD7FF) || (0xE000 ≤ n && n ≤ 0xFFFD) || 0x10000 ≤ n

namespace Cursor

def peekAt (c : Cursor) (n : Nat) : Option Char := c.rest[n]?

def sees (c : Cursor) (p : Char → Bool) : Bool :=
  match c.rest with
  | [] => false
  | d :: _ => p d

def seesChar (c : Cursor) (d : Char) : Bool := c.sees (· = d)

/-- Whether the character after `n` others is a gap, a break, or none at all. -/
def endsWord (c : Cursor) (n : Nat) : Bool :=
  match c.peekAt n with
  | none => true
  | some d => isGapOrBreak d

def endsLine (c : Cursor) : Bool :=
  match c.rest with
  | [] => true
  | d :: _ => isBreak d

/-- Past `n` characters of one line. -/
def advance (c : Cursor) (n : Nat) : Cursor :=
  ⟨c.rest.drop n, c.index + n, c.line, c.column + n⟩

/-- Past a line break, of which the pair of return and line feed is one, with the
text that stands for the break in a scalar. -/
def readBreak (c : Cursor) : List Char × Cursor :=
  match c.rest with
  | '\r' :: '\n' :: cs => (['\n'], ⟨cs, c.index + 2, c.line + 1, 0⟩)
  | d :: cs =>
    let text := if d = '\u2028' || d = '\u2029' then [d] else ['\n']
    if isBreak d then (text, ⟨cs, c.index + 1, c.line + 1, 0⟩) else ([], c)
  | [] => ([], c)

def skipBreak (c : Cursor) : Cursor := c.readBreak.2

def takeWhile (c : Cursor) (p : Char → Bool) : List Char × Cursor :=
  let run := c.rest.takeWhile p
  (run, c.advance run.length)

def skipWhile (c : Cursor) (p : Char → Bool) : Cursor := (c.takeWhile p).2

/-- Past a comment, if there is one. -/
def skipComment (c : Cursor) : Cursor :=
  if c.seesChar '#' then c.skipWhile fun d => !isBreak d else c

/-- Past gaps, a comment and the end of the line; nothing if there is more on it. -/
def finishLine? (c : Cursor) : Option Cursor :=
  let c := (c.skipWhile isGap).skipComment
  if c.endsLine then some c.skipBreak else none

def startsWith (c : Cursor) (mark : List Char) : Bool := mark.isPrefixOf c.rest

def atDocumentMark (c : Cursor) : Bool :=
  c.column = 0 && (c.startsWith ['-', '-', '-'] || c.startsWith ['.', '.', '.']) && c.endsWord 3

end Cursor

end SchemaTypes.Yaml
