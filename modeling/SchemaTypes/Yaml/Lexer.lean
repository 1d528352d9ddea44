import SchemaTypes.Yaml.Block
import SchemaTypes.Yaml.Plain
import SchemaTypes.Yaml.Quoted
import SchemaTypes.Yaml.Token

/-!
# The tokens of a text

Tokens are read one after the other. Indentation is turned into tokens that open
and close block collections. That something is the key of a mapping is known
only at the colon after it, so every place where a key can begin is remembered
for the rest of its line, and the tokens that announce a key are put in there
afterwards.
-/

set_option autoImplicit false

namespace SchemaTypes.Yaml

/-- A place where a key may have begun: the number of tokens before it, and
whether it must turn out to be a key. -/
structure KeyPlace where
  count : Nat
  required : Bool
  index : Nat
  line : Nat
  column : Nat

structure Lexer where
  cursor : Cursor
  /-- The tokens so far, the last one first. -/
  tokens : List Token := []
  count : Nat := 0
  indent : Int := -1
  outer : List Int := []
  /-- The place of a possible key outside brackets, and in each pair of open
  brackets, the innermost first. -/
  place : Option KeyPlace := none
  outerPlaces : List (Option KeyPlace) := []
  keyAllowed : Bool := true

namespace Lexer

def inFlow (l : Lexer) : Bool := !l.outerPlaces.isEmpty

def emit (l : Lexer) (t : Token) : Lexer :=
  { l with tokens := t :: l.tokens, count := l.count + 1 }

/-- Puts a token behind the first `count` ones. -/
def insertAt (l : Lexer) (count : Nat) (t : Token) : Lexer :=
  let later := l.count - count
  { l with tokens := l.tokens.take later ++ t :: l.tokens.drop later, count := l.count + 1 }

/-- Gives up a place that need not be a key. -/
def forgetKey? (l : Lexer) : Option Lexer :=
  match l.place with
  | some k => if k.required then none else some { l with place := none }
  | none => some l

/-- Remembers this place, if a key can begin here. A key must begin where a line
of a block mapping begins. -/
def rememberKey? (l : Lexer) : Option Lexer :=
  if l.keyAllowed then
    let c := l.cursor
    let required := !l.inFlow && l.indent = (c.column : Int)
    l.forgetKey?.map fun l =>
      { l with place := some ⟨l.count, required, c.index, c.line, c.column⟩ }
  else some l

/-- A key ends on its line, and within 1024 characters. -/
def isStale (c : Cursor) (k : KeyPlace) : Bool := k.line < c.line || k.index + 1024 < c.index

def dropStale? (c : Cursor) : Option KeyPlace → Option (Option KeyPlace)
  | none => some none
  | some k => if isStale c k then (if k.required then none else some none) else some (some k)

def forgetStale? (l : Lexer) : Option Lexer :=
  match dropStale? l.cursor l.place, l.outerPlaces.mapM (dropStale? l.cursor) with
  | some p, some ps => some { l with place := p, outerPlaces := ps }
  | _, _ => none

def openBlock (l : Lexer) (column : Int) (count : Option Nat) (t : Token) : Lexer :=
  if l.inFlow then l
  else if l.indent < column then
    let l := { l with outer := l.indent :: l.outer, indent := column }
    match count with
    | some n => l.insertAt n t
    | none => l.emit t
  else l

def closeIndents (column : Int) (tokens : List Token) (indent : Int) :
    List Int → List Token × Int × List Int
  | [] => (tokens, indent, [])
  | i :: is =>
    if column < indent then closeIndents column (.blockEnd :: tokens) i is
    else (tokens, indent, i :: is)

def closeBlocks (l : Lexer) (column : Int) : Lexer :=
  if l.inFlow then l
  else
    let (tokens, indent, outer) := closeIndents column l.tokens l.indent l.outer
    { l with
      tokens := tokens, indent := indent, outer := outer
      count := l.count + (l.outer.length - outer.length) }

def atMark (l : Lexer) : Bool := l.cursor.index = 0 && l.cursor.seesChar '\ufeff'

def isSkipped (l : Lexer) (d : Char) : Bool :=
  d = ' ' || ((l.inFlow || !l.keyAllowed) && d = '\t')

/-- Past white space, comments and line ends. Outside brackets a new line can
begin a key, and a tab cannot stand where a key can begin. -/
def skipSpace : Nat → Lexer → Lexer
  | 0, l => l
  | fuel + 1, l =>
    let c := if l.atMark then l.cursor.advance 1 else l.cursor
    let c := (c.skipWhile l.isSkipped).skipComment
    if c.sees isBreak then
      skipSpace fuel
        { l with cursor := c.skipBreak, keyAllowed := if l.inFlow then l.keyAllowed else true }
    else { l with cursor := c }

def moved (l : Lexer) (n : Nat) : Lexer := { l with cursor := l.cursor.advance n }

/-- A mark or a directive, which is no part of a document. -/
def outside? (l : Lexer) (read? : Cursor → Option (Token × Cursor)) : Option Lexer :=
  match (l.closeBlocks (-1)).forgetKey? with
  | none => none
  | some l =>
    (read? l.cursor).map fun r => { l.emit r.1 with cursor := r.2, keyAllowed := false }

def openFlow? (l : Lexer) (t : Token) : Option Lexer :=
  l.rememberKey?.map fun l =>
    { (l.emit t).moved 1 with
      outerPlaces := l.place :: l.outerPlaces, place := none, keyAllowed := true }

def closeFlow? (l : Lexer) (t : Token) : Option Lexer :=
  l.forgetKey?.map fun l =>
    let l :=
      match l.outerPlaces with
      | [] => l
      | p :: ps => { l with place := p, outerPlaces := ps }
    { (l.emit t).moved 1 with keyAllowed := false }

def flowEntry? (l : Lexer) : Option Lexer :=
  l.forgetKey?.map fun l => { (l.emit .flowEntry).moved 1 with keyAllowed := true }

def blockEntry? (l : Lexer) : Option Lexer :=
  if !l.inFlow && !l.keyAllowed then none
  else
    (l.openBlock l.cursor.column none .blockSequence).forgetKey?.map fun l =>
      { (l.emit .blockEntry).moved 1 with keyAllowed := true }

def key? (l : Lexer) : Option Lexer :=
  if !l.inFlow && !l.keyAllowed then none
  else
    (l.openBlock l.cursor.column none .blockMapping).forgetKey?.map fun l =>
      { (l.emit .key).moved 1 with keyAllowed := !l.inFlow }

/-- A colon: the key before it began at the remembered place, or was announced by
a question mark. -/
def value? (l : Lexer) : Option Lexer :=
  match l.place with
  | some k =>
    let l := (l.insertAt k.count .key).openBlock k.column (some k.count) .blockMapping
    some { (l.emit .value).moved 1 with place := none, keyAllowed := false }
  | none =>
    if !l.inFlow && !l.keyAllowed then none
    else
      let l := l.openBlock l.cursor.column none .blockMapping
      some { (l.emit .value).moved 1 with keyAllowed := !l.inFlow }

def keyStart? (l : Lexer) (read? : Cursor → Option (Token × Cursor)) : Option Lexer :=
  match l.rememberKey? with
  | none => none
  | some l =>
    (read? l.cursor).map fun r => { l.emit r.1 with cursor := r.2, keyAllowed := false }

def blockScalar? (fuel : Nat) (l : Lexer) (literal : Bool) : Option Lexer :=
  match l.forgetKey? with
  | none => none
  | some l =>
    (Block.read? literal l.indent fuel (l.cursor.advance 1)).map fun r =>
      { l.emit (.scalar r.1 false) with cursor := r.2, keyAllowed := true }

def quotedScalar? (fuel : Nat) (l : Lexer) (quote : Char) : Option Lexer :=
  l.keyStart? fun c =>
    (Quoted.read? quote fuel (c.advance 1)).map fun r => (.scalar r.1 false, r.2)

def plainScalar? (fuel : Nat) (l : Lexer) : Option Lexer :=
  match l.rememberKey? with
  | none => none
  | some l =>
    (Plain.read? l.inFlow l.indent fuel l.cursor).map fun r =>
      { l.emit (.scalar r.text true) with cursor := r.next, keyAllowed := r.broken }

/-- The indicators, which do not begin a plain scalar unless a word goes on after them. -/
def isIndicator (c : Char) : Bool :=
  ['-', '?', ':', ',', '[', ']', '{', '}', '#', '&', '*', '!', '|', '>', '\x27', '\x22', '%', '@',
    '\x60'].contains c

def startsPlain (l : Lexer) (d : Char) : Bool :=
  (!isIndicator d && !isGapOrBreak d) ||
    (d = '-' && !(match l.cursor.peekAt 1 with | some e => isGap e | none => false)) ||
    (!l.inFlow && (d = '?' || d = ':') && !l.cursor.endsWord 1)

/-- Reads the token that begins with the character `d`. -/
def token? (fuel : Nat) (l : Lexer) (d : Char) : Option Lexer :=
  let c := l.cursor
  if c.column = 0 && d = '%' then l.outside? fun c => Token.directive? (c.advance 1)
  else if c.atDocumentMark then
    l.outside? fun c => some (if d = '-' then .documentStart else .documentEnd, c.advance 3)
  else if d = '[' then l.openFlow? .flowSequence
  else if d = '{' then l.openFlow? .flowMapping
  else if d = ']' then l.closeFlow? .flowSequenceEnd
  else if d = '}' then l.closeFlow? .flowMappingEnd
  else if d = ',' then l.flowEntry?
  else if d = '-' && c.endsWord 1 then l.blockEntry?
  else if d = '?' && (l.inFlow || c.endsWord 1) then l.key?
  else if d = ':' && (l.inFlow || c.endsWord 1) then l.value?
  else if d = '*' then
    l.keyStart? fun c => (Token.name? (c.advance 1)).map fun r => (.alias r.1, r.2)
  else if d = '&' then
    l.keyStart? fun c => (Token.name? (c.advance 1)).map fun r => (.anchor r.1, r.2)
  else if d = '!' then l.keyStart? (Token.tag? l.inFlow)
  else if d = '|' && !l.inFlow then l.blockScalar? fuel true
  else if d = '>' && !l.inFlow then l.blockScalar? fuel false
  else if d = '\x27' || d = '\x22' then l.quotedScalar? fuel d
  else if l.startsPlain d then l.plainScalar? fuel
  else none

/-- Reads tokens to the end. Every token takes at least one character, so the fuel is
always more than the characters that are left. -/
def run? : Nat → Lexer → Option (List Token)
  | 0, _ => none
  | fuel + 1, l =>
    match (skipSpace (fuel + 1) l).forgetStale? with
    | none => none
    | some l =>
      match l.cursor.rest with
      | [] => (l.closeBlocks (-1)).forgetKey?.map fun l => l.tokens.reverse
      | d :: _ =>
        match (l.closeBlocks l.cursor.column).token? (fuel + 1) d with
        | none => none
        | some l => run? fuel l

end Lexer

/-- The tokens of a text, nothing if it is no YAML. -/
def tokens? (cs : List Char) : Option (List Token) :=
  if cs.all isAllowed then Lexer.run? (cs.length + 1) { cursor := ⟨cs, 0, 0, 0⟩ } else none

end SchemaTypes.Yaml
