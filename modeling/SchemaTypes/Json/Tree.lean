import SchemaTypes.Json.Quoted

/-!
# A text as a tree

A text as far as it is JSON. The tree of a text keeps the places that failures
need, and where the text stops being JSON it keeps what was met there. So a
reader of the tree meets things in the order of the text, and decides by itself
what is a failure: the careful reader wants all values, the careless reader only
the shape of brackets and tokens.
-/

set_option autoImplicit false

namespace SchemaTypes.Json

inductive ListBreak
  | endOfText (p : Nat)
  | endAfterComma (p : Nat)
  | closeAfterComma (p : Nat)
  | strange (p : Nat)

def ListBreak.careful : ListBreak → Failure
  | .endOfText p => ⟨.endInList, some p⟩
  | .endAfterComma p => ⟨.endInValue, some p⟩
  | .closeAfterComma p => ⟨.trailingComma, some (p + 1)⟩
  | .strange p => ⟨.expectedListMore, some (p + 1)⟩

def ListBreak.careless : ListBreak → Failure
  | .closeAfterComma p => ⟨.expectedValue, some (p + 1)⟩
  | b => b.careful

/-- The failure if no further element was wanted. -/
def ListBreak.closing : ListBreak → Failure
  | .endOfText p => ⟨.endInList, some p⟩
  | .endAfterComma p => ⟨.trailingText, some p⟩
  | .closeAfterComma p => ⟨.trailingComma, some (p + 1)⟩
  | .strange p => ⟨.trailingText, some (p + 1)⟩

inductive ObjectBreak
  | endOfText (p : Nat)
  | endAfterComma (p : Nat)
  | closeAfterComma (p : Nat)
  | notKey (p : Nat)
  | strange (p : Nat)

def ObjectBreak.careful : ObjectBreak → Failure
  | .endOfText p => ⟨.endInObject, some p⟩
  | .endAfterComma p => ⟨.endInValue, some p⟩
  | .closeAfterComma p => ⟨.trailingComma, some (p + 1)⟩
  | .notKey p => ⟨.keyNotText, some (p + 1)⟩
  | .strange p => ⟨.expectedObjectMore, some (p + 1)⟩

def ObjectBreak.careless : ObjectBreak → Failure
  | .endAfterComma p => ⟨.endInObject, some p⟩
  | .closeAfterComma p => ⟨.keyNotText, some (p + 1)⟩
  | b => b.careful

mutual

inductive Tree
  | null (stop : Nat)
  | bool (b : Bool) (stop : Nat)
  | number (value : Except Failure Number) (stop : Nat)
  | string (value : Except Failure String) (stop : Nat)
  | list (start : Nat) (items : Items)
  | object (start : Nat) (entries : Entries)
  /-- No value can be read here. -/
  | broken (careful careless : Failure)

/-- The rest of a list: an element that begins at `start`, with the place `after`
it, its white space and the next comma or bracket. -/
inductive Items
  | close (stop : Nat)
  | item (start : Nat) (value : Tree) (after : Nat) (rest : Items)
  | broken (b : ListBreak)

/-- The rest of an object: a key, the place after it, its value and the place
after that. A key that cannot be read breaks the object off. -/
inductive Entries
  | close (stop : Nat)
  | entry (key : Except Failure String) (afterKey : Nat) (value : Tree) (after : Nat)
      (rest : Entries)
  | broken (b : ObjectBreak)
  | badKey (careful careless : Failure)

end

namespace Tree

def isSpace (c : Char) : Bool := c = ' ' || c = '\n' || c = '\t' || c = '\r'

def skipSpace : List Char → Nat → List Char × Nat
  | [], p => ([], p)
  | c :: cs, p => if isSpace c then skipSpace cs (p + 1) else (c :: cs, p)

/-- What is left of the text after something, if it can be read on. -/
abbrev Rest := Option (List Char × Nat)

def word (t : Nat → Tree) : List Char → List Char → Nat → Tree × Rest
  | [], cs, p => (t p, some (cs, p))
  | _ :: _, [], p => (.broken ⟨.endInValue, some p⟩ ⟨.endInValue, some p⟩, none)
  | e :: es, c :: cs, p =>
    if c = e then word t es cs (p + 1)
    else (.broken ⟨.expectedWord, some (p + 1)⟩ ⟨.expectedWord, some (p + 1)⟩, none)

def leaf {α : Type} (t : Except Failure α → Nat → Tree) (token : Token α) : Tree × Rest :=
  match token.careless with
  | .ok (cs, p) => (t token.careful p, some (cs, p))
  | .error careless =>
    match token.careful with
    | .error careful => (.broken careful careless, none)
    | .ok _ => (.broken careless careless, none)

inductive AfterItem
  | close (stop : Nat) (cs : List Char)
  | more (p : Nat) (cs : List Char)
  | broken (b : ListBreak)

def AfterItem.place : AfterItem → Nat
  | .close stop _ => stop
  | .more p _ => p
  | .broken (.endOfText p) => p
  | .broken (.endAfterComma p) => p
  | .broken (.closeAfterComma p) => p
  | .broken (.strange p) => p

def afterItem (cs : List Char) (p : Nat) : AfterItem :=
  match skipSpace cs p with
  | ([], p) => .broken (.endOfText p)
  | (c :: cs, p) =>
    if c = ']' then .close (p + 1) cs
    else if c = ',' then
      match skipSpace cs (p + 1) with
      | ([], p) => .broken (.endAfterComma p)
      | (c :: cs, p) => if c = ']' then .broken (.closeAfterComma p) else .more p (c :: cs)
    else .broken (.strange p)

def placeAfterKey (cs : List Char) (p : Nat) : Nat :=
  match skipSpace cs p with
  | ('\x7d' :: _, p) => p + 1
  | (_, p) => p

inductive AfterEntry
  | close (stop : Nat) (cs : List Char)
  | more (comma : Nat) (p : Nat) (cs : List Char)
  | broken (p : Nat) (b : ObjectBreak)

def AfterEntry.place : AfterEntry → Nat
  | .close stop _ => stop
  | .more comma _ _ => comma
  | .broken p _ => p

def afterEntry (cs : List Char) (p : Nat) : AfterEntry :=
  match skipSpace cs p with
  | ([], p) => .broken p (.endOfText p)
  | (c :: cs, p) =>
    if c = '\x7d' then .close (p + 1) cs
    else if c = ',' then
      match skipSpace cs (p + 1) with
      | ([], q) => .broken p (.endAfterComma q)
      | (c :: cs, q) =>
        if c = '\x22' then .more p (q + 1) cs
        else if c = '\x7d' then .broken p (.closeAfterComma q)
        else .broken p (.notKey q)
    else .broken p (.strange p)

mutual

/-- The tree of the value that begins here. Each level takes at least one
character of the text, so twice its length is enough fuel. -/
def value : Nat → List Char → Nat → Tree × Rest
  | 0, _, p => (.broken ⟨.endInValue, some p⟩ ⟨.endInValue, some p⟩, none)
  | fuel + 1, cs, p =>
    match cs with
    | [] => (.broken ⟨.endInValue, some p⟩ ⟨.endInValue, some p⟩, none)
    | c :: rest =>
      if c = 'n' then word .null ['u', 'l', 'l'] rest (p + 1)
      else if c = 't' then word (.bool true) ['r', 'u', 'e'] rest (p + 1)
      else if c = 'f' then word (.bool false) ['a', 'l', 's', 'e'] rest (p + 1)
      else if c = '-' then leaf .number (Numeral.scan true rest (p + 1))
      else if c.isDigit then leaf .number (Numeral.scan false (c :: rest) p)
      else if c = '\x22' then leaf .string (Quoted.scan rest (p + 1))
      else if c = '[' then
        match skipSpace rest (p + 1) with
        | ([], q) => (.list p (.broken (.endOfText q)), none)
        | (']' :: after, q) => (.list p (.close (q + 1)), some (after, q + 1))
        | (inside, q) =>
          match items fuel inside q with
          | (chain, left) => (.list p chain, left)
      else if c = '\x7b' then
        match skipSpace rest (p + 1) with
        | ([], q) => (.object p (.broken (.endOfText q)), none)
        | ('\x7d' :: after, q) => (.object p (.close (q + 1)), some (after, q + 1))
        | ('\x22' :: inside, q) =>
          match entries fuel inside (q + 1) with
          | (chain, left) => (.object p chain, left)
        | (_, q) => (.object p (.broken (.notKey q)), none)
      else (.broken ⟨.expectedValue, some (p + 1)⟩ ⟨.expectedValue, some (p + 1)⟩, none)

def items : Nat → List Char → Nat → Items × Rest
  | 0, _, p => (.broken (.endOfText p), none)
  | fuel + 1, cs, p =>
    match value fuel cs p with
    | (t, none) => (.item p t p (.close p), none)
    | (t, some (cs, q)) =>
      match afterItem cs q with
      | .close stop cs => (.item p t stop (.close stop), some (cs, stop))
      | .broken b => (.item p t (AfterItem.broken b).place (.broken b), none)
      | .more next cs =>
        match items fuel cs next with
        | (chain, left) => (.item p t next chain, left)

def entries : Nat → List Char → Nat → Entries × Rest
  | 0, _, p => (.broken (.endOfText p), none)
  | fuel + 1, cs, p =>
    let key := Quoted.scan cs p
    match key.careless with
    | .error careless =>
      match key.careful with
      | .error careful => (.badKey careful careless, none)
      | .ok _ => (.badKey careless careless, none)
    | .ok (cs, q) =>
      let afterKey := placeAfterKey cs q
      let stuck (f : Failure) : Entries × Rest :=
        (.entry key.careful afterKey (.broken f f) afterKey (.close afterKey), none)
      match skipSpace cs q with
      | ([], q) => stuck ⟨.endInObject, some q⟩
      | (':' :: cs, q) =>
        match skipSpace cs (q + 1) with
        | (cs, q) =>
          match value fuel cs q with
          | (t, none) => (.entry key.careful afterKey t afterKey (.close afterKey), none)
          | (t, some (cs, q)) =>
            match afterEntry cs q with
            | .close stop cs => (.entry key.careful afterKey t stop (.close stop), some (cs, stop))
            | .broken place b => (.entry key.careful afterKey t place (.broken b), none)
            | .more comma next cs =>
              match entries fuel cs next with
              | (chain, left) => (.entry key.careful afterKey t comma chain, left)
      | (_, q) => stuck ⟨.expectedColon, some (q + 1)⟩

end

def ofChars (cs : List Char) : Tree × Option Nat :=
  match skipSpace cs 0 with
  | (inside, p) =>
    match value (2 * cs.length + 2) inside p with
    | (t, none) => (t, none)
    | (t, some (left, q)) =>
      match skipSpace left q with
      | ([], _) => (t, none)
      | (_ :: _, q) => (t, some q)

end Tree

end SchemaTypes.Json
