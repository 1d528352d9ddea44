import SchemaTypes.Json.Numeral

/-!
# Texts in JSON

A text after its opening quote, for the two readers. The careful reader decodes
the escapes, and two escapes for the halves of one character must stand side by
side. The careless reader takes any four hexadecimal digits after `\u`.
-/

set_option autoImplicit false

namespace SchemaTypes.Json.Quoted

def shortEscape? (c : Char) : Option Char :=
  if c = '\x22' then some '\x22'
  else if c = '\\' then some '\\'
  else if c = '/' then some '/'
  else if c = 'b' then some '\x08'
  else if c = 'f' then some '\x0c'
  else if c = 'n' then some '\n'
  else if c = 'r' then some '\r'
  else if c = 't' then some '\t'
  else none

def hex? (a b c d : Char) : Option Nat :=
  match Text.hexValue? a, Text.hexValue? b, Text.hexValue? c, Text.hexValue? d with
  | some w, some x, some y, some z => some (w * 4096 + x * 256 + y * 16 + z)
  | _, _, _, _ => none

/-- Why the characters after `\u` are not four hexadecimal digits: they are
fewer than four bytes, or they are others. -/
def hexFailure (cs : List Char) (p : Nat) : Failure :=
  if byteCount (cs.take 4) < 4 then ⟨.endInString, some (p + byteCount cs)⟩
  else ⟨.invalidEscape, some (p + 4)⟩

def isLeading (n : Nat) : Bool := 0xD800 ≤ n && n ≤ 0xDBFF

def isTrailing (n : Nat) : Bool := 0xDC00 ≤ n && n ≤ 0xDFFF

def paired (high low : Nat) : Char :=
  Char.ofNat ((high - 0xD800) * 0x400 + (low - 0xDC00) + 0x10000)

abbrev Decoded := List Char × List Char × Nat

def prepend (c : Char) : Except Failure Decoded → Except Failure Decoded
  | .ok (cs, rest, p) => .ok (c :: cs, rest, p)
  | .error f => .error f

/-- The second half of a character is missing at `p`. -/
def noSecondHalf (cs : List Char) (p : Nat) : Failure :=
  match cs with
  | [] => ⟨.endInString, some p⟩
  | '\\' :: [] => ⟨.endInString, some (p + 1)⟩
  | '\\' :: 'u' :: rest => hexFailure rest (p + 2)
  | '\\' :: _ :: _ => ⟨.cutEscape, some (p + 2)⟩
  | _ :: _ => ⟨.cutEscape, some (p + 1)⟩

def decode : List Char → Nat → Except Failure Decoded
  | [], p => .error ⟨.endInString, some p⟩
  | '\\' :: 'u' :: a :: b :: c :: d :: rest, p =>
    match hex? a b c d with
    | none => .error (hexFailure (a :: b :: c :: d :: rest) (p + 2))
    | some n =>
      if isTrailing n then .error ⟨.loneSurrogate, some (p + 6)⟩
      else if isLeading n then
        match rest with
        | '\\' :: 'u' :: a2 :: b2 :: c2 :: d2 :: rest2 =>
          match hex? a2 b2 c2 d2 with
          | none => .error (hexFailure (a2 :: b2 :: c2 :: d2 :: rest2) (p + 8))
          | some m =>
            if isTrailing m then prepend (paired n m) (decode rest2 (p + 12))
            else .error ⟨.loneSurrogate, some (p + 12)⟩
        | _ => .error (noSecondHalf rest (p + 6))
      else prepend (Char.ofNat n) (decode rest (p + 6))
  | '\\' :: 'u' :: rest, p => .error (hexFailure rest (p + 2))
  | '\\' :: c :: rest, p =>
    match shortEscape? c with
    | some e => prepend e (decode rest (p + 2))
    | none => .error ⟨.invalidEscape, some (p + 2)⟩
  | '\\' :: [], p => .error ⟨.endInString, some (p + 1)⟩
  | c :: rest, p =>
    if c = '\x22' then .ok ([], rest, p + 1)
    else if c.toNat < 0x20 then .error ⟨.controlCharacter, some (p + 1)⟩
    else prepend c (decode rest (p + c.utf8Size))

def skip : List Char → Nat → Except Failure (List Char × Nat)
  | [], p => .error ⟨.endInString, some p⟩
  | '\\' :: 'u' :: a :: b :: c :: d :: rest, p =>
    match hex? a b c d with
    | none => .error (hexFailure (a :: b :: c :: d :: rest) (p + 2))
    | some _ => skip rest (p + 6)
  | '\\' :: 'u' :: rest, p => .error (hexFailure rest (p + 2))
  | '\\' :: c :: rest, p =>
    match shortEscape? c with
    | some _ => skip rest (p + 2)
    | none => .error ⟨.invalidEscape, some (p + 2)⟩
  | '\\' :: [], p => .error ⟨.endInString, some (p + 1)⟩
  | c :: rest, p =>
    if c = '\x22' then .ok (rest, p + 1)
    else if c.toNat < 0x20 then .error ⟨.controlCharacter, some p⟩
    else skip rest (p + c.utf8Size)

def scan (cs : List Char) (p : Nat) : Token String :=
  ⟨(decode cs p).map fun d => String.ofList d.1, skip cs p⟩

end SchemaTypes.Json.Quoted
