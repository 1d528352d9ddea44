import SchemaTypes.Text.CaseTable

/-!
# Small letters

A text in small letters, with regard to the letters of ASCII alone or to all of
Unicode. There one letter becomes two characters, and the capital sigma becomes a
final sigma at the end of a word.
-/

set_option autoImplicit false

namespace SchemaTypes.Text

def asciiLower (s : String) : String := String.ofList (s.toList.map Char.toLower)

def CaseRun.holds (r : CaseRun) (n : Nat) : Bool :=
  r.first ≤ n && n ≤ r.last && (n - r.first) % r.step = 0

/-- The small letters of a character, whatever is around it. -/
def lowerChar (c : Char) : List Char :=
  if c.toNat < 0x80 then [c.toLower]
  else if c = '\u0130' then ['i', '\u0307']
  else
    match caseRuns.find? fun r => r.holds c.toNat with
    | some r => [Char.ofNat (c.toNat + r.shift).toNat]
    | none => [c]

def isCased (c : Char) : Bool := inRanges casedRanges c.toNat

def isCaseIgnorable (c : Char) : Bool := inRanges caseIgnorableRanges c.toNat

def meetsCase (cs : List Char) : Bool :=
  match cs.dropWhile isCaseIgnorable with
  | c :: _ => isCased c
  | [] => false

/-- The small sigma between the characters before it, the nearest one first, and
those after it. -/
def smallSigma (before after : List Char) : Char :=
  if meetsCase before && !meetsCase after then '\u03c2' else '\u03c3'

def lowerAfter (before : List Char) : List Char → List Char
  | [] => []
  | c :: cs =>
    (if c = '\u03a3' then [smallSigma before cs] else lowerChar c) ++ lowerAfter (c :: before) cs

def lowerChars (cs : List Char) : List Char := lowerAfter [] cs

end SchemaTypes.Text
