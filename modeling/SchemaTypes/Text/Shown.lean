import SchemaTypes.Text.HiddenTable

/-!
# Texts as messages show them

A text between double quotes in which every character that could not be seen is
written as an escape.
-/

set_option autoImplicit false

namespace SchemaTypes.Text

def isShown (c : Char) : Bool := !inRanges hiddenRanges c.toNat

def hexDigits (n : Nat) : List Char := Nat.toDigits 16 n

def shownChar (c : Char) : List Char :=
  if c = '\x00' then ['\\', '0']
  else if c = '\t' then ['\\', 't']
  else if c = '\r' then ['\\', 'r']
  else if c = '\n' then ['\\', 'n']
  else if c = '\\' then ['\\', '\\']
  else if c = '\x22' then ['\\', '\x22']
  else if isShown c then [c]
  else '\\' :: 'u' :: '\x7b' :: (hexDigits c.toNat ++ ['\x7d'])

def shown (s : String) : String :=
  String.ofList ('\x22' :: (s.toList.flatMap shownChar ++ ['\x22']))

end SchemaTypes.Text
