/-!
# Faults

Why an operation on a file or a directory fails, and how that is told.
-/

set_option autoImplicit false

namespace SchemaTypes.Files

inductive Fault
  | missing
  | exists
  | notDirectory
  | isDirectory
  | nameTooLong
  | tooManyLinks
  /-- The name has a zero character in it. -/
  | zeroInName
  /-- The bytes of the file are not text in UTF-8. -/
  | notText
  /-- Any other fault, in the words of the system. -/
  | other (text : String)
deriving DecidableEq, Repr

namespace Fault

def message : Fault → String
  | .missing => "No such file or directory (os error 2)"
  | .exists => "File exists (os error 17)"
  | .notDirectory => "Not a directory (os error 20)"
  | .isDirectory => "Is a directory (os error 21)"
  | .nameTooLong => "File name too long (os error 36)"
  | .tooManyLinks => "Too many levels of symbolic links (os error 40)"
  | .zeroInName => "file name contained an unexpected NUL byte"
  | .notText => "stream did not contain valid UTF-8"
  | .other text => text

end Fault

end SchemaTypes.Files
