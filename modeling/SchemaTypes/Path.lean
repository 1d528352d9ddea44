/-!
# Paths

The parts of a path as text: its segments, the name at its end, the extension of
that name, and the path of the directory around it. Empty segments do not count,
and single dots only where a path begins with one.
-/

set_option autoImplicit false

namespace SchemaTypes.Path

/-- The pieces between slashes, empty ones included. -/
def pieces : List Char → List (List Char)
  | [] => [[]]
  | c :: cs =>
    match pieces cs with
    | [] => [[c]]
    | p :: ps => if c = '/' then [] :: p :: ps else (c :: p) :: ps

def segments (cs : List Char) : List (List Char) :=
  (pieces cs).filter fun s => s ≠ [] ∧ s ≠ ['.']

/-- The name at the end of a path, unless it leads upwards. -/
def fileName? (cs : List Char) : Option (List Char) :=
  match (segments cs).getLast? with
  | some name => if name = ['.', '.'] then none else some name
  | none => none

/-- What follows the last dot of a name, unless that dot comes first. -/
def extensionOfName? (name : List Char) : Option (List Char) :=
  let tail := name.reverse.takeWhile (· ≠ '.')
  if tail.length + 1 < name.length then some tail.reverse else none

def extension? (path : String) : Option String :=
  ((fileName? path.toList).bind extensionOfName?).map String.ofList

/-- A path inside a directory; an absolute one is not inside. -/
def joined (directory path : String) : String :=
  match path.toList with
  | '/' :: _ => path
  | _ => if directory.toList.getLast? = some '/' then directory ++ path else directory ++ "/" ++ path

/-- The path, reversed, without the slashes and the single dots at its end. The first
character of a path is not taken away. -/
def withoutTail : List Char → List Char
  | '/' :: c :: cs => withoutTail (c :: cs)
  | '.' :: '/' :: cs => withoutTail ('/' :: cs)
  | cs => cs

/-- The path of the directory around the last segment: empty for a single name, and
missing where there is no segment. -/
def parent? (path : String) : Option String :=
  match withoutTail path.toList.reverse with
  | [] => none
  | ['/'] => none
  | cs =>
    match cs.dropWhile (· ≠ '/') with
    | [] => some ""
    | rest => some (String.ofList (withoutTail rest).reverse)

end SchemaTypes.Path
