import SchemaTypes.Entries
import SchemaTypes.Files.Fault
import SchemaTypes.Path

/-!
# Trees of files

Directories, files and links as a tree, and what the operations on paths do to it. A
place in the tree is the list of names that leads there from the root. A path is
followed name by name; every name but the last one must lead to a directory, and so
must the last one if a slash comes after it. A link stands for the path in it, which
starts in the directory of the link.
-/

set_option autoImplicit false

namespace SchemaTypes.Files

/-- What stands in the way of reading something, of writing it, and of going through it. -/
structure Access where
  read : Option Fault := none
  write : Option Fault := none
  enter : Option Fault := none
deriving DecidableEq, Repr

inductive Tree
  | file (content : ByteArray) (access : Access := {})
  | directory (entries : List (String × Tree)) (access : Access := {})
  | link (target : String)
  /-- Neither a file nor a directory: what it gives when it is read, and why nothing can
  be written to it. -/
  | special (content : Except Fault ByteArray) (closed : Fault)

instance : Inhabited Tree := ⟨.directory []⟩

/-- What is at a place. The entries of a directory are at places of their own. -/
inductive Item
  | file (content : ByteArray) (access : Access)
  | directory (access : Access)
  | link (target : String)
  | special (content : Except Fault ByteArray) (closed : Fault)

inductive Move
  | onward (place : List String)
  | along (target : String)
  /-- Nothing has the name. -/
  | nowhere

/-- Where a path ends: at something, or at a name that nothing has in a directory. -/
inductive Spot
  | taken (place : List String)
  | free (place : List String) (name : String)

/-- How far names lead without a link: all the way, or to other names that take their place. -/
inductive Stretch
  | ends (s : Spot)
  | turns (place names : List String)

namespace Tree

def item : Tree → Item
  | .file content access => .file content access
  | .directory _ access => .directory access
  | .link target => .link target
  | .special content closed => .special content closed

def isFile : Tree → Bool
  | .file _ _ => true
  | _ => false

def isDirectory : Tree → Bool
  | .directory _ _ => true
  | _ => false

def get? : Tree → List String → Option Tree
  | t, [] => some t
  | .directory es _, n :: ns =>
    match Entries.get? es n with
    | none => none
    | some t => t.get? ns
  | _, _ :: _ => none

def item? (t : Tree) (place : List String) : Option Item := (t.get? place).map item

def put : Tree → List String → Tree → Tree
  | _, [], t => t
  | .directory es access, n :: ns, t =>
    .directory (Entries.put es n (((Entries.get? es n).getD (.directory [])).put ns t)) access
  | u, _ :: _, _ => u

/-- Names have at most 255 bytes, and paths less than 4096. -/
def isTooLong (name : String) : Bool := 255 < name.utf8ByteSize

def names (path : String) : List String :=
  ((Path.pieces path.toList).filter (· ≠ [])).map String.ofList

def start (directory : List String) (path : String) : List String :=
  if path.toList.head? = some '/' then [] else directory

def endsInSlash (path : String) : Bool := path.toList.getLast? = some '/'

/-- The names in a link. An empty one at the end wants a directory before it. -/
def linkNames (target : String) : List String :=
  names target ++ if endsInSlash target then [""] else []

def checkPath (path : String) : Except Fault Unit :=
  if path.toList.contains '\x00' then .error .zeroInName
  else if path = "" then .error .missing
  else if 4096 ≤ path.utf8ByteSize then .error .nameTooLong
  else .ok ()

end Tree

def Move.named (place : List String) (n : String) : Option Item → Move
  | none => .nowhere
  | some (.link target) => .along target
  | some _ => .onward (place ++ [n])

/-- Where a name leads from a place, by what is there and what has the name in it. -/
def Move.between (place : List String) (n : String) (here there : Option Item) :
    Except Fault Move :=
  match here with
  | none => .error .missing
  | some (.directory access) =>
    if n = "" then .ok (.onward place)
    else
      match access.enter with
      | some f => .error f
      | none =>
        if n = "." then .ok (.onward place)
        else if n = ".." then .ok (.onward place.dropLast)
        else if Tree.isTooLong n then .error .nameTooLong
        else .ok (.named place n there)
  | some _ => .error .notDirectory

def Stretch.settle (follow : List String → List String → Except Fault Spot) :
    Stretch → Except Fault Spot
  | .ends s => .ok s
  | .turns place names => follow place names

namespace Tree

def move (root : Tree) (place : List String) (n : String) : Except Fault Move :=
  Move.between place n (root.item? place) (root.item? (place ++ [n]))

/-- Follows names up to the first link. -/
def reach (root : Tree) : List String → List String → Except Fault Stretch
  | place, [] => .ok (.ends (.taken place))
  | place, n :: ns => do
    match ← root.move place n with
    | .onward next => reach root next ns
    | .along target => return .turns (start place target) (linkNames target ++ ns)
    | .nowhere => if ns = [] then return .ends (.free place n) else .error .missing

/-- Follows names and links, of which there may be so many. -/
def follow (root : Tree) : Nat → List String → List String → Except Fault Spot
  | 0, place, names => do
    (← root.reach place names).settle fun _ _ => .error .tooManyLinks
  | links + 1, place, names => do
    (← root.reach place names).settle (follow root links)

def maxLinks : Nat := 40

/-- The place to which names lead. -/
def walk (root : Tree) (place names : List String) : Except Fault (List String) := do
  match ← root.follow maxLinks place names with
  | .taken place => return place
  | .free _ _ => .error .missing

def find (root : Tree) (directory : List String) (path : String) : Except Fault Tree := do
  checkPath path
  let place ← root.walk (start directory path) (names path)
  match root.get? place with
  | none => .error .missing
  | some t => if endsInSlash path && !t.isDirectory then .error .notDirectory else .ok t

/-- The bytes of something, if it has any and they can be read. -/
def bytes : Tree → Except Fault ByteArray
  | .file content access =>
    match access.read with
    | some f => .error f
    | none => .ok content
  | .directory _ access => .error (access.read.getD .isDirectory)
  | .link _ => .error .tooManyLinks
  | .special content _ => content

def read (root : Tree) (directory : List String) (path : String) : Except Fault String := do
  let content ← (← root.find directory path).bytes
  match String.fromUTF8? content with
  | some s => .ok s
  | none => .error .notText

def add (root : Tree) (place : List String) (n : String) (t : Tree) : Except Fault Tree :=
  match root.item? place with
  | some (.directory ⟨_, some f, _⟩) => .error f
  | _ => .ok (root.put (place ++ [n]) t)

/-- Makes a directory at a path that leads to nothing so far. A link at its end is not
followed. -/
def makeDirectory (root : Tree) (directory : List String) (path : String) :
    Except Fault Tree := do
  checkPath path
  let place ← root.walk (start directory path) (names path).dropLast
  match (names path).getLast? with
  | none => .error .exists
  | some n =>
    match ← root.move place n with
    | .nowhere => root.add place n (.directory [])
    | _ => .error .exists

def overwrite (root : Tree) (place : List String) (content : ByteArray) : Except Fault Tree :=
  match root.item? place with
  | none => .error .missing
  | some (.file _ access) =>
    match access.write with
    | some f => .error f
    | none => .ok (root.put place (.file content access))
  | some (.directory _) => .error .isDirectory
  | some (.link _) => .error .tooManyLinks
  | some (.special _ closed) => .error closed

/-- Writes a file, which is made if there is none. A link at the end of the path is
followed, also if it leads to nothing so far. -/
def write (root : Tree) (directory : List String) (path text : String) : Except Fault Tree := do
  checkPath path
  if endsInSlash path then
    let place ← root.walk (start directory path) (names path).dropLast
    let _ ← root.move place "."
    .error .isDirectory
  else
    match ← root.follow maxLinks (start directory path) (names path) with
    | .taken place => root.overwrite place text.toUTF8
    | .free place n => root.add place n (.file text.toUTF8)

end Tree

end SchemaTypes.Files
