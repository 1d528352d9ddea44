import SchemaTypes.Files.Fault
import SchemaTypes.Format
import SchemaTypes.Path

/-!
# Hosts

What a command needs from the machine it runs on: files, requests, time, and two
channels for texts. Commands are written for any host.
-/

set_option autoImplicit false

namespace SchemaTypes

structure Request where
  url : String
  token : Option String
  language : String
  timeout : Nat
deriving DecidableEq, Repr

structure Status where
  code : Nat
  text : String
deriving DecidableEq, Repr

namespace Status

def isSuccess (s : Status) : Bool := 200 ≤ s.code && s.code < 300

def isServerError (s : Status) : Bool := 500 ≤ s.code && s.code < 600

end Status

/-- What is wrong with a request or with what sends it, in the words of the library that
sends it, if they are known. -/
structure Trouble where
  words : Option String := none
deriving DecidableEq, Repr, Inhabited

structure Reply where
  status : Status
  contentType : Option String
  /-- The path of the address that has answered. -/
  path : String
  /-- The text may break off. -/
  text : Except Trouble String

/-- The format is YAML if the type of the content or the path says so. -/
def Reply.format (r : Reply) : Format :=
  match r.contentType.map Format.ofContentType with
  | some .yaml => .yaml
  | _ => Format.ofPath r.path

class Host (m : Type → Type) where
  /-- The absolute path of the working directory. -/
  workingDirectory : m (Option String)
  homeDirectory : m (Option String)
  /-- The token in the environment. -/
  token : m (Option String)
  isFile : String → m Bool
  isDirectory : String → m Bool
  read : String → m (Except Files.Fault String)
  makeDirectory : String → m (Except Files.Fault Unit)
  write : String → String → m (Except Files.Fault Unit)
  /-- Makes the client that sends requests. -/
  makeClient : m (Except Trouble Unit)
  request : Request → m (Except Trouble Reply)
  /-- Waits for some milliseconds. -/
  pause : Nat → m Unit
  /-- Puts out a text as a result. -/
  print : String → m (Except Files.Fault Unit)
  /-- Puts out a line about what happens. -/
  report : String → m Unit

namespace Host

variable {m : Type → Type} [Monad m] [Host m]

open Files (Fault)

/-- Nothing is wrong if the directory is there by now. -/
def unlessDirectory (path : String) (f : Fault) : m (Except Fault Unit) := do
  if ← isDirectory path then return .ok () else return .error f

/-- Makes a directory, with at most `fuel` missing directories around it. -/
def makeDirectoriesWithin : Nat → String → m (Except Fault Unit)
  | 0, _ => return .error .missing
  | fuel + 1, path => do
    if path = "" then return .ok ()
    match ← makeDirectory path with
    | .ok () => return .ok ()
    | .error .missing =>
      match Path.parent? path with
      | none => return .error .missing
      | some parent =>
        match ← makeDirectoriesWithin fuel parent with
        | .error f => return .error f
        | .ok () =>
          match ← makeDirectory path with
          | .ok () => return .ok ()
          | .error f => unlessDirectory path f
    | .error f => unlessDirectory path f

/-- Makes a directory and all missing directories around it. -/
def makeDirectories (path : String) : m (Except Fault Unit) :=
  makeDirectoriesWithin (path.length + 1) path

end Host

end SchemaTypes
