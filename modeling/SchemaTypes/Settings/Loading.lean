import SchemaTypes.Host
import SchemaTypes.Settings

/-!
# Loading settings

Settings come from the file that is named, or else from the first file that is
there of `typepick.toml` in the working directory and `.typepick/config.toml` in
the home directory, or else they are the defaults. A file that has been chosen
must be readable.
-/

set_option autoImplicit false

namespace SchemaTypes.Settings

/-- Why a settings file is of no use. -/
inductive Failure
  | unreadable (path : String) (fault : Files.Fault)
  | malformed (path : String)

/-- What a user is told. After the words about a malformed file come those of the reader of
TOML, which are left out. -/
def Failure.message : Failure → String
  | .unreadable path fault => "failed to read config file " ++ path ++ ": " ++ fault.message
  | .malformed path => "failed to parse config file " ++ path

def candidates (directory home : Option String) : List String :=
  (directory.map fun d => Path.joined d "typepick.toml").toList ++
    (home.map fun d => Path.joined (Path.joined d ".typepick") "config.toml").toList

variable {m : Type → Type} [Monad m] [Host m]

def firstFile? : List String → m (Option String)
  | [] => return none
  | path :: paths => do
    if ← Host.isFile path then return some path else firstFile? paths

def discover? (directory home : Option String) : m (Option String) :=
  firstFile? (candidates directory home)

def read (path : String) : m (Except Failure Settings) := do
  match ← Host.read path with
  | .error fault => return .error (.unreadable path fault)
  | .ok text =>
    match ofText? text with
    | some s => return .ok s
    | none => return .error (.malformed path)

def load (named : Option String) : m (Except Failure Settings) := do
  match named with
  | some path => read path
  | none =>
    match ← discover? (← Host.workingDirectory) (← Host.homeDirectory) with
    | some path => read path
    | none => return .ok {}

end SchemaTypes.Settings
