import SchemaTypes.Acquisition
import SchemaTypes.Merging
import SchemaTypes.Rendering
import SchemaTypes.Search
import SchemaTypes.Settings.Loading

/-!
# Commands

What the program can be told to do. Every command loads settings, acquires
documents and generates declarations; then it puts out the declarations, those
that a search finds, or their names.
-/

set_option autoImplicit false

namespace SchemaTypes

inductive Encoding
  | typescript
  | json
deriving DecidableEq, Repr

def Encoding.render : Encoding → List Block → String
  | .typescript => typescriptText
  | .json => jsonText

/-- What the user says about the declarations. Sorting can only be asked for. -/
structure Overrides where
  marker : Option Marker := none
  sort : Bool := false
deriving DecidableEq, Repr

def Overrides.apply (v : Overrides) (o : Options) : Options :=
  { o with marker := v.marker.getD o.marker, sort := o.sort || v.sort }

inductive Command
  | generate (wish : Acquisition.Wish) (overrides : Overrides) (encoding : Encoding)
      (out : Option String)
  | search (wish : Acquisition.Wish) (query : String)
  | list (wish : Acquisition.Wish)
deriving DecidableEq, Repr

namespace Command

inductive Failure
  | settings (f : Settings.Failure)
  | documents (f : Acquisition.Failure)
  | output (target : String) (fault : Files.Fault)

def Failure.message : Failure → String
  | .settings f => f.message
  | .documents f => f.message
  | .output target fault => "failed to write " ++ target ++ ": " ++ fault.message

variable {m : Type → Type} [Monad m] [Host m]

def common (level : Level) (text : String) : String := progress level "common" text

def findingLines (g : Generation) : List String :=
  ((g.findings.filter fun f => f.severity = .warning).map fun f => common .warning f.message) ++
    [common .info
      ("Generation finished. blocks=" ++ toString g.blocks.length ++ " diagnostics=" ++
        toString g.findings.length)]

def reportAll : List String → m Unit
  | [] => return ()
  | line :: lines => do
    Host.report line
    reportAll lines

def build (wish : Acquisition.Wish) (overrides : Overrides) : m (Except Failure Generation) := do
  match ← Settings.load wish.settings with
  | .error f => return .error (.settings f)
  | .ok s =>
    match ← Acquisition.load wish s.source with
    | .error f => return .error (.documents f)
    | .ok docs =>
      let g := SchemaTypes.generate docs (overrides.apply s.options)
      reportAll (findingLines g)
      return .ok g

def makeParent (path : String) : m (Except Failure Unit) := do
  match Path.parent? path with
  | none => return .ok ()
  | some parent =>
    match ← Host.makeDirectories parent with
    | .ok () => return .ok ()
    | .error fault => return .error (.output parent fault)

def put (out : Option String) (text : String) : m (Except Failure Unit) := do
  match out with
  | none =>
    match ← Host.print text with
    | .error fault => return .error (.output "stdout" fault)
    | .ok () => return .ok ()
  | some path =>
    match ← makeParent path with
    | .error f => return .error f
    | .ok () =>
      match ← Host.write path text with
      | .error fault => return .error (.output path fault)
      | .ok () =>
        Host.report
          (common .info
            ("Wrote output file. path=" ++ path ++ " bytes=" ++ toString text.utf8ByteSize))
        return .ok ()

def execute : Command → m (Except Failure Unit)
  | .generate wish overrides encoding out => do
    match ← build wish overrides with
    | .error f => return .error f
    | .ok g => put out (encoding.render g.blocks)
  | .search wish query => do
    match ← build wish {} with
    | .error f => return .error f
    | .ok g =>
      let found := SchemaTypes.search query g.blocks
      match ← put none (foundText found) with
      | .error f => return .error f
      | .ok () =>
        Host.report (foundSummary found.length g.blocks.length)
        return .ok ()
  | .list wish => do
    match ← build wish {} with
    | .error f => return .error f
    | .ok g => put none (namesText g.blocks)

def run (c : Command) : m Nat := do
  match ← execute c with
  | .ok () => return 0
  | .error f =>
    Host.report ("error: " ++ f.message)
    return 1

end Command

end SchemaTypes
