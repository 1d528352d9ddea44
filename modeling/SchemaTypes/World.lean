import SchemaTypes.Files.Tree
import SchemaTypes.Host

/-!
# Worlds

A machine as a value: a tree of files, the answers to requests, and a record of
what has been asked and put out. Commands run on a world as they would on a real
machine.
-/

set_option autoImplicit false

namespace SchemaTypes

structure World where
  files : Files.Tree
  /-- The place of the working directory, which may have been removed. -/
  directory : List String
  home : Option String
  token : Option String := none
  client : Bool := true
  /-- What is wrong if there is no client. -/
  clientTrouble : Trouble := {}
  /-- The answer to the request that comes after so many others. -/
  answer : Nat → Request → Option Reply
  /-- What is wrong with such a request if it has no answer. -/
  trouble : Nat → Request → Trouble := fun _ _ => {}
  /-- What stands in the way of putting anything out. -/
  closed : Option Files.Fault := none
  /-- The requests so far, the first one first. -/
  requests : List Request := []
  /-- The milliseconds of every pause. -/
  pauses : List Nat := []
  output : String := ""
  reports : List String := []

namespace World

def directoryPath (w : World) : String := "/" ++ "/".intercalate w.directory

/-- The path of the working directory, if that is there. -/
def directoryPath? (w : World) : Option String :=
  match w.files.item? w.directory with
  | some (.directory _) => some w.directoryPath
  | _ => none

/-- How a request goes that comes after so many others. -/
def outcome (w : World) (n : Nat) (r : Request) : Except Trouble Reply :=
  match w.answer n r with
  | some reply => .ok reply
  | none => .error (w.trouble n r)

/-- What stands in the way of putting out this text. An empty one can always be put out. -/
def obstacle (w : World) (text : String) : Option Files.Fault :=
  if text = "" then none else w.closed

/-- Takes over a change of the files, if there is one. -/
def change : Except Files.Fault Files.Tree → StateM World (Except Files.Fault Unit)
  | .ok files => do
    modify fun w => { w with files := files }
    return .ok ()
  | .error f => return .error f

instance : Host (StateM World) where
  workingDirectory := return (← get).directoryPath?
  homeDirectory := return (← get).home
  token := return (← get).token
  isFile path := do
    let w ← get
    match w.files.find w.directory path with
    | .ok t => return t.isFile
    | .error _ => return false
  isDirectory path := do
    let w ← get
    match w.files.find w.directory path with
    | .ok t => return t.isDirectory
    | .error _ => return false
  read path := do
    let w ← get
    return w.files.read w.directory path
  makeDirectory path := do
    let w ← get
    change (w.files.makeDirectory w.directory path)
  write path text := do
    let w ← get
    change (w.files.write w.directory path text)
  makeClient := do
    let w ← get
    if w.client then return .ok () else return .error w.clientTrouble
  request r := do
    let w ← get
    set { w with requests := w.requests ++ [r] }
    return w.outcome w.requests.length r
  pause n := modify fun w => { w with pauses := w.pauses ++ [n] }
  print text := do
    let w ← get
    match w.obstacle text with
    | some f => return .error f
    | none =>
      set { w with output := w.output ++ text }
      return .ok ()
  report line := modify fun w => { w with reports := w.reports ++ [line] }

end World

end SchemaTypes
