import SchemaTypes.Program

/-!
# The executable

The machine that the program really runs on as a host. It has no way to send a
request, so every request fails.
-/

set_option autoImplicit false

namespace SchemaTypes.Machine

open Files (Fault)

/-- A fault in the words of the system. -/
def systemFault (code : UInt32) (details : String) : Fault :=
  .other (details ++ " (os error " ++ toString code ++ ")")

/-- The fault that a failed system call stands for. Opening a directory and
walking through a file fail alike but for the code, which is 21 for the first. -/
def faultOf : IO.Error → Fault
  | .noFileOrDirectory _ _ _ => .missing
  | .alreadyExists _ _ _ => .exists
  | .inappropriateType _ code _ => if code = 21 then .isDirectory else .notDirectory
  | .noSuchThing _ code details => systemFault code details
  | .invalidArgument _ code details => systemFault code details
  | .permissionDenied _ code details => systemFault code details
  | .resourceExhausted _ code details => systemFault code details
  | .resourceBusy code details => systemFault code details
  | .resourceVanished code details => systemFault code details
  | .hardwareFault code details => systemFault code details
  | .userError text => .other text
  | e => .other (toString e)

def attempt {α : Type} (act : IO α) : IO (Except Fault α) := do
  try return .ok (← act)
  catch e => return .error (faultOf e)

def readBytes (path : String) : IO (Except Fault ByteArray) :=
  if path.toList.contains '\x00' then return .error .zeroInName
  else attempt (IO.FS.readBinFile path)

/-- The kind of thing that a path leads to, which need not be readable. -/
def kind? (path : String) : IO (Option IO.FS.FileType) := do
  if path.toList.contains '\x00' then return none
  let entry : IO.FS.DirEntry := ⟨path, ""⟩
  match ← attempt entry.root.metadata with
  | .ok m => return some m.type
  | .error _ => return none

/-- The system waits for less than `2 ^ 32` milliseconds at once. -/
def wait (milliseconds : Nat) : IO Unit := do
  for _ in [0 : milliseconds / 0xFFFFFFFF] do
    IO.sleep 0xFFFFFFFF
  IO.sleep (milliseconds % 0xFFFFFFFF).toUInt32

instance : Host IO where
  workingDirectory := do
    match ← attempt IO.currentDir with
    | .ok path => return some (toString path)
    | .error _ => return none
  homeDirectory := return (← IO.getEnv "HOME").filter (· ≠ "")
  token := IO.getEnv "TYPEPICK_TOKEN"
  isFile path := return (← kind? path) == some .file
  isDirectory path := return (← kind? path) == some .dir
  read path := do
    match ← readBytes path with
    | .error f => return .error f
    | .ok bytes =>
      match String.fromUTF8? bytes with
      | some text => return .ok text
      | none => return .error .notText
  makeDirectory path := attempt (IO.FS.createDir path)
  write path text :=
    if path.toList.contains '\x00' then return .error .zeroInName
    else attempt (IO.FS.writeFile path text)
  makeClient := return .ok ()
  request _ := return .error {}
  pause := wait
  print text := attempt do
    let out ← IO.getStdout
    out.putStr text
    out.flush
  report line := IO.eprintln line

end SchemaTypes.Machine

def main (args : List String) : IO UInt32 := do
  let code : Nat ← SchemaTypes.Program.run args
  return code.toUInt32
