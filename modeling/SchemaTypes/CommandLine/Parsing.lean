import SchemaTypes.CommandLine.Help

/-!
# Parsing command lines

Arguments are read from left to right. The value of a flag may be attached to it or
be the next argument, unless that begins with a hyphen. A flag whose value is the
next argument is settled only when something else is recognised after it or the
line ends, so an argument that is not known is reported before a fault of the flag
in front of it. After two hyphens alone no argument is a flag.
-/

set_option autoImplicit false

namespace SchemaTypes.CommandLine

inductive UsageError
  | unknownArgument (text : String)
  | unknownCommand (name : String)
  | repeated (f : Flag)
  | valueMissing (f : Flag)
  | valueUnexpected (f : Flag) (value : String)
  | formatInvalid (value : String)
  | markerInvalid (value : String) (cause : Marker.Unrecognised)
  | queryMissing
deriving DecidableEq, Repr

def quote (s : String) : String := "'" ++ s ++ "'"

def UsageError.message : UsageError → String
  | .unknownArgument text => "unexpected argument " ++ quote text ++ " found"
  | .unknownCommand name => "unrecognized subcommand " ++ quote name
  | .repeated f => "the argument " ++ quote f.shown ++ " cannot be used multiple times"
  | .valueMissing f => "a value is required for " ++ quote f.shown ++ " but none was supplied"
  | .valueUnexpected f value =>
    "unexpected value " ++ quote value ++ " for " ++ quote f.shown ++
      " found; no more were expected"
  | .formatInvalid value => "invalid value " ++ quote value ++ " for " ++ quote Flag.format.shown
  | .markerInvalid value cause =>
    "invalid value " ++ quote value ++ " for " ++ quote Flag.unknown.shown ++ ": " ++
      cause.message
  | .queryMissing => "the following required arguments were not provided:"

/-- Why no command comes out of a command line. -/
inductive Stop
  | help (topic : Topic) (long : Bool)
  | version
  | usage (e : UsageError)
deriving DecidableEq, Repr

structure Given where
  wish : Acquisition.Wish := {}
  overrides : Overrides := {}
  encoding : Encoding := .typescript
  out : Option String := none
  query : Option String := none
  seen : List Flag := []

namespace Given

/-- A path is not empty. -/
def path (f : Flag) (v : String) : Except UsageError String :=
  if v = "" then .error (.valueMissing f) else .ok v

def encoding? (v : String) : Except UsageError Encoding :=
  if v = "ts" then .ok .typescript
  else if v = "json" then .ok .json
  else if v = "" then .error (.valueMissing .format)
  else .error (.formatInvalid v)

def marker? (v : String) : Except UsageError Marker :=
  match Marker.ofText v with
  | .ok k => .ok k
  | .error cause => .error (.markerInvalid v cause)

def put (g : Given) (f : Flag) (v : String) : Except UsageError Given := do
  match f with
  | .input => return { g with wish.inputs := g.wish.inputs ++ [← path f v] }
  | .url => return { g with wish.url := some v }
  | .token => return { g with wish.token := some v }
  | .lang => return { g with wish.language := some v }
  | .config => return { g with wish.settings := some (← path f v) }
  | .out => return { g with out := some (← path f v) }
  | .format => return { g with encoding := ← encoding? v }
  | .unknown => return { g with overrides.marker := some (← marker? v) }
  | .sort => return { g with overrides.sort := true }
  | .help => return g
  | .version => return g

/-- Settles a flag with its value; a flag that is not repeatable comes once. -/
def settle (g : Given) (f : Flag) (v : String) : Except UsageError Given :=
  if !f.repeatable && g.seen.contains f then .error (.repeated f)
  else { g with seen := f :: g.seen }.put f v

def command? (g : Given) : Subcommand → Except UsageError Command
  | .generate => .ok (.generate g.wish g.overrides g.encoding g.out)
  | .search =>
    match g.query with
    | some q => .ok (.search g.wish q)
    | none => .error .queryMissing
  | .list => .ok (.list g.wish)

end Given

/-- A flag that is not settled yet, with its value if that has come. -/
structure Pending where
  flag : Flag
  value : Option String

structure State where
  given : Given := {}
  pending : Option Pending := none
  plain : Bool := false

namespace State

def usage {α : Type} : Except UsageError α → Except Stop α
  | .ok a => .ok a
  | .error e => .error (.usage e)

def resolve (s : State) : Except Stop State :=
  match s.pending with
  | none => .ok s
  | some ⟨f, none⟩ => .error (.usage (.valueMissing f))
  | some ⟨f, some v⟩ => do
    return { s with given := ← usage (s.given.settle f v), pending := none }

def attach (s : State) (f : Flag) (v : String) : Except Stop State := do
  let s ← s.resolve
  return { s with given := ← usage (s.given.settle f v) }

def await (s : State) (f : Flag) : Except Stop State := do
  let s ← s.resolve
  return { s with pending := some ⟨f, none⟩ }

/-- Takes a switch. Those for help and for the version end everything. -/
def switch (topic : Topic) (long : Bool) (s : State) (f : Flag) : Except Stop State := do
  let s ← s.resolve
  match f with
  | .help => .error (.help topic long)
  | .version => .error .version
  | _ => return { s with given := ← usage (s.given.settle f "") }

def takeLong (topic : Topic) (flags : List Flag) (s : State) (cs : List Char) :
    Except Stop State :=
  let name := String.ofList (cs.takeWhile (· ≠ '='))
  let value :=
    match cs.dropWhile (· ≠ '=') with
    | [] => none
    | _ :: v => some (String.ofList v)
  match findLong? flags name with
  | none => .error (.usage (.unknownArgument ("--" ++ name)))
  | some f =>
    match f.valueName?, value with
    | some _, some v => s.attach f v
    | some _, none => s.await f
    | none, some v => .error (.usage (.valueUnexpected f v))
    | none, none => s.switch topic true f

/-- Takes an argument after its single hyphen: switches, and perhaps a flag with its
value at the end. -/
def takeShort (topic : Topic) (flags : List Flag) : State → List Char → Except Stop State
  | s, [] => .ok s
  | s, c :: cs =>
    match findShort? flags c with
    | none => .error (.usage (.unknownArgument (String.ofList ['-', c])))
    | some f =>
      match f.valueName?, cs with
      | some _, [] => s.await f
      | some _, '=' :: v => s.attach f (String.ofList v)
      | some _, v => s.attach f (String.ofList v)
      | none, _ =>
        match s.switch topic false f with
        | .error e => .error e
        | .ok s => takeShort topic flags s cs

/-- Takes an argument that is no flag and no value of one. Only a search has one. -/
def takePlain (c : Subcommand) (s : State) (text : String) : Except Stop State :=
  if c = .search ∧ s.given.query = none then do
    let s ← s.resolve
    return { s with given := { s.given with query := some text } }
  else .error (.usage (.unknownArgument text))

def take (c : Subcommand) (s : State) (text : String) : Except Stop State :=
  if s.plain then s.takePlain c text
  else
    match text.toList with
    | ['-', '-'] => .ok { s with plain := true }
    | '-' :: '-' :: cs => s.takeLong (.command c) c.flags cs
    | '-' :: d :: cs => s.takeShort (.command c) c.flags (d :: cs)
    | _ =>
      match s.pending with
      | some ⟨f, none⟩ => .ok { s with pending := some ⟨f, some text⟩ }
      | _ => s.takePlain c text

end State

/-- The command that these arguments make of a subcommand. A token in the environment
stands for one that is not given. -/
def parseCommand (c : Subcommand) (args : List String) (token : Option String) :
    Except Stop Command := do
  let s ← args.foldlM (State.take c) { given := { wish := { token } } }
  let s ← s.resolve
  State.usage (s.given.command? c)

/-- The page that the names after `help` ask for. -/
def parseHelp : List String → Stop
  | [] => .help .program true
  | name :: rest =>
    match Subcommand.ofName? name, rest with
    | some c, [] => .help (.command c) true
    | some _, next :: _ => .usage (.unknownCommand next)
    | none, [] => if name = "help" then .help .help true else .usage (.unknownCommand name)
    | none, next :: _ =>
      .usage (.unknownCommand (if name = "help" then next else name))

/-- The command in a command line, with the token in the environment. An empty line has
none. -/
def parse (args : List String) (token : Option String) : Except Stop (Option Command) :=
  match args with
  | [] => .ok none
  | first :: rest =>
    match Subcommand.ofName? first with
    | some c => (parseCommand c rest token).map some
    | none =>
      if first = "help" then .error (parseHelp rest)
      else
        match first.toList with
        | ['-', '-'] =>
          match rest with
          | [] => .ok none
          | name :: _ =>
            if (Subcommand.ofName? name).isSome ∨ name = "help" then
              .error (.usage (.unknownArgument name))
            else .error (.usage (.unknownCommand name))
        | '-' :: '-' :: cs => (State.takeLong .program programFlags {} cs).map fun _ => none
        | '-' :: c :: cs => (State.takeShort .program programFlags {} (c :: cs)).map fun _ => none
        | _ => .error (.usage (.unknownCommand first))

end SchemaTypes.CommandLine
