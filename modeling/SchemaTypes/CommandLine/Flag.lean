import SchemaTypes.Command

/-!
# Flags

The flags of the commands, how they are written, and which commands have them. A
flag with the name of a value takes one; the others are switches.
-/

set_option autoImplicit false

namespace SchemaTypes.CommandLine

inductive Flag
  | input
  | url
  | token
  | lang
  | config
  | out
  | format
  | unknown
  | sort
  | help
  | version
deriving DecidableEq, Repr

namespace Flag

def long : Flag → String
  | .input => "input"
  | .url => "url"
  | .token => "token"
  | .lang => "lang"
  | .config => "config"
  | .out => "out"
  | .format => "format"
  | .unknown => "unknown"
  | .sort => "sort"
  | .help => "help"
  | .version => "version"

def short? : Flag → Option Char
  | .input => some 'i'
  | .out => some 'o'
  | .help => some 'h'
  | .version => some 'V'
  | _ => none

def valueName? : Flag → Option String
  | .input => some "PATH"
  | .url => some "URL"
  | .token => some "TOKEN"
  | .lang => some "LANG"
  | .config => some "FILE"
  | .out => some "FILE"
  | .format => some "FORMAT"
  | .unknown => some "TYPE"
  | .sort => none
  | .help => none
  | .version => none

/-- Whether the flag may be given more than once. -/
def repeatable : Flag → Bool
  | .input => true
  | _ => false

def shown (f : Flag) : String :=
  match f.valueName? with
  | some v => "--" ++ f.long ++ " <" ++ v ++ ">"
  | none => "--" ++ f.long

end Flag

inductive Subcommand
  | generate
  | search
  | list
deriving DecidableEq, Repr

namespace Subcommand

def all : List Subcommand := [.generate, .search, .list]

def name : Subcommand → String
  | .generate => "generate"
  | .search => "search"
  | .list => "list"

def ofName? (s : String) : Option Subcommand := all.find? fun c => c.name = s

def sourceFlags : List Flag := [.input, .url, .token, .lang, .config]

def flags : Subcommand → List Flag
  | .generate => sourceFlags ++ [.out, .format, .unknown, .sort, .help]
  | .search => sourceFlags ++ [.help]
  | .list => sourceFlags ++ [.help]

end Subcommand

/-- The flags that come without a command. -/
def programFlags : List Flag := [.help, .version]

def findLong? (flags : List Flag) (name : String) : Option Flag :=
  flags.find? fun f => f.long = name

def findShort? (flags : List Flag) (c : Char) : Option Flag :=
  flags.find? fun f => f.short? = some c

end SchemaTypes.CommandLine
