import SchemaTypes.Generation
import SchemaTypes.Toml.Document

/-!
# Settings

What a settings file says: where documents come from and how declarations are
generated. What it leaves out has its default, and what it names must be known. A
table of settings may also be given as the list of its values in their order, of
which the last ones may be missing.
-/

set_option autoImplicit false

namespace SchemaTypes

/-- How documents are requested: the address if no other is given, the language of
the reply, the seconds until a request is given up, and how often it is repeated. -/
structure Source where
  url : Option String := none
  language : String := "ko"
  timeout : Nat := 30
  retries : Nat := 2
deriving DecidableEq, Repr

structure Settings where
  source : Source := {}
  options : Options := {}
deriving DecidableEq, Repr

namespace Settings

open Toml (Term Table)

structure Field (α : Type) where
  name : String
  set : α → Term → Option α

def setNamed {α : Type} (fields : List (Field α)) (a : α) (e : String × Term) : Option α :=
  match fields.find? fun f => f.name = e.1 with
  | some f => f.set a e.2
  | none => none

def setAll {α : Type} (fields : List (Field α)) (a : α) (t : Table) : Option α :=
  t.foldlM (setNamed fields) a

/-- Settings by their places; what follows the last field does not count. -/
def setListed {α : Type} (fields : List (Field α)) (a : α) (items : List Term) : Option α :=
  (fields.zip items).foldlM (fun a e => e.1.set a e.2) a

def setTerm {α : Type} (fields : List (Field α)) (a : α) : Term → Option α
  | .table _ t => setAll fields a t
  | .list items => setListed fields a items
  | .tables elements => setListed fields a (elements.reverse.map (.table .header))
  | _ => none

def text? : Term → Option String
  | .text s => some s
  | _ => none

def boolean? : Term → Option Bool
  | .boolean b => some b
  | _ => none

/-- A natural number below the limit. -/
def natural? (limit : Nat) : Term → Option Nat
  | .integer n => if 0 ≤ n ∧ n < limit then some n.toNat else none
  | _ => none

def isEmpty : Term → Bool
  | .list items => items.isEmpty
  | .table _ t => t.isEmpty
  | _ => false

/-- The name of a marker, as a text or as the only key of a table whose value is empty. -/
def marker? : Term → Option Marker
  | .text s => Marker.ofName? s
  | .table _ [(k, v)] => if isEmpty v then Marker.ofName? k else none
  | _ => none

def sourceFields : List (Field Source) :=
  [⟨"url", fun s v => (text? v).map fun x => { s with url := some x }⟩,
   ⟨"accept_language", fun s v => (text? v).map fun x => { s with language := x }⟩,
   ⟨"timeout_secs", fun s v => (natural? UInt64.size v).map fun x => { s with timeout := x }⟩,
   ⟨"retries", fun s v => (natural? UInt32.size v).map fun x => { s with retries := x }⟩]

def optionFields : List (Field Options) :=
  [⟨"unknown_type", fun o v => (marker? v).map fun x => { o with marker := x }⟩,
   ⟨"sort_definitions", fun o v => (boolean? v).map fun x => { o with sort := x }⟩,
   ⟨"check_references", fun o v => (boolean? v).map fun x => { o with checkReferences := x }⟩]

def fields : List (Field Settings) :=
  [⟨"source", fun s v => (setTerm sourceFields {} v).map fun x => { s with source := x }⟩,
   ⟨"generator", fun s v => (setTerm optionFields {} v).map fun x => { s with options := x }⟩]

/-- The settings of a text; nothing if the text is no TOML or has other settings. -/
def ofText? (text : String) : Option Settings :=
  (Table.ofText? text).bind (setAll fields {})

end Settings

end SchemaTypes
