import SchemaTypes.Entries

/-!
# Terms of TOML

The values of a TOML text. Floating numbers and points of time are one case, since
no one asks for more than their presence. A table remembers how it came about,
because that decides what may be added to it.
-/

set_option autoImplicit false

namespace SchemaTypes.Toml

/-- How a table came about: by a header of its own, as a parent in a header, as a
parent in a dotted key, or in braces. -/
inductive Origin
  | header
  | parents
  | dotted
  | braces
deriving DecidableEq

inductive Term
  | text (s : String)
  | integer (n : Int)
  | boolean (b : Bool)
  | other
  | list (items : List Term)
  | table (origin : Origin) (entries : List (String × Term))
  /-- The tables with doubled headers of one name, the last one first. -/
  | tables (elements : List (List (String × Term)))

instance : Inhabited Term := ⟨.other⟩

namespace Term

mutual

def beq : Term → Term → Bool
  | .text s, .text t => s = t
  | .integer m, .integer n => m = n
  | .boolean b, .boolean c => b = c
  | .other, .other => true
  | .list ts, .list us => beqItems ts us
  | .table o es, .table p fs => o = p && beqEntries es fs
  | .tables es, .tables fs => beqTables es fs
  | _, _ => false

def beqItems : List Term → List Term → Bool
  | [], [] => true
  | t :: ts, u :: us => t.beq u && beqItems ts us
  | _, _ => false

def beqEntries : List (String × Term) → List (String × Term) → Bool
  | [], [] => true
  | (n, t) :: es, (m, u) :: fs => n = m && t.beq u && beqEntries es fs
  | _, _ => false

def beqTables : List (List (String × Term)) → List (List (String × Term)) → Bool
  | [], [] => true
  | e :: es, f :: fs => beqEntries e f && beqTables es fs
  | _, _ => false

end

mutual

theorem beq_iff : ∀ t u : Term, t.beq u = true ↔ t = u
  | .text s, u => by cases u <;> simp [beq]
  | .integer n, u => by cases u <;> simp [beq]
  | .boolean b, u => by cases u <;> simp [beq]
  | .other, u => by cases u <;> simp [beq]
  | .list ts, u => by cases u <;> simp [beq, beqItems_iff ts]
  | .table o es, u => by cases u <;> simp [beq, beqEntries_iff es]
  | .tables es, u => by cases u <;> simp [beq, beqTables_iff es]

theorem beqItems_iff : ∀ ts us : List Term, beqItems ts us = true ↔ ts = us
  | [], us => by cases us <;> simp [beqItems]
  | t :: ts, us => by
    cases us <;> simp [beqItems, beq_iff t, beqItems_iff ts]

theorem beqEntries_iff : ∀ es fs : List (String × Term), beqEntries es fs = true ↔ es = fs
  | [], fs => by cases fs <;> simp [beqEntries]
  | (n, t) :: es, [] => by simp [beqEntries]
  | (n, t) :: es, (m, u) :: fs => by
    simp [beqEntries, beq_iff t u, beqEntries_iff es fs]

theorem beqTables_iff :
    ∀ es fs : List (List (String × Term)), beqTables es fs = true ↔ es = fs
  | [], fs => by cases fs <;> simp [beqTables]
  | e :: es, fs => by
    cases fs <;> simp [beqTables, beqEntries_iff e, beqTables_iff es]

end

instance : DecidableEq Term := fun t u => decidable_of_iff _ (beq_iff t u)

end Term

abbrev Table := List (String × Term)

namespace Table

/-- The origin of a parent that is not there yet: `dotted` tells whether a key or a
header wants it. -/
def created (dotted : Bool) : Origin := if dotted then .dotted else .parents

/-- Whether a path may go through a table. Dotted keys do not reach into a table
with a header, and nothing reaches into braces. -/
def enters (dotted : Bool) (o : Origin) : Bool :=
  match o with
  | .header => !dotted
  | .parents => true
  | .dotted => true
  | .braces => false

/-- Changes the table at the end of a path; parents that are missing are made. -/
def descend (dotted : Bool) (change : Origin → Table → Option Table) :
    List String → Origin → Table → Option Table
  | [], o, t => change o t
  | k :: ks, _, t =>
    match Entries.get? t k with
    | none =>
      (descend dotted change ks (created dotted) []).map fun s =>
        Entries.put t k (.table (created dotted) s)
    | some (.table o s) =>
      if enters dotted o then
        (descend dotted change ks o s).map fun s => Entries.put t k (.table o s)
      else none
    | some (.tables (s :: earlier)) =>
      (descend dotted change ks .header s).map fun s => Entries.put t k (.tables (s :: earlier))
    | some _ => none

/-- Adds a new entry. A dotted key adds it to tables of dotted keys only, and a key
without dots to any other. -/
def assign (path : List String) (k : String) (v : Term) : Origin → Table → Option Table :=
  descend true
    (fun o t =>
      if o = .dotted ↔ path = [] then none
      else if Entries.has t k then none
      else some (Entries.put t k v))
    path

/-- Begins a table with a header. A table that only was a parent in headers so far
gets its own one. -/
def openTable (path : List String) (k : String) : Origin → Table → Option Table :=
  descend false
    (fun _ t =>
      match Entries.get? t k with
      | none => some (Entries.put t k (.table .header []))
      | some (.table .parents s) => some (Entries.put t k (.table .header s))
      | some _ => none)
    path

def openElement (path : List String) (k : String) : Origin → Table → Option Table :=
  descend false
    (fun _ t =>
      match Entries.get? t k with
      | none => some (Entries.put t k (.tables [[]]))
      | some (.tables elements) => some (Entries.put t k (.tables ([] :: elements)))
      | some _ => none)
    path

end Table

end SchemaTypes.Toml
