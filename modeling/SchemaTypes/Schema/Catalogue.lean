import SchemaTypes.Entries
import SchemaTypes.Schema.Node

/-!
# Catalogues

The named definitions of one document. A name that comes again keeps its place
and takes the new definition, and each time it is noted as a repeat.
-/

set_option autoImplicit false

namespace SchemaTypes

namespace Schema

structure Catalogue where
  entries : List (String × Definition) := []
  repeats : List String := []
  distinct : (Entries.names entries).Nodup := by simp
  known : ∀ n ∈ repeats, n ∈ Entries.names entries := by simp

namespace Catalogue

def empty : Catalogue := {}

def has (c : Catalogue) (n : String) : Bool := Entries.has c.entries n

def get? (c : Catalogue) (n : String) : Option Definition := Entries.get? c.entries n

def names (c : Catalogue) : List String := Entries.names c.entries

def insert (c : Catalogue) (n : String) (d : Definition) : Catalogue :=
  { entries := Entries.put c.entries n d
    repeats := if c.has n then c.repeats ++ [n] else c.repeats
    distinct := Entries.nodup_names_put c.distinct n d
    known := by
      intro m hm
      rw [Entries.mem_names_put]
      by_cases hn : c.has n
      · rw [if_pos hn, List.mem_append, List.mem_singleton] at hm
        exact hm.imp (c.known m) id
      · rw [if_neg hn] at hm
        exact Or.inl (c.known m hm) }

def insertAll (c : Catalogue) : List (String × Definition) → Catalogue
  | [] => c
  | (n, d) :: rest => (c.insert n d).insertAll rest

def ofList (ds : List (String × Definition)) : Catalogue := empty.insertAll ds

/-- Inserts a definition, and tells whether its name was there before. -/
def enter (c : Catalogue) (n : String) (d : Definition) : Bool × Catalogue :=
  (c.has n, c.insert n d)

/-- One insertion after the other, with the answer to each. -/
def enterAll (c : Catalogue) : List (String × Definition) → List Bool × Catalogue
  | [] => ([], c)
  | (n, d) :: rest =>
    let (answer, next) := c.enter n d
    let (answers, last) := next.enterAll rest
    (answer :: answers, last)

theorem enterAll_cons (c : Catalogue) (d : String × Definition)
    (rest : List (String × Definition)) :
    c.enterAll (d :: rest) =
      (c.has d.1 :: ((c.insert d.1 d.2).enterAll rest).1,
        ((c.insert d.1 d.2).enterAll rest).2) := rfl

theorem insertAll_append (c : Catalogue) (ds es : List (String × Definition)) :
    c.insertAll (ds ++ es) = (c.insertAll ds).insertAll es := by
  induction ds generalizing c with
  | nil => rfl
  | cons d ds ih => exact ih _

theorem names_insert (c : Catalogue) (n : String) (d : Definition) :
    (c.insert n d).names = if n ∈ c.names then c.names else c.names ++ [n] :=
  Entries.names_put c.entries n d

end Catalogue

end Schema

end SchemaTypes
