import SchemaTypes.Generation
import SchemaTypes.Shape.Lowering

/-!
# Merging

The definitions of several documents, one document after the other. A document
replaces what an earlier one defines under the same name, in its old place.
-/

set_option autoImplicit false

namespace SchemaTypes

open Schema (Catalogue Document)

namespace Definitions

/-- The definitions with one more. A name that is already defined is noted. -/
def define (ds : Definitions) (e : String × Schema.Definition) : Definitions :=
  { entries := Entries.put ds.entries e.1 e.2.lowered
    duplicates := if Entries.has ds.entries e.1 then ds.duplicates ++ [e.1] else ds.duplicates
    distinct := Entries.nodup_names_put ds.distinct e.1 e.2.lowered }

/-- The definitions with those of one more catalogue. Its own repeats come first,
then its names that are already defined. -/
def add (ds : Definitions) (c : Catalogue) : Definitions :=
  c.entries.foldl define { ds with duplicates := ds.duplicates ++ c.repeats }

def addDocument (ds : Definitions) (d : Document) : Definitions :=
  match d.catalogue? with
  | some c => ds.add c
  | none => ds

def empty : Definitions := ⟨[], [], List.nodup_nil⟩

def ofDocuments (docs : List Document) : Definitions := docs.foldl addDocument empty

end Definitions

def generate (docs : List Document) (o : Options) : Generation :=
  (Definitions.ofDocuments docs).generate o

theorem Definitions.ofDocuments_append (docs more : List Document) :
    Definitions.ofDocuments (docs ++ more) =
      more.foldl Definitions.addDocument (Definitions.ofDocuments docs) := by
  simp [Definitions.ofDocuments]

end SchemaTypes
