import SchemaTypes.Finding
import SchemaTypes.Shape.Typing

/-!
# Generation

The declarations of a set of definitions in their order, or in the order of
their names, and the findings about them: repeats first, then definition by
definition in the order of the declarations.
-/

set_option autoImplicit false

namespace SchemaTypes

structure Options where
  marker : Marker := .any
  sort : Bool := false
  checkReferences : Bool := true
deriving DecidableEq, Repr

structure Block where
  name : String
  code : String
deriving DecidableEq, Repr

structure Generation where
  blocks : List Block
  findings : List Finding
deriving DecidableEq, Repr

def Definition.block (marker : Marker) (e : String × Definition) : Block :=
  ⟨e.1, (e.2.interface marker e.1).text⟩

namespace Definitions

def ordered (ds : Definitions) (sort : Bool) : List (String × Definition) :=
  if sort then Entries.sorted ds.entries else ds.entries

def lookup (ds : Definitions) (checked : Bool) : Lookup := ⟨checked, Entries.names ds.entries⟩

def generate (ds : Definitions) (o : Options) : Generation :=
  { blocks := (ds.ordered o.sort).map (Definition.block o.marker)
    findings := ds.duplicates.map .duplicateDefinition ++
      (ds.ordered o.sort).flatMap (definitionFindings (ds.lookup o.checkReferences)) }

theorem ordered_perm (ds : Definitions) (sort : Bool) : (ds.ordered sort).Perm ds.entries := by
  unfold ordered
  split
  · exact List.mergeSort_perm _ _
  · exact List.Perm.refl _

theorem nodup_names_ordered (ds : Definitions) (sort : Bool) :
    (Entries.names (ds.ordered sort)).Nodup :=
  ((ds.ordered_perm sort).map Prod.fst).nodup_iff.mpr ds.distinct

theorem names_blocks (ds : Definitions) (o : Options) :
    (ds.generate o).blocks.map Block.name = Entries.names (ds.ordered o.sort) := by
  simp [generate, Definition.block, Entries.names]

theorem mem_names_blocks {ds : Definitions} {o : Options} {n : String} :
    n ∈ (ds.generate o).blocks.map Block.name ↔ n ∈ Entries.names ds.entries := by
  rw [names_blocks]
  exact ((ds.ordered_perm o.sort).map Prod.fst).mem_iff

end Definitions

end SchemaTypes
