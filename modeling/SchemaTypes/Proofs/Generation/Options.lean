import SchemaTypes.Proofs.Entries.Order
import SchemaTypes.Proofs.Finding.Subject
import SchemaTypes.Proofs.Generation.Closed
import SchemaTypes.Proofs.Merging.History

/-!
# One option at a time

What each option changes in a generation, and that it changes nothing else: the
check of references only tells of targets that are not defined, sorting only moves
definitions as a whole, and the marker only stands where nothing is known.
-/

set_option autoImplicit false

namespace SchemaTypes

namespace TypeScript

mutual

/-- The type with `unknown` wherever it says `any`. A name is never a marker, even if
it is spelled like one. -/
def TypeExpr.anyAsUnknown : TypeExpr → TypeExpr
  | .keyword .any => .keyword .unknown
  | .keyword k => .keyword k
  | .array element => .array element.anyAsUnknown
  | .union members => .union (TypeExpr.allAnyAsUnknown members)
  | .literal value => .literal value
  | .name target => .name target

def TypeExpr.allAnyAsUnknown : List TypeExpr → List TypeExpr
  | [] => []
  | t :: ts => t.anyAsUnknown :: TypeExpr.allAnyAsUnknown ts

end

def Member.anyAsUnknown (m : Member) : Member := { m with type := m.type.anyAsUnknown }

def Interface.anyAsUnknown (i : Interface) : Interface :=
  ⟨i.name, i.members.map Member.anyAsUnknown⟩

theorem TypeExpr.allAnyAsUnknown_literals (values : List String) :
    TypeExpr.allAnyAsUnknown (values.map .literal) = values.map .literal := by
  induction values with
  | nil => rfl
  | cons v vs ih => rw [List.map_cons, allAnyAsUnknown, ih, anyAsUnknown]

end TypeScript

open TypeScript (TypeExpr)

theorem Kind.type_anyAsUnknown (k : Kind) : k.type.anyAsUnknown = k.type := by
  cases k <;> rfl

theorem referenceType_unknown (pointer : String) :
    referenceType .unknown pointer = (referenceType .any pointer).anyAsUnknown := by
  unfold referenceType
  cases targetName? pointer <;> rfl

theorem enumerationType_unknown (values : List String) :
    enumerationType .unknown values = (enumerationType .any values).anyAsUnknown := by
  cases values with
  | nil => rfl
  | cons v vs => rw [enumerationType, enumerationType, TypeExpr.anyAsUnknown,
      TypeExpr.allAnyAsUnknown_literals]

mutual

theorem Shape.type_unknown (s : Shape) : s.type .unknown = (s.type .any).anyAsUnknown := by
  cases s with
  | primitive kind format => exact kind.type_anyAsUnknown.symm
  | reference pointer => exact referenceType_unknown pointer
  | array element => rw [Shape.type, Shape.type, TypeExpr.anyAsUnknown, Property.type_unknown]
  | enumeration values => exact enumerationType_unknown values
  | unknown => rfl

theorem Property.type_unknown (p : Property) : p.type .unknown = (p.type .any).anyAsUnknown := by
  obtain ⟨shape, description⟩ := p
  rw [Property.type, Property.type, Shape.type_unknown]

end

theorem Definition.interface_unknown (d : Definition) (name : String) :
    d.interface .unknown name = (d.interface .any name).anyAsUnknown := by
  rw [interface, interface, TypeScript.Interface.anyAsUnknown, List.map_map]
  congr 1
  apply List.map_congr_left
  intro e _
  rw [Function.comp_apply, member, member, TypeScript.Member.anyAsUnknown, Property.type_unknown]

def Finding.isUnresolved : Finding → Bool
  | .unresolvedReference _ _ _ => true
  | _ => false

def Finding.isRepeat : Finding → Bool
  | .duplicateDefinition _ => true
  | _ => false

/-- Without the check exactly the unresolved references are not told. -/
theorem definitionFindings_unchecked (known : List String) (d : String × Definition) :
    definitionFindings ⟨false, known⟩ d =
      (definitionFindings ⟨true, known⟩ d).filter (!·.isUnresolved) := by
  have hname : (nameFindings d.1).filter (!·.isUnresolved) = nameFindings d.1 := by
    unfold nameFindings
    split <;> simp [Finding.isUnresolved]
  rw [definitionFindings, definitionFindings, List.filter_append, hname, List.filter_flatMap]
  congr 2
  funext e
  have hkey : (keyFindings d.1 e.1).filter (!·.isUnresolved) = keyFindings d.1 e.1 := by
    unfold keyFindings
    split <;> simp [Finding.isUnresolved]
  rw [propertyFindings, propertyFindings, List.filter_append, hkey]
  congr 1
  cases e.2.pointer? with
  | none => rfl
  | some pointer =>
    cases ht : targetName? pointer with
    | none =>
      rw [referenceFindings_malformed ht, referenceFindings_malformed ht]
      rfl
    | some target =>
      rw [referenceFindings_target ht, referenceFindings_target ht, if_neg (by simp)]
      split <;> simp [Finding.isUnresolved]

/-- A block with the findings about its definition. -/
structure Told where
  block : Block
  findings : List Finding

/-- A generation definition by definition, behind its repeats. -/
structure Generation.Tells (g : Generation) (repeats : List Finding) (told : List Told) :
    Prop where
  blocks : g.blocks = told.map Told.block
  findings : g.findings = repeats ++ told.flatMap Told.findings
  repeated : ∀ f ∈ repeats, f.isRepeat = true
  subjects : ∀ t ∈ told, ∀ f ∈ t.findings, f.subject = t.block.name ∧ f.isRepeat = false

theorem Generation.Tells.filter {g : Generation} {repeats : List Finding} {told : List Told}
    (h : g.Tells repeats told) : g.findings.filter (·.isRepeat) = repeats ∧
      g.findings.filter (!·.isRepeat) = told.flatMap Told.findings := by
  have hrepeats : repeats.filter (!·.isRepeat) = [] := by
    rw [List.filter_eq_nil_iff]
    intro f hf
    rw [h.repeated f hf]
    exact Bool.false_ne_true
  have htold : ∀ f ∈ told.flatMap Told.findings, f.isRepeat = false := by
    intro f hf
    obtain ⟨t, ht, hf⟩ := List.mem_flatMap.mp hf
    exact (h.subjects t ht f hf).2
  constructor
  · rw [h.findings, List.filter_append, List.filter_eq_self.mpr h.repeated,
      List.filter_eq_nil_iff.mpr fun f hf => by rw [htold f hf]; exact Bool.false_ne_true,
      List.append_nil]
  · rw [h.findings, List.filter_append, hrepeats,
      List.filter_eq_self.mpr fun f hf => by rw [htold f hf]; rfl, List.nil_append]

def Definitions.tell (ds : Definitions) (o : Options) (e : String × Definition) : Told :=
  ⟨Definition.block o.marker e, definitionFindings (ds.lookup o.checkReferences) e⟩

theorem Definitions.tells (ds : Definitions) (o : Options) :
    (ds.generate o).Tells (ds.duplicates.map .duplicateDefinition)
      ((ds.ordered o.sort).map (ds.tell o)) := by
  refine ⟨?_, ?_, ?_, ?_⟩
  · rw [generate, List.map_map]
    rfl
  · rw [generate, List.flatMap_map]
    rfl
  · intro f hf
    obtain ⟨n, _, rfl⟩ := List.mem_map.mp hf
    rfl
  · intro t ht f hf
    obtain ⟨e, _, rfl⟩ := List.mem_map.mp ht
    refine ⟨subject_of_mem_definitionFindings hf, ?_⟩
    cases f with
    | duplicateDefinition n => exact absurd hf (duplicateDefinition_not_mem _ e n)
    | _ => rfl

/-- Each option has its own effect and no other. Without the check the unresolved
references are not told. Sorted, the same definitions are told one by one in the order
of the code points of their names, which is that of their bytes. The other marker
stands wherever the first one did, and only there. -/
theorem generate_options (docs : List Schema.Document) (o : Options) :
    ((generate docs { o with checkReferences := false }).blocks =
        (generate docs { o with checkReferences := true }).blocks ∧
      (generate docs { o with checkReferences := false }).findings =
        (generate docs { o with checkReferences := true }).findings.filter (!·.isUnresolved)) ∧
    (∃ repeats told sorted,
      (generate docs { o with sort := false }).Tells repeats told ∧
      (generate docs { o with sort := true }).Tells repeats sorted ∧
      sorted.Perm told ∧
      (sorted.map fun t => Text.codePoints t.block.name).Pairwise (· < ·) ∧
      (sorted.map fun t => Text.bytes t.block.name).Pairwise (· < ·)) ∧
    ∃ interfaces : List TypeScript.Interface,
      interfaces = (Definitions.ofDocuments docs).interfaces { o with marker := .any } ∧
      interfaces.map TypeScript.Interface.anyAsUnknown =
        (Definitions.ofDocuments docs).interfaces { o with marker := .unknown } ∧
      (generate docs { o with marker := .any }).blocks =
        interfaces.map (fun i => ⟨i.name, i.text⟩) ∧
      (generate docs { o with marker := .unknown }).blocks =
        interfaces.map (fun i => ⟨i.name, i.anyAsUnknown.text⟩) ∧
      (generate docs { o with marker := .unknown }).findings =
        (generate docs { o with marker := .any }).findings := by
  let ds := Definitions.ofDocuments docs
  refine ⟨⟨rfl, ?_⟩, ?_, ?_⟩
  · have hrepeats : (ds.duplicates.map Finding.duplicateDefinition).filter (!·.isUnresolved) =
        ds.duplicates.map Finding.duplicateDefinition := by
      rw [List.filter_eq_self]
      intro f hf
      obtain ⟨n, _, rfl⟩ := List.mem_map.mp hf
      rfl
    have hchecked (e : String × Definition) :
        definitionFindings (ds.lookup false) e =
          (definitionFindings (ds.lookup true) e).filter (!·.isUnresolved) :=
      definitionFindings_unchecked _ e
    rw [generate, generate, Definitions.generate, Definitions.generate, List.filter_append,
      hrepeats, List.filter_flatMap]
    exact congrArg _ (List.flatMap_congr fun e _ => hchecked e)
  · have htells := ds.tells { o with sort := false }
    have htells' := ds.tells { o with sort := true }
    refine ⟨_, _, _, htells, htells', ?_, ?_, ?_⟩
    · exact (Entries.sorted_perm ds.entries).map _
    all_goals
      have hincreasing := Entries.names_sorted_increasing ds.distinct
      rw [Entries.names, List.pairwise_map] at hincreasing
      rw [List.map_map, List.pairwise_map]
    · exact hincreasing.imp Text.lt_iff_codePoints.mp
    · exact hincreasing.imp Text.lt_iff_bytes.mp
  · have hinterfaces : (ds.interfaces { o with marker := .any }).map
        TypeScript.Interface.anyAsUnknown = ds.interfaces { o with marker := .unknown } := by
      rw [Definitions.interfaces, List.map_map]
      exact List.map_congr_left fun e _ => (e.2.interface_unknown e.1).symm
    refine ⟨_, rfl, hinterfaces, ds.blocks_eq_interfaces _, ?_, rfl⟩
    have hblocks := ds.blocks_eq_interfaces { o with marker := .unknown }
    rw [← hinterfaces, List.map_map] at hblocks
    exact hblocks

end SchemaTypes
