import SchemaTypes.Merging
import SchemaTypes.Proofs.Shape.RoundTrip
import SchemaTypes.Rendering

/-!
# Closed files

Without a warning the declarations make up a file in which every name that stands
for a type is declared, and declared once.
-/

set_option autoImplicit false

namespace SchemaTypes

open TypeScript (Interface isTypeName isIdentifier predefinedTypes reservedWords endsComment
  Lexes lexes_intercalate lexes_punctuation lexes_interface lexemes? tokensOf IsModule)
open TypeScript.TypeExpr (targets targets_collapsed)

def Generation.Clean (g : Generation) : Prop := ∀ f ∈ g.findings, f.severity ≠ .warning

/-- Every name can be declared, and every reference ends in a name that is declared. -/
structure Definitions.Closed (ds : Definitions) : Prop where
  named : ∀ d ∈ ds.entries, isTypeName d.1 = true
  known : ∀ d ∈ ds.entries, ∀ e ∈ d.2.properties, ∀ pointer, e.2.shape.LeadsTo pointer →
    ∃ n, targetName? pointer = some n ∧ n ∈ Entries.names ds.entries

def Definitions.Enclosed (ds : Definitions) : Prop :=
  ∀ d ∈ ds.entries, ∀ e ∈ d.2.properties, ∀ s ∈ e.2.description, endsComment s = false

namespace Definitions

variable {ds : Definitions} {o : Options}

theorem mem_findings_of_entry {d : String × Definition} {f : Finding} (hd : d ∈ ds.entries)
    (hf : f ∈ definitionFindings (ds.lookup o.checkReferences) d) :
    f ∈ (ds.generate o).findings := by
  have hordered : d ∈ ds.ordered o.sort := (ds.ordered_perm o.sort).mem_iff.mpr hd
  rw [generate, List.mem_append, List.mem_flatMap]
  exact Or.inr ⟨d, hordered, hf⟩

theorem isTypeName_of_clean (hw : (ds.generate o).Clean) {d : String × Definition}
    (hd : d ∈ ds.entries) : isTypeName d.1 = true := by
  by_cases hname : isTypeName d.1 = true
  · exact hname
  · have hf : .invalidTypeName d.1 ∈ definitionFindings (ds.lookup o.checkReferences) d := by
      rw [definitionFindings, nameFindings, if_neg hname]
      simp
    exact absurd rfl (hw _ (mem_findings_of_entry hd hf))

theorem target_of_clean (hc : o.checkReferences = true) (hw : (ds.generate o).Clean)
    {d : String × Definition} (hd : d ∈ ds.entries) {e : String × Property}
    (he : e ∈ d.2.properties) {pointer : String} (hp : e.2.shape.LeadsTo pointer) :
    ∃ n, targetName? pointer = some n ∧ n ∈ Entries.names ds.entries := by
  have hpointer : e.2.pointer? = some pointer := by
    rw [Property.pointer?_eq]
    exact Shape.pointer?_eq_some_iff.mpr hp
  have hquiet : ∀ f ∈ referenceFindings (ds.lookup o.checkReferences) d.1 e.1 (some pointer),
      f.severity ≠ .warning := by
    intro f hf
    apply hw f
    apply mem_findings_of_entry hd
    have hproperty : f ∈ propertyFindings (ds.lookup o.checkReferences) d.1 e := by
      rw [propertyFindings, List.mem_append, hpointer]
      exact Or.inr hf
    rw [definitionFindings, List.mem_append, List.mem_flatMap]
    exact Or.inr ⟨e, he, hproperty⟩
  cases hn : targetName? pointer with
  | none =>
    have hf : .malformedReference d.1 e.1 pointer ∈
        referenceFindings (ds.lookup o.checkReferences) d.1 e.1 (some pointer) := by
      simp [referenceFindings, hn]
    exact absurd rfl (hquiet _ hf)
  | some n =>
    by_cases hknown : n ∈ Entries.names ds.entries
    · exact ⟨n, rfl, hknown⟩
    · have hf : .unresolvedReference d.1 e.1 n ∈
          referenceFindings (ds.lookup o.checkReferences) d.1 e.1 (some pointer) := by
        simp [referenceFindings, hn, lookup, hc, hknown]
      exact absurd rfl (hquiet _ hf)

theorem closed_of_clean (hc : o.checkReferences = true) (hw : (ds.generate o).Clean) :
    ds.Closed where
  named _ hd := isTypeName_of_clean hw hd
  known _ hd _ he _ hp := target_of_clean hc hw hd he hp

theorem Closed.isTypeName_of_known (h : ds.Closed) {n : String}
    (hn : n ∈ Entries.names ds.entries) : isTypeName n = true := by
  obtain ⟨d, hd, rfl⟩ := List.mem_map.mp hn
  exact h.named d hd

theorem Closed.printable (h : ds.Closed) (he : ds.Enclosed) {d : String × Definition}
    (hd : d ∈ ds.entries) : d.2.Printable := by
  constructor
  · intro e hp pointer hleads
    obtain ⟨n, hn, hknown⟩ := h.known d hd e hp pointer hleads
    rw [(lastSegment_of_targetName? hn).1]
    exact Or.inr (h.isTypeName_of_known hknown)
  · exact he d hd

def interfaces (ds : Definitions) (o : Options) : List Interface :=
  (ds.ordered o.sort).map fun d => d.2.interface o.marker d.1

/-- The blocks are the texts of the interfaces. -/
theorem blocks_eq_interfaces (ds : Definitions) (o : Options) :
    (ds.generate o).blocks = (ds.interfaces o).map fun i => ⟨i.name, i.text⟩ := by
  rw [generate, interfaces, List.map_map]
  rfl

theorem Closed.readable (h : ds.Closed) (he : ds.Enclosed) : ∀ i ∈ ds.interfaces o, i.Readable := by
  intro i hi
  obtain ⟨d, hd, rfl⟩ := List.mem_map.mp hi
  have hentry := (ds.ordered_perm o.sort).mem_iff.mp hd
  exact Definition.readable_interface (h.printable he hentry) o.marker (h.named d hentry)

theorem lexes_typescriptText (h : ∀ i ∈ ds.interfaces o, i.Readable) :
    Lexes (typescriptText (ds.generate o).blocks).toList
      ((ds.interfaces o).flatMap Interface.lexemes) := by
  have hcodes : (ds.generate o).blocks.map Block.code = (ds.interfaces o).map Interface.text := by
    simp [generate, Definition.block, interfaces]
  have hgap : Lexes "\n\n".toList [] := lexes_punctuation (by decide)
  have hend : Lexes "\n".toList [] := lexes_punctuation (by decide)
  have hjoin := lexes_intercalate hgap Interface.text Interface.lexemes (ds.interfaces o) fun i hi =>
    lexes_interface (h i hi)
  rw [← hcodes] at hjoin
  unfold typescriptText
  split
  · rename_i hnone
    rw [hnone, List.map_nil] at hcodes
    have hempty := List.map_eq_nil_iff.mp hcodes.symm
    rw [hempty]
    exact Lexes.nil
  · rw [String.toList_append]
    simpa using hjoin.append hend

theorem read_interfaces (ds : Definitions) (o : Options) :
    ((ds.interfaces o).map Interface.read).map Interface.bare =
      (ds.ordered o.sort).map fun d => (d.2.said o.marker d.1).bare := by
  simp [interfaces, Definition.read_interface]

theorem targets_said (marker : Marker) (d : String × Definition) :
    ∀ m ∈ (d.2.said marker d.1).bare.members, ∃ e ∈ d.2.properties,
      targets m.type = targets (e.2.shape.type marker) := by
  intro m hm
  obtain ⟨w, hw, rfl⟩ := List.mem_map.mp hm
  obtain ⟨e, he, rfl⟩ := List.mem_map.mp hw
  refine ⟨e, he, ?_⟩
  rw [TypeScript.Member.bare, targets_collapsed, Property.type_eq]

theorem Closed.known_of_target (h : ds.Closed) {marker : Marker} {d : String × Definition}
    (hd : d ∈ ds.entries) : ∀ m ∈ (d.2.said marker d.1).bare.members, ∀ n ∈ targets m.type,
      n ∈ Entries.names ds.entries := by
  intro m hm n hn
  obtain ⟨e, he, htargets⟩ := targets_said marker d m hm
  rw [htargets] at hn
  obtain ⟨pointer, hleads, hname⟩ := Shape.mem_targets_type.mp hn
  obtain ⟨k, hk, hknown⟩ := h.known d hd e he pointer hleads
  rw [hname] at hk
  exact Option.some.inj hk ▸ hknown

end Definitions

/-- Without a warning and without a description that ends its comment, the file
is one interface for each block, in one reading only, and every name in the place
of a type is the name of exactly one of them. -/
theorem typescriptText_closed (docs : List Schema.Document) (o : Options)
    (hc : o.checkReferences = true) (hw : (generate docs o).Clean)
    (he : (Definitions.ofDocuments docs).Enclosed) :
    ((generate docs o).blocks.map Block.name).Nodup ∧
    (∀ n ∈ (generate docs o).blocks.map Block.name,
      isIdentifier n = true ∧ n ∉ predefinedTypes ++ reservedWords) ∧
    ∃ lexemes is, lexemes? (typescriptText (generate docs o).blocks).toList = some lexemes ∧
      (∀ js, IsModule (tokensOf lexemes) js ↔ js = is) ∧
      is = ((Definitions.ofDocuments docs).ordered o.sort).map
        (fun d => (d.2.said o.marker d.1).bare) ∧
      is.map Interface.name = (generate docs o).blocks.map Block.name ∧
      ∀ i ∈ is, ∀ m ∈ i.members, ∀ n ∈ targets m.type, (is.map Interface.name).count n = 1 := by
  let ds := Definitions.ofDocuments docs
  have hclosed : ds.Closed := Definitions.closed_of_clean hc hw
  have hreadable : ∀ i ∈ ds.interfaces o, i.Readable := hclosed.readable he
  have hnames : (generate docs o).blocks.map Block.name = Entries.names (ds.ordered o.sort) :=
    ds.names_blocks o
  have hnodup : ((generate docs o).blocks.map Block.name).Nodup := by
    rw [hnames]
    exact ds.nodup_names_ordered o.sort
  have hbares : ((ds.ordered o.sort).map fun d => (d.2.said o.marker d.1).bare).map
      Interface.name = (generate docs o).blocks.map Block.name := by
    rw [hnames, List.map_map]
    rfl
  refine ⟨hnodup, ?_, _, _, (Definitions.lexes_typescriptText hreadable).lexemes?, ?_, rfl, hbares,
    ?_⟩
  · intro n hn
    have hvalid := hclosed.isTypeName_of_known (Definitions.mem_names_blocks.mp hn)
    simpa [isTypeName] using hvalid
  · intro js
    have hread := TypeScript.interfaces?_lexemes (ds.interfaces o) hreadable
    rw [TypeScript.isModule_iff_of_interfaces? hread js, ds.read_interfaces o]
  · intro i hi m hm n hn
    rw [hbares]
    obtain ⟨d, hd, rfl⟩ := List.mem_map.mp hi
    have hentry := (ds.ordered_perm o.sort).mem_iff.mp hd
    have hknown := hclosed.known_of_target hentry m hm n hn
    have hblock : n ∈ (generate docs o).blocks.map Block.name :=
      Definitions.mem_names_blocks.mpr hknown
    rw [hnodup.count, if_pos hblock]

theorem typescriptText_closed_pets : ∃ docs lexemes, (generate docs {}).Clean ∧
    (Definitions.ofDocuments docs).Enclosed ∧
    typescriptText (generate docs {}).blocks =
      "export interface Pet \x7b\n  /** tags * of a pet */\n" ++
      "  tags?: (\x22a\x22 | \x22b\x22)[];\n  owner: Owner;\n\x7d\n\n" ++
      "export interface Owner \x7b\n  \x22all pets\x22?: Pet[][];\n\x7d\n" ∧
    lexemes? (typescriptText (generate docs {}).blocks).toList = some lexemes ∧
    IsModule (tokensOf lexemes)
      [⟨"Pet", [⟨"tags", .array (.union [.literal "a", .literal "b"]), true, none⟩,
        ⟨"owner", .name "Owner", false, none⟩]⟩,
       ⟨"Owner", [⟨"all pets", .array (.array (.name "Pet")), true, none⟩]⟩] := by
  let tags : Schema.Keywords :=
    { type := some (.single "array")
      description := some "tags * of a pet"
      items := some (.single (.schema
        { type := some (.single "string"), enum := some [.string "a", .string "b"] })) }
  let owner : Schema.Keywords := { ref := some "#/components/schemas/Owner" }
  let pet : Schema.Keywords := { ref := some "#/definitions/Pet" }
  let array (k : Schema.Keywords) : Schema.Keywords :=
    { type := some (.single "array"), items := some (.single (.schema k)) }
  let swagger : Schema.Document :=
    { definitions := some (.ofList [("Pet",
        { properties := some [("tags", .schema tags), ("owner", .schema owner)]
          required := some (.names ["owner"]) })]) }
  let openapi : Schema.Document :=
    { components := some { schemas := some (.ofList [("Owner",
        { properties := some [("all pets", .schema (array (array pet)))] })]) } }
  have hw : (generate [swagger, openapi] {}).Clean := by
    unfold Generation.Clean
    decide
  have he : (Definitions.ofDocuments [swagger, openapi]).Enclosed := by
    unfold Definitions.Enclosed
    decide
  obtain ⟨-, -, lexemes, is, hlexemes, hmodule, his, -, -⟩ :=
    typescriptText_closed [swagger, openapi] {} rfl hw he
  refine ⟨[swagger, openapi], lexemes, hw, he, by decide, hlexemes, (hmodule _).mpr ?_⟩
  rw [his]
  rfl

end SchemaTypes
