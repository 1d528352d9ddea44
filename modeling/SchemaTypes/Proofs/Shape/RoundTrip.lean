import SchemaTypes.Proofs.Shape.Reference
import SchemaTypes.Proofs.TypeScript.Emission

/-!
# Interfaces read back

The text of an interface says its name and, in order, the key, the optional mark,
the type and the description of every member. Keys and texts may be anything; a
name that stands bare in the text has to be one that can be declared, and a
description must not end the comment that it stands in.
-/

set_option autoImplicit false

namespace SchemaTypes

open TypeScript (isTypeName endsComment readInterface? lexemes? interfaces? Interface Member)

/-- The definitions whose interface is what its text says, under any name that can
be declared. -/
structure Definition.Printable (d : Definition) : Prop where
  targets : ∀ e ∈ d.properties, ∀ pointer, e.2.shape.LeadsTo pointer →
    lastSegment pointer.toList = [] ∨
      isTypeName (String.ofList (lastSegment pointer.toList)) = true
  enclosed : ∀ e ∈ d.properties, ∀ s ∈ e.2.description, endsComment s = false

namespace Definition

variable {d e : Definition}

theorem readable_member (h : d.Printable) (marker : Marker) {p : String × Property}
    (hp : p ∈ d.properties) : (d.member marker p).Readable := by
  constructor
  · show (p.2.type marker).Plain
    rw [Property.type_eq]
    apply Shape.plain_type
    intro n hn
    obtain ⟨pointer, hleads, hname⟩ := Shape.mem_targets_type.mp hn
    obtain ⟨hsegment, hne⟩ := lastSegment_of_targetName? hname
    have hvalid := (h.targets p hp pointer hleads).resolve_left hne
    rwa [hsegment] at hvalid
  · exact h.enclosed p hp

theorem readable_interface (h : d.Printable) (marker : Marker) {name : String}
    (hn : isTypeName name = true) : (d.interface marker name).Readable := by
  constructor
  · exact hn
  · intro m hm
    obtain ⟨p, hp, rfl⟩ := List.mem_map.mp hm
    exact readable_member h marker hp

/-- What the interface says, with a union of one text as that text. -/
def said (d : Definition) (marker : Marker) (name : String) : Interface :=
  ⟨name, d.properties.map fun p =>
    ⟨p.1, (p.2.type marker).collapsed, !d.isRequired p.1, p.2.description⟩⟩

theorem read_interface (d : Definition) (marker : Marker) (name : String) :
    (d.interface marker name).read = d.said marker name := by
  simp only [Interface.read, interface, said, List.map_map]
  rfl

theorem readInterface?_text (h : d.Printable) (marker : Marker) {name : String}
    (hn : isTypeName name = true) :
    readInterface? (d.interface marker name).text = some (d.said marker name) := by
  have hreadable := readable_interface h marker hn
  have hlexemes := (TypeScript.lexes_interface hreadable).lexemes?
  have hread := TypeScript.interfaces?_lexemes [d.interface marker name] (by simpa using hreadable)
  rw [List.flatMap_singleton, List.map_singleton, read_interface] at hread
  rw [readInterface?, TypeScript.readModule?, hlexemes, Option.bind_some, hread]

/-- The text of an interface is read back as what it says, and no other interface
has that text. -/
theorem interface_text_decodes {name : String} (marker : Marker) (hn : isTypeName name = true)
    (hd : d.Printable) :
    readInterface? (d.interface marker name).text = some (d.said marker name) ∧
      ∀ (e : Definition) (other : Marker) (named : String), isTypeName named = true →
        e.Printable → (e.interface other named).text = (d.interface marker name).text →
          e.said other named = d.said marker name := by
  refine ⟨readInterface?_text hd marker hn, ?_⟩
  intro e other named hnamed he htext
  have hread := readInterface?_text he other hnamed
  rw [htext, readInterface?_text hd marker hn] at hread
  exact (Option.some.inj hread).symm

/-- Keys that have to be quoted, a description of two lines, an array of a union,
an array of arrays and a union of one text. -/
theorem interface_text_decodes_pet : ∃ d : Definition, d.Printable ∧ isTypeName "Pet" = true ∧
    (d.interface .any "Pet").text = "export interface Pet \x7b\n  /** one\ntwo */\n" ++
      "  \x22\x22?: (\x22a\x22 | \x22b\\\x22c\x22)[];\n  \x22naïve key\x22?: Pet[][];\n" ++
      "  id: \x22x\x22;\n\x7d" ∧
    readInterface? (d.interface .any "Pet").text = some ⟨"Pet",
      [⟨"", .array (.union [.literal "a", .literal "b\x22c"]), true, some "one\ntwo"⟩,
       ⟨"naïve key", .array (.array (.name "Pet")), true, none⟩,
       ⟨"id", .literal "x", false, none⟩]⟩ := by
  let d : Definition :=
    { properties :=
        [("", ⟨.array ⟨.enumeration ["a", "b\x22c"], none⟩, some "one\ntwo"⟩),
         ("naïve key", ⟨.array ⟨.array ⟨.reference "#/definitions/Pet", none⟩, none⟩, none⟩),
         ("id", ⟨.enumeration ["x"], none⟩)]
      required := ["id"] }
  have hd : d.Printable := by
    constructor
    · intro e he pointer hp
      rw [← Shape.pointer?_eq_some_iff] at hp
      simp only [d, List.mem_cons, List.not_mem_nil, or_false] at he
      rcases he with rfl | rfl | rfl
      · cases hp
      · cases hp
        exact Or.inr (by decide)
      · cases hp
    · intro e he s hs
      simp only [d, List.mem_cons, List.not_mem_nil, or_false] at he
      rcases he with rfl | rfl | rfl
      · cases hs
        decide
      · cases hs
      · cases hs
  have hn : isTypeName "Pet" = true := by decide
  exact ⟨d, hd, hn, by decide, (interface_text_decodes .any hn hd).1⟩

end Definition

end SchemaTypes
