import Mathlib.Data.List.Forall2
import Mathlib.Data.List.Nodup
import Mathlib.Data.Option.Basic
import SchemaTypes.Generation
import SchemaTypes.Proofs.Shape.Reference

/-!
# Findings agree with declarations

The findings look at properties, the declarations are made of types and keys. Both
see the same: a reference is found wanting exactly if the type that is written
names something that is not declared, or names nothing in the place of a
reference, and a key exactly if it is written otherwise than its name.
-/

set_option autoImplicit false

namespace SchemaTypes

open TypeScript (isIdentifier isTypeName key literal escapeChar docText Member Interface)
open TypeScript.TypeExpr (targets)

theorem length_escapeChar (c : Char) : 1 ≤ (escapeChar c).length := by
  unfold escapeChar
  split_ifs <;> simp

theorem length_flatMap_escapeChar (cs : List Char) :
    cs.length ≤ (cs.flatMap escapeChar).length := by
  induction cs with
  | nil => simp
  | cons c cs ih =>
    have hc := length_escapeChar c
    rw [List.flatMap_cons, List.length_append, List.length_cons]
    omega

theorem literal_ne (s : String) : literal s ≠ s := by
  intro h
  have hlength := congrArg (fun t => t.toList.length) h
  have hmore := length_flatMap_escapeChar s.toList
  simp only [literal, TypeScript.literalChars, String.toList_ofList, List.length_cons,
    List.length_append, List.length_nil] at hlength
  omega

theorem key_eq_self_iff (name : String) : key name = name ↔ isIdentifier name = true := by
  unfold key
  split
  · rename_i h
    simp [h]
  · rename_i h
    simp [h, literal_ne]

inductive Aspect
  | key
  | reference
deriving DecidableEq, Repr

/-- What a finding is about: the name of a definition, or an aspect of one of its
properties. A repeat is about none of them. -/
def Finding.site? : Finding → Option (String × Option (String × Aspect))
  | .duplicateDefinition _ => none
  | .invalidTypeName name => some (name, none)
  | .quotedPropertyName definition property => some (definition, some (property, .key))
  | .malformedReference definition property _ => some (definition, some (property, .reference))
  | .unresolvedReference definition property _ => some (definition, some (property, .reference))

def KeyWritten (m : Member) (written : String) : Prop :=
  m.line = "  " ++ written ++ (if m.optional then "?" else "") ++ ": " ++ m.type.text ++ ";"

theorem keyWritten_iff {m : Member} {written : String} :
    KeyWritten m written ↔ written = key m.name := by
  constructor
  · intro h
    have hchars := congrArg String.toList h
    simp only [Member.line, String.toList_append, List.append_cancel_right_eq,
      List.append_cancel_left_eq] at hchars
    exact (String.toList_inj.mp hchars).symm
  · rintro rfl
    rfl

/-- The block of a definition holds the line of the member of each property, behind its
description. -/
def Declares (marker : Marker) (d : String × Definition) (b : Block) : Prop :=
  b.name = d.1 ∧
    b.code = "export interface " ++ d.1 ++ " \x7b" ++
      (if d.2.properties.isEmpty then "" else "\n") ++
      String.join (d.2.properties.map fun e =>
        docText e.2.description ++ (d.2.member marker e).line ++ "\n") ++ "\x7d"

theorem declares_block (marker : Marker) (d : String × Definition) :
    Declares marker d (Definition.block marker d) := by
  refine ⟨rfl, ?_⟩
  rw [Definition.block, Interface.text_eq, Definition.interface, List.isEmpty_map, List.map_map]
  rfl

/-- What has to be told about the reference of a property that is declared by a
member, among the names that are declared. -/
structure ReferenceReport (checked : Bool) (declared : List String) (definition : String)
    (e : String × Property) (m : Member) (r : List Finding) : Prop where
  unresolved : ∀ target, .unresolvedReference definition e.1 target ∈ r ↔
    checked = true ∧ target ∈ targets m.type ∧ target ∉ declared
  malformed : ∀ pointer, .malformedReference definition e.1 pointer ∈ r ↔
    e.2.shape.LeadsTo pointer ∧ targets m.type = []
  only : ∀ f ∈ r, (∃ target, f = .unresolvedReference definition e.1 target) ∨
    ∃ pointer, f = .malformedReference definition e.1 pointer
  single : r.length ≤ 1

/-- What has to be told about a property: its key first, then its reference. -/
def PropertyReport (o : Options) (declared : List String) (d : String × Definition)
    (e : String × Property) (r : List Finding) : Prop :=
  ∃ written references, (∀ w, KeyWritten (d.2.member o.marker e) w ↔ w = written) ∧
    ReferenceReport o.checkReferences declared d.1 e (d.2.member o.marker e) references ∧
    r = (if written = e.1 then [] else [.quotedPropertyName d.1 e.1]) ++ references

/-- What has to be told about a definition: its name first, then its properties in
their order. -/
def DefinitionReport (o : Options) (declared : List String) (d : String × Definition)
    (r : List Finding) : Prop :=
  ∃ reports, List.Forall₂ (PropertyReport o declared d) d.2.properties reports ∧
    r = (if isTypeName d.1 then [] else [.invalidTypeName d.1]) ++ reports.flatten

theorem referenceFindings_report (l : Lookup) (declared : List String) (marker : Marker)
    (hl : ∀ n, n ∈ l.known ↔ n ∈ declared) (d : String × Definition) (e : String × Property) :
    ReferenceReport l.checked declared d.1 e (d.2.member marker e)
      (referenceFindings l d.1 e.1 e.2.pointer?) := by
  have htype : (d.2.member marker e).type = e.2.shape.type marker := Property.type_eq marker e.2
  have htargets := Shape.targets_type marker e.2.shape
  have hleads (pointer : String) : e.2.shape.LeadsTo pointer ↔ e.2.pointer? = some pointer := by
    rw [Property.pointer?_eq, Shape.pointer?_eq_some_iff]
  rw [← Property.pointer?_eq] at htargets
  rw [← htype] at htargets
  -- the pointer, and then the name at its end, decide the finding and the type alike
  cases hp : e.2.pointer? with
  | none =>
    rw [hp] at htargets
    exact ⟨by simp [referenceFindings, htargets], by simp [referenceFindings, hleads, hp],
      by simp [referenceFindings], by simp [referenceFindings]⟩
  | some pointer =>
    rw [hp, Option.bind_some] at htargets
    cases hn : targetName? pointer with
    | none =>
      rw [hn] at htargets
      have hfindings : referenceFindings l d.1 e.1 (some pointer) =
          [.malformedReference d.1 e.1 pointer] := by
        simp [referenceFindings, hn]
      rw [hfindings]
      refine ⟨by simp [htargets], ?_, by simp, by simp⟩
      intro p
      simp [hleads, hp, htargets, eq_comm]
    | some target =>
      rw [hn] at htargets
      have hfindings : referenceFindings l d.1 e.1 (some pointer) =
          if l.checked = true ∧ target ∉ declared then
            [.unresolvedReference d.1 e.1 target] else [] := by
        simp [referenceFindings, hn, hl]
      rw [hfindings]
      split_ifs with h
      · refine ⟨?_, by simp [htargets], by simp, by simp⟩
        intro t
        simp only [List.mem_singleton, Finding.unresolvedReference.injEq, true_and, htargets,
          Option.toList_some]
        constructor
        · rintro rfl
          exact ⟨h.1, rfl, h.2⟩
        · exact fun ht => ht.2.1
      · refine ⟨?_, by simp [htargets], by simp, by simp⟩
        intro t
        simp only [List.not_mem_nil, htargets, Option.toList_some, List.mem_singleton, false_iff]
        rintro ⟨hc, rfl, ht⟩
        exact h ⟨hc, ht⟩

theorem propertyFindings_report (l : Lookup) (o : Options) (declared : List String)
    (hc : l.checked = o.checkReferences) (hl : ∀ n, n ∈ l.known ↔ n ∈ declared)
    (d : String × Definition) (e : String × Property) :
    PropertyReport o declared d e (propertyFindings l d.1 e) := by
  refine ⟨key e.1, referenceFindings l d.1 e.1 e.2.pointer?, fun _ => keyWritten_iff, ?_, ?_⟩
  · rw [← hc]
    exact referenceFindings_report l declared o.marker hl d e
  · simp only [propertyFindings, keyFindings, key_eq_self_iff]

theorem definitionFindings_report (l : Lookup) (o : Options) (declared : List String)
    (hc : l.checked = o.checkReferences) (hl : ∀ n, n ∈ l.known ↔ n ∈ declared)
    (d : String × Definition) : DefinitionReport o declared d (definitionFindings l d) := by
  refine ⟨d.2.properties.map (propertyFindings l d.1), ?_, ?_⟩
  · rw [List.forall₂_map_right_iff, List.forall₂_same]
    exact fun e _ => propertyFindings_report l o declared hc hl d e
  · rw [definitionFindings, nameFindings, List.flatMap_def]

theorem nodup_flatMap_of_label {α β γ : Type} (part : α → List β) (label : α → γ)
    (labelOf : β → γ) {xs : List α} (hxs : (xs.map label).Nodup)
    (hparts : ∀ x ∈ xs, (part x).Nodup) (hlabel : ∀ x ∈ xs, ∀ y ∈ part x, labelOf y = label x) :
    (xs.flatMap part).Nodup := by
  induction xs with
  | nil => simp
  | cons x xs ih =>
    rw [List.map_cons, List.nodup_cons] at hxs
    rw [List.flatMap_cons, List.nodup_append]
    refine ⟨hparts x (by simp), ih hxs.2 (fun y hy => hparts y (List.mem_cons_of_mem _ hy))
      (fun y hy => hlabel y (List.mem_cons_of_mem _ hy)), ?_⟩
    rintro a ha b hb rfl
    obtain ⟨y, hy, hay⟩ := List.mem_flatMap.mp hb
    have hx := hlabel x (by simp) a ha
    have hy' := hlabel y (List.mem_cons_of_mem _ hy) a hay
    exact hxs.1 (List.mem_map.mpr ⟨y, hy, hy'.symm.trans hx⟩)

theorem sites_keyFindings (definition property : String) :
    (keyFindings definition property).filterMap Finding.site? =
      if isIdentifier property then [] else [(definition, some (property, .key))] := by
  unfold keyFindings
  split <;> rfl

theorem sites_referenceFindings (l : Lookup) (definition property : String)
    (pointer? : Option String) :
    (referenceFindings l definition property pointer?).filterMap Finding.site? = [] ∨
      (referenceFindings l definition property pointer?).filterMap Finding.site? =
        [(definition, some (property, .reference))] := by
  unfold referenceFindings
  split
  · exact Or.inl rfl
  · split
    · exact Or.inr rfl
    · split
      · exact Or.inr rfl
      · exact Or.inl rfl

theorem nodup_sites_propertyFindings (l : Lookup) (definition : String) (e : String × Property) :
    ((propertyFindings l definition e).filterMap Finding.site?).Nodup := by
  rw [propertyFindings, List.filterMap_append, sites_keyFindings]
  rcases sites_referenceFindings l definition e.1 e.2.pointer? with h | h
  · rw [h]
    split_ifs <;> simp
  · rw [h]
    split_ifs <;> simp

theorem site_of_mem_propertyFindings (l : Lookup) (definition : String) (e : String × Property) :
    ∀ s ∈ (propertyFindings l definition e).filterMap Finding.site?,
      s.1 = definition ∧ s.2.map Prod.fst = some e.1 := by
  intro s hs
  rw [propertyFindings, List.filterMap_append, sites_keyFindings, List.mem_append] at hs
  rcases hs with hs | hs
  · split_ifs at hs
    · cases hs
    · rw [List.mem_singleton.mp hs]
      exact ⟨rfl, rfl⟩
  · rcases sites_referenceFindings l definition e.1 e.2.pointer? with h | h
    · rw [h] at hs
      cases hs
    · rw [h] at hs
      rw [List.mem_singleton.mp hs]
      exact ⟨rfl, rfl⟩

theorem sites_definitionFindings (l : Lookup) (d : String × Definition) :
    (definitionFindings l d).filterMap Finding.site? =
      (if isTypeName d.1 then [] else [(d.1, none)]) ++
        d.2.properties.flatMap fun e => (propertyFindings l d.1 e).filterMap Finding.site? := by
  rw [definitionFindings, List.filterMap_append, List.filterMap_flatMap, nameFindings]
  split_ifs <;> rfl

theorem site_of_mem_definitionFindings (l : Lookup) (d : String × Definition) :
    ∀ s ∈ (definitionFindings l d).filterMap Finding.site?, s.1 = d.1 := by
  intro s hs
  rw [sites_definitionFindings, List.mem_append] at hs
  rcases hs with hs | hs
  · split_ifs at hs
    · cases hs
    · rw [List.mem_singleton.mp hs]
  · obtain ⟨e, _, he⟩ := List.mem_flatMap.mp hs
    exact (site_of_mem_propertyFindings l d.1 e s he).1

theorem nodup_sites_definitionFindings (l : Lookup) (d : String × Definition) :
    ((definitionFindings l d).filterMap Finding.site?).Nodup := by
  have hlabels : (d.2.properties.map fun e => some e.1).Nodup := by
    have hnames := d.2.distinct.map (Option.some_injective String)
    rwa [Entries.names, List.map_map] at hnames
  have hproperties : (d.2.properties.flatMap fun e =>
      (propertyFindings l d.1 e).filterMap Finding.site?).Nodup :=
    nodup_flatMap_of_label _ (fun e => some e.1) (fun s => s.2.map Prod.fst) hlabels
      (fun e _ => nodup_sites_propertyFindings l d.1 e)
      (fun e _ s hs => (site_of_mem_propertyFindings l d.1 e s hs).2)
  rw [sites_definitionFindings, List.nodup_append]
  refine ⟨by split_ifs <;> simp, hproperties, ?_⟩
  rintro a ha b hb rfl
  obtain ⟨e, _, he⟩ := List.mem_flatMap.mp hb
  have hlabel := (site_of_mem_propertyFindings l d.1 e a he).2
  split_ifs at ha
  · cases ha
  · rw [List.mem_singleton.mp ha] at hlabel
    cases hlabel

theorem nodup_sites_findings (ds : Definitions) (o : Options) :
    ((ds.generate o).findings.filterMap Finding.site?).Nodup := by
  have hduplicates : (ds.duplicates.map Finding.duplicateDefinition).filterMap Finding.site? =
      [] := by
    rw [List.filterMap_map, List.filterMap_eq_nil_iff]
    exact fun _ _ => rfl
  rw [Definitions.generate, List.filterMap_append, hduplicates, List.nil_append,
    List.filterMap_flatMap]
  exact nodup_flatMap_of_label _ Prod.fst Prod.fst (ds.nodup_names_ordered o.sort)
    (fun d _ => nodup_sites_definitionFindings _ d) (fun d _ => site_of_mem_definitionFindings _ d)

/-- The findings are the repeats and then, declaration by declaration, what has to
be told about each by its text, and nothing is told twice. -/
theorem findings_agree (ds : Definitions) (o : Options) :
    ∃ reports,
      (ds.generate o).blocks = (ds.ordered o.sort).map (Definition.block o.marker) ∧
      List.Forall₂ (Declares o.marker) (ds.ordered o.sort) (ds.generate o).blocks ∧
      (ds.generate o).findings = ds.duplicates.map .duplicateDefinition ++ reports.flatten ∧
      List.Forall₂ (DefinitionReport o ((ds.generate o).blocks.map Block.name))
        (ds.ordered o.sort) reports ∧
      ((ds.generate o).findings.filterMap Finding.site?).Nodup := by
  refine ⟨(ds.ordered o.sort).map (definitionFindings (ds.lookup o.checkReferences)), rfl, ?_, ?_,
    ?_, nodup_sites_findings ds o⟩
  · rw [Definitions.generate, List.forall₂_map_right_iff, List.forall₂_same]
    exact fun d _ => declares_block o.marker d
  · rw [Definitions.generate, List.flatMap_def]
  · rw [List.forall₂_map_right_iff, List.forall₂_same]
    intro d _
    have hknown (n : String) : n ∈ (ds.lookup o.checkReferences).known ↔
        n ∈ (ds.generate o).blocks.map Block.name := Definitions.mem_names_blocks.symm
    exact definitionFindings_report _ o _ rfl hknown d

end SchemaTypes
