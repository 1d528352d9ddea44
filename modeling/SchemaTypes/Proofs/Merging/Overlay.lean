import SchemaTypes.Proofs.Finding.Subject
import SchemaTypes.Proofs.Merging.History

/-!
# One document over others

What a further document does to the declarations of those before it, while they
stand in the order in which their names first came: its declarations take the
places of those with the same names, and its new ones follow. Everything else
stays as it is, but for the references that wait for one of its names.
-/

set_option autoImplicit false

namespace SchemaTypes

namespace Entries

variable {α : Type}

theorem name_mem_names {es : List (String × α)} {e : String × α} (he : e ∈ es) :
    e.1 ∈ names es :=
  List.mem_map_of_mem he

/-- An entry with the value that other entries have for its name, if they have one. -/
def under (upper : List (String × α)) (e : String × α) : String × α :=
  (e.1, (get? upper e.1).getD e.2)

theorem under_of_not_mem {upper : List (String × α)} {e : String × α} (h : e.1 ∉ names upper) :
    under upper e = e := by
  rw [under, get?_eq_none_iff.mpr h, Option.getD_none]

theorem put_of_mem {es : List (String × α)} (distinct : (names es).Nodup) {n : String}
    (h : n ∈ names es) (v : α) :
    put es n v = es.map fun e => if e.1 = n then (e.1, v) else e := by
  induction es with
  | nil => cases h
  | cons e es ih =>
    rw [names_cons, List.nodup_cons] at distinct
    rw [put, List.map_cons]
    by_cases he : e.1 = n
    · have hrest : es.map (fun e => if e.1 = n then (e.1, v) else e) = es := by
        rw [← List.map_id es, List.map_map]
        apply List.map_congr_left
        intro d hd
        have hne : d.1 ≠ n := by
          rintro rfl
          exact distinct.1 (he ▸ name_mem_names hd)
        exact if_neg hne
      rw [if_pos he, if_pos he, hrest]
    · have hn : n ∈ names es := (List.mem_cons.mp h).resolve_left (Ne.symm he)
      rw [if_neg he, if_neg he, ih distinct.2 hn]

/-- Entries of which each has a name of its own leave the old ones in their places
with new values, and then the new ones in their order. -/
theorem putAll_eq_overlay {es fs : List (String × α)} (distinct : (names es).Nodup)
    (h : (names fs).Nodup) :
    putAll es fs = es.map (under fs) ++ fs.filter fun f => f.1 ∉ names es := by
  induction fs generalizing es with
  | nil =>
    have hsame : es.map (under []) = es := List.map_id'' (fun _ => rfl) es
    rw [putAll, hsame, List.filter_nil, List.append_nil]
  | cons f fs ih =>
    obtain ⟨n, v⟩ := f
    rw [names_cons, List.nodup_cons] at h
    have hfresh : n ∉ names fs := h.1
    rw [putAll, ih (nodup_names_put distinct n v) h.2]
    have hothers : fs.filter (fun f => f.1 ∉ names (put es n v)) =
        fs.filter fun f => f.1 ∉ names es := by
      apply List.filter_congr
      intro f hf
      have hne : f.1 ≠ n := by
        rintro rfl
        exact hfresh (name_mem_names hf)
      simp [mem_names_put, hne]
    rw [hothers]
    by_cases hn : n ∈ names es
    · rw [put_of_mem distinct hn, List.map_map, List.filter_cons_of_neg (by simpa using hn)]
      congr 1
      apply List.map_congr_left
      intro e _
      by_cases he : e.1 = n
      · have hnew : (e.1, v).1 ∉ names fs := he ▸ hfresh
        rw [Function.comp_apply, if_pos he, under_of_not_mem hnew, under, get?, if_pos he.symm,
          Option.getD_some]
      · rw [Function.comp_apply, if_neg he, under, under, get?, if_neg (Ne.symm he)]
    · rw [put_of_not_mem hn, List.map_append, List.filter_cons_of_pos (by simpa using hn),
        List.append_assoc]
      congr 1
      · apply List.map_congr_left
        intro e he
        have hne : n ≠ e.1 := by
          rintro rfl
          exact hn (name_mem_names he)
        rw [under, under, get?, if_neg hne]
      · rw [List.map_singleton, under_of_not_mem hfresh, List.singleton_append]

theorem filter_name_put {es : List (String × α)} {m n : String} (h : m ≠ n) (v : α) :
    (put es m v).filter (·.1 = n) = es.filter (·.1 = n) := by
  induction es with
  | nil => simp [put, h]
  | cons e es ih =>
    rw [put]
    split
    · rename_i he
      simp [he, h]
    · rw [List.filter_cons, List.filter_cons, ih]

theorem filter_name_putAll {es fs : List (String × α)} {n : String} (h : n ∉ names fs) :
    (putAll es fs).filter (·.1 = n) = es.filter (·.1 = n) := by
  induction fs generalizing es with
  | nil => rfl
  | cons f fs ih =>
    rw [names_cons, List.mem_cons, not_or] at h
    rw [putAll, ih h.2, filter_name_put (Ne.symm h.1)]

theorem mem_names_putAll {es fs : List (String × α)} {n : String} :
    n ∈ names (putAll es fs) ↔ n ∈ names es ∨ n ∈ names fs := by
  induction fs generalizing es with
  | nil => simp [putAll]
  | cons f fs ih => rw [putAll, ih, mem_names_put, names_cons, List.mem_cons, or_assoc]

end Entries

def Schema.Document.defined (d : Schema.Document) : List String :=
  (d.catalogue?.map Schema.Catalogue.names).getD []

/-- A block, or that of the same name among others, if they have one. -/
def Block.under (upper : List Block) (b : Block) : Block :=
  (upper.find? (·.name = b.name)).getD b

theorem find?_block (marker : Marker) (es : List (String × Definition)) (n : String) :
    (es.map (Definition.block marker)).find? (·.name = n) =
      (Entries.get? es n).map fun d => Definition.block marker (n, d) := by
  induction es with
  | nil => rfl
  | cons e es ih =>
    rw [List.map_cons, List.find?_cons, Entries.get?]
    by_cases he : e.1 = n
    · subst he
      simp [Definition.block]
    · simp [Definition.block, he, ih]

theorem under_block (marker : Marker) (es : List (String × Definition))
    (e : String × Definition) :
    Block.under (es.map (Definition.block marker)) (Definition.block marker e) =
      Definition.block marker (Entries.under es e) := by
  have hname : (Definition.block marker e).name = e.1 := rfl
  rw [Block.under, hname, find?_block, Entries.under]
  cases Entries.get? es e.1 with
  | none => rfl
  | some d => rfl

namespace Definitions

open Entries (names putAll mapValues under repeatedFrom)

/-- The definitions of a document alone are those that it puts over others. -/
theorem entries_addDocument (d : Schema.Document) :
    names (ofDocuments [d]).entries = d.defined ∧
      ∀ ds : Definitions, (ds.addDocument d).entries =
        putAll ds.entries (ofDocuments [d]).entries := by
  have hsingle : ofDocuments [d] = empty.addDocument d := rfl
  rw [hsingle, Schema.Document.defined]
  cases hc : d.catalogue? with
  | none => simp [addDocument, hc, empty, putAll]
  | some c =>
    have hadd (ds : Definitions) : (ds.addDocument d).entries =
        putAll ds.entries (mapValues Schema.Definition.lowered c.entries) := by
      rw [addDocument, hc]
      exact (foldl_define _ c.entries).1
    have hdistinct : (names (mapValues Schema.Definition.lowered c.entries)).Nodup := by
      rw [Entries.names_mapValues]
      exact c.distinct
    have halone : (empty.addDocument d).entries =
        mapValues Schema.Definition.lowered c.entries := by
      rw [hadd]
      exact Entries.putAll_of_nodup hdistinct
    constructor
    · rw [halone, Entries.names_mapValues]
      rfl
    · intro ds
      rw [halone, hadd]

theorem duplicates_addDocument (ds : Definitions) (d : Schema.Document) :
    ∃ more, (ds.addDocument d).duplicates = ds.duplicates ++ more ∧ ∀ n ∈ more, n ∈ d.defined := by
  rw [Schema.Document.defined]
  cases hc : d.catalogue? with
  | none => exact ⟨[], by simp [addDocument, hc], by simp⟩
  | some c =>
    have hduplicates := (foldl_define { ds with duplicates := ds.duplicates ++ c.repeats }
      c.entries).2
    refine ⟨c.repeats ++ repeatedFrom (names ds.entries) (names c.entries), ?_, ?_⟩
    · rw [addDocument, hc]
      exact hduplicates.trans (List.append_assoc _ _ _)
    · intro n hn
      rw [Entries.repeatedFrom_of_nodup _ c.distinct] at hn
      rcases List.mem_append.mp hn with hn | hn
      · exact c.known n hn
      · exact (List.mem_filter.mp hn).1

theorem lookup_addDocument (ds : Definitions) (d : Schema.Document) (checked : Bool) :
    ((ds.addDocument d).lookup checked).Extends (ds.lookup checked) d.defined := by
  obtain ⟨hdefined, hadd⟩ := entries_addDocument d
  refine ⟨rfl, fun n => ?_⟩
  rw [lookup, lookup, hadd, Entries.mem_names_putAll, hdefined]

variable {ds : Definitions} {d : Schema.Document} {n : String}

theorem repeats_addDocument (hn : n ∉ d.defined) :
    ((ds.addDocument d).duplicates.map Finding.duplicateDefinition).filter (·.subject = n) =
      (ds.duplicates.map Finding.duplicateDefinition).filter (·.subject = n) := by
  obtain ⟨more, hduplicates, hmore⟩ := duplicates_addDocument ds d
  have hnone : (more.map Finding.duplicateDefinition).filter (·.subject = n) = [] := by
    rw [List.filter_eq_nil_iff]
    intro f hf
    obtain ⟨m, hm, rfl⟩ := List.mem_map.mp hf
    have hne : m ≠ n := by
      rintro rfl
      exact hn (hmore m hm)
    exact decide_eq_true_iff.not.mpr hne
  rw [hduplicates, List.map_append, List.filter_append, hnone, List.append_nil]

theorem blocks_of_unsorted (ds : Definitions) {o : Options} (hs : o.sort = false) :
    (ds.generate o).blocks = ds.entries.map (Definition.block o.marker) := by
  rw [generate, ordered, hs, if_neg Bool.false_ne_true]

/-- What is told about a definition that a further document does not replace. -/
theorem filter_subject_addDocument (o : Options) (hs : o.sort = false) (hn : n ∉ d.defined) :
    ((ds.addDocument d).generate o).findings.filter (·.subject = n) =
      ((ds.generate o).findings.filter (·.subject = n)).filter (!·.awaits d.defined) := by
  have hordered (cs : Definitions) : cs.ordered o.sort = cs.entries := by
    rw [ordered, hs, if_neg Bool.false_ne_true]
  have hrepeats : ((ds.duplicates.map Finding.duplicateDefinition).filter (·.subject = n)).filter
      (!·.awaits d.defined) =
        (ds.duplicates.map Finding.duplicateDefinition).filter (·.subject = n) := by
    rw [List.filter_eq_self]
    intro f hf
    obtain ⟨m, _, rfl⟩ := List.mem_map.mp (List.mem_filter.mp hf).1
    rfl
  obtain ⟨hdefined, hadd⟩ := entries_addDocument d
  have hentries : (ds.addDocument d).entries.filter (·.1 = n) = ds.entries.filter (·.1 = n) := by
    rw [hadd]
    exact Entries.filter_name_putAll (hdefined ▸ hn)
  have hlookup := lookup_addDocument ds d o.checkReferences
  rw [generate, generate, hordered, hordered, List.filter_append, List.filter_append,
    List.filter_append, repeats_addDocument hn, hrepeats, filter_subject_flatMap,
    filter_subject_flatMap, hentries, List.filter_flatMap]
  congr 2
  funext e
  exact hlookup.definitionFindings e

end Definitions

/-- A further document puts its declarations in the places of those that it
replaces, and its new ones behind. Nothing else changes, but that the references
to a name which it defines are no longer found wanting. -/
theorem generate_overlay (docs : List Schema.Document) (d : Schema.Document) (o : Options)
    (hs : o.sort = false) :
    (generate [d] o).blocks.map Block.name = d.defined ∧
    (generate (docs ++ [d]) o).blocks =
      (generate docs o).blocks.map (Block.under (generate [d] o).blocks) ++
        (generate [d] o).blocks.filter
          (fun b => b.name ∉ (generate docs o).blocks.map Block.name) ∧
    ∀ n ∉ d.defined,
      (generate (docs ++ [d]) o).blocks.filter (·.name = n) =
        (generate docs o).blocks.filter (·.name = n) ∧
      (generate (docs ++ [d]) o).findings.filter (·.subject = n) =
        ((generate docs o).findings.filter (·.subject = n)).filter (!·.awaits d.defined) := by
  obtain ⟨hdefined, hadd⟩ := Definitions.entries_addDocument d
  let ds := Definitions.ofDocuments docs
  let own := Definitions.ofDocuments [d]
  have hall : generate (docs ++ [d]) o = (ds.addDocument d).generate o := by
    rw [generate, Definitions.ofDocuments_append]
    rfl
  have hblocks : (generate docs o).blocks = ds.entries.map (Definition.block o.marker) :=
    Definitions.blocks_of_unsorted ds hs
  have hown : (generate [d] o).blocks = own.entries.map (Definition.block o.marker) :=
    Definitions.blocks_of_unsorted own hs
  have hover : (generate (docs ++ [d]) o).blocks =
      (Entries.putAll ds.entries own.entries).map (Definition.block o.marker) := by
    rw [hall, Definitions.blocks_of_unsorted _ hs, hadd]
  refine ⟨?_, ?_, ?_⟩
  · rw [← hdefined, hown, List.map_map]
    rfl
  · rw [hover, Entries.putAll_eq_overlay ds.distinct own.distinct, List.map_append, List.map_map,
      hblocks, hown, List.map_map, List.filter_map, List.map_map]
    congr 1
    apply List.map_congr_left
    intro e _
    exact (under_block o.marker own.entries e).symm
  · intro n hn
    rw [hall]
    refine ⟨?_, Definitions.filter_subject_addDocument o hs hn⟩
    rw [← hall, hover, hblocks, List.filter_map, List.filter_map]
    exact congrArg _ (Entries.filter_name_putAll (hdefined ▸ hn))

/-- One name that was waited for is defined, another one is not, and a third is replaced. -/
theorem generate_overlay_pets :
    let reference (pointer : String) : Schema.Node := .schema { ref := some pointer }
    let pet : Schema.Definition :=
      { properties := some [("owner", reference "#/definitions/Owner"), ("kind", reference "Kind")] }
    let tag : Schema.Definition := { properties := some [("id", .bool true)] }
    let docs : List Schema.Document := [{ definitions := some (.ofList [("Pet", pet), ("Tag", {})]) }]
    let d : Schema.Document := { definitions := some (.ofList [("Owner", {}), ("Tag", tag)]) }
    ({} : Options).sort = false ∧ "Pet" ∉ d.defined ∧
    (generate (docs ++ [d]) {}).blocks.map Block.code =
      ["export interface Pet \x7b\n  owner?: Owner;\n  kind?: Kind;\n\x7d",
       "export interface Tag \x7b\n  id?: any;\n\x7d", "export interface Owner \x7b\x7d"] ∧
    (generate docs {}).findings =
      [.unresolvedReference "Pet" "owner" "Owner", .unresolvedReference "Pet" "kind" "Kind"] ∧
    (generate (docs ++ [d]) {}).findings.filter (·.subject = "Pet") =
      [.unresolvedReference "Pet" "kind" "Kind"] := by
  intro reference pet tag docs d
  have hpet : "Pet" ∉ d.defined := by decide
  obtain ⟨_, hblocks, hothers⟩ := generate_overlay docs d {} rfl
  refine ⟨rfl, hpet, ?_, by decide, ?_⟩
  · rw [hblocks]
    decide
  · rw [(hothers "Pet" hpet).2]
    decide

end SchemaTypes
