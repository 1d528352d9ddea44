import SchemaTypes.Proofs.Generation.Options
import SchemaTypes.Proofs.Merging.Overlay

/-!
# Documents without a common name

Documents of which no two define the same name do not touch each other's
definitions. Merged, their definitions stand one after the other, and sorted, it
makes no difference in which order the documents come.
-/

set_option autoImplicit false

namespace SchemaTypes

namespace Definitions

open Entries (names)

theorem addDocument_of_disjoint {ds : Definitions} {d : Schema.Document}
    (h : (names ds.entries).Disjoint d.defined) :
    (ds.addDocument d).entries = ds.entries ++ (ofDocuments [d]).entries ∧
      (ds.addDocument d).duplicates = ds.duplicates ++ (ofDocuments [d]).duplicates := by
  obtain ⟨hdefined, hadd⟩ := entries_addDocument d
  constructor
  · have hnames : names (ds.entries ++ (ofDocuments [d]).entries) =
        names ds.entries ++ d.defined := by
      rw [← hdefined]
      exact List.map_append
    rw [hadd]
    apply Entries.putAll_of_nodup
    rw [hnames, List.nodup_append']
    exact ⟨ds.distinct, hdefined ▸ (ofDocuments [d]).distinct, h⟩
  · have hsingle : ofDocuments [d] = empty.addDocument d := rfl
    rw [Schema.Document.defined] at h
    rw [hsingle, addDocument, addDocument]
    cases hc : d.catalogue? with
    | none => exact (List.append_nil _).symm
    | some c =>
      rw [hc, Option.map_some, Option.getD_some] at h
      have hadded (es : Definitions) (hes : (names es.entries).Disjoint c.names) :
          (es.add c).duplicates = es.duplicates ++ c.repeats := by
        have hrepeated : Entries.repeatedFrom (names es.entries) (names c.entries) = [] := by
          rw [Entries.repeatedFrom_of_nodup _ c.distinct, List.filter_eq_nil_iff]
          intro n hn hseen
          exact hes (List.contains_iff_mem.mp hseen) hn
        rw [add, (foldl_define _ c.entries).2]
        exact (congrArg _ hrepeated).trans (List.append_nil _)
      dsimp only
      rw [hadded ds h, hadded empty (List.disjoint_nil_left _)]
      rfl

theorem ofDocuments_of_disjoint {docs : List Schema.Document}
    (h : docs.Pairwise fun d e => d.defined.Disjoint e.defined) :
    (ofDocuments docs).entries = docs.flatMap (fun d => (ofDocuments [d]).entries) ∧
      (ofDocuments docs).duplicates = docs.flatMap fun d => (ofDocuments [d]).duplicates := by
  induction docs using List.reverseRecOn with
  | nil => exact ⟨rfl, rfl⟩
  | append_singleton docs d ih =>
    rw [List.pairwise_append] at h
    obtain ⟨hentries, hduplicates⟩ := ih h.1
    have hdisjoint : (names (ofDocuments docs).entries).Disjoint d.defined := by
      intro n hn hd
      rw [hentries, names, List.mem_map] at hn
      obtain ⟨x, hx, rfl⟩ := hn
      obtain ⟨e, he, hxe⟩ := List.mem_flatMap.mp hx
      have hown : x.1 ∈ e.defined := by
        rw [← (entries_addDocument e).1]
        exact List.mem_map_of_mem hxe
      exact h.2.2 e he d (by simp) hown hd
    obtain ⟨hadd, hnoted⟩ := addDocument_of_disjoint hdisjoint
    have hfold : ofDocuments (docs ++ [d]) = (ofDocuments docs).addDocument d := by
      rw [ofDocuments_append]
      rfl
    rw [hfold, hadd, hnoted, hentries, hduplicates, List.flatMap_append, List.flatMap_append,
      List.flatMap_singleton, List.flatMap_singleton]
    exact ⟨rfl, rfl⟩

/-- Only the names that are defined matter to the findings, not their order. -/
theorem definitionFindings_of_perm {ds ds' : Definitions} (h : ds.entries.Perm ds'.entries)
    (checked : Bool) (e : String × Definition) :
    definitionFindings (ds.lookup checked) e = definitionFindings (ds'.lookup checked) e := by
  have hextends : (ds.lookup checked).Extends (ds'.lookup checked) [] := by
    refine ⟨rfl, fun n => ?_⟩
    have hnames : n ∈ names ds.entries ↔ n ∈ names ds'.entries := (h.map Prod.fst).mem_iff
    simpa [lookup] using hnames
  rw [hextends.definitionFindings, List.filter_eq_self]
  intro f _
  cases f <;> rfl

end Definitions

/-- Sorted, documents without a common name give the same in every order, but for the
order in which their repeats are told. -/
theorem generate_perm {docs docs' : List Schema.Document} (o : Options) (hs : o.sort = true)
    (hd : docs.Pairwise fun d e => d.defined.Disjoint e.defined) (h : docs.Perm docs') :
    (generate docs o).blocks = (generate docs' o).blocks ∧
    (generate docs o).findings.filter (!·.isRepeat) =
      (generate docs' o).findings.filter (!·.isRepeat) ∧
    ((generate docs o).findings.filter (·.isRepeat)).Perm
      ((generate docs' o).findings.filter (·.isRepeat)) := by
  let ds := Definitions.ofDocuments docs
  let ds' := Definitions.ofDocuments docs'
  have hd' : docs'.Pairwise fun d e => d.defined.Disjoint e.defined :=
    h.pairwise hd fun hde n hn hn' => hde hn' hn
  obtain ⟨hentries, hduplicates⟩ := Definitions.ofDocuments_of_disjoint hd
  obtain ⟨hentries', hduplicates'⟩ := Definitions.ofDocuments_of_disjoint hd'
  have hperm : ds.entries.Perm ds'.entries := by
    rw [hentries, hentries']
    exact h.flatMap_right _
  have hnoted : ds.duplicates.Perm ds'.duplicates := by
    rw [hduplicates, hduplicates']
    exact h.flatMap_right _
  have hordered : ds.ordered o.sort = ds'.ordered o.sort := by
    rw [Definitions.ordered, Definitions.ordered, hs, if_pos rfl, if_pos rfl]
    exact Entries.sorted_eq_of_perm hperm ds.distinct
  have htell : ds.tell o = ds'.tell o := by
    funext e
    rw [Definitions.tell, Definitions.tell, Definitions.definitionFindings_of_perm hperm]
  have htold := ds.tells o
  have htold' := ds'.tells o
  rw [generate, generate, htold.filter.1, htold.filter.2, htold'.filter.1, htold'.filter.2,
    htold.blocks, htold'.blocks, hordered, htell]
  exact ⟨rfl, rfl, hnoted.map _⟩

/-- Two documents that refer to each other, of which each repeats a name. -/
theorem generate_perm_pets :
    let reference (pointer : String) : Schema.Node := .schema { ref := some pointer }
    let pet : Schema.Definition :=
      { properties := some [("owner", reference "#/definitions/Owner")] }
    let owner : Schema.Definition :=
      { properties := some [("pet", reference "Pet"), ("toy", reference "Toy")] }
    let d : Schema.Document :=
      { definitions := some (.ofList [("Tag", {}), ("Pet", pet), ("Tag", {})]) }
    let e : Schema.Document :=
      { components := some { schemas := some (.ofList [("Owner", owner), ("Owner", owner)]) } }
    let o : Options := { sort := true }
    o.sort = true ∧ [d, e].Pairwise (fun d e => d.defined.Disjoint e.defined) ∧
    [d, e].Perm [e, d] ∧
    (generate [d, e] o).blocks = (generate [e, d] o).blocks ∧
    (generate [d, e] o).findings.filter (!·.isRepeat) =
      [.unresolvedReference "Owner" "toy" "Toy"] ∧
    (generate [e, d] o).findings.filter (·.isRepeat) =
      [.duplicateDefinition "Owner", .duplicateDefinition "Tag"] := by
  intro reference pet owner d e o
  have hdisjoint : [d, e].Pairwise (fun d e => d.defined.Disjoint e.defined) := by
    have hdefined : d.defined = ["Tag", "Pet"] := by decide
    have hdefined' : e.defined = ["Owner"] := by decide
    rw [List.pairwise_pair, hdefined, hdefined']
    simp
  have hperm : [d, e].Perm [e, d] := List.Perm.swap e d []
  obtain ⟨hblocks, hfindings, _⟩ := generate_perm o rfl hdisjoint hperm
  let ds := Definitions.ofDocuments [e, d]
  obtain ⟨hrepeats, htold⟩ := (ds.tells o).filter
  have hduplicates : ds.duplicates = ["Owner", "Tag"] := by decide
  -- Only one definition has anything to tell, so its place in the order does not matter.
  have hentries : (ds.entries.map (ds.tell o)).flatMap Told.findings =
      [.unresolvedReference "Owner" "toy" "Toy"] := by decide
  have hordered := ((ds.ordered_perm o.sort).map (ds.tell o)).flatMap_right Told.findings
  rw [hentries] at hordered
  rw [hduplicates] at hrepeats
  exact ⟨rfl, hdisjoint, hperm, hblocks,
    hfindings.trans (htold.trans (List.perm_singleton.mp hordered)), hrepeats⟩

end SchemaTypes
