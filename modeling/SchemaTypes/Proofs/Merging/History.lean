import Mathlib.Data.List.Count
import SchemaTypes.Merging
import SchemaTypes.Proofs.Entries.History

/-!
# Merging histories

A document as it is written, its definitions one by one, and what is left of
several of them: every name in the place where it first came, with the definition
that came last, and a note for each time that it came again, in the same document
or in a later one.
-/

set_option autoImplicit false

namespace SchemaTypes

open Entries (names putAll mapValues repeatedFrom Collects)

namespace Schema

namespace Catalogue

theorem repeats_insert (c : Catalogue) (n : String) (d : Definition) :
    (c.insert n d).repeats = if n ∈ c.names then c.repeats ++ [n] else c.repeats := by
  by_cases hn : n ∈ c.names
  · have hhas : c.has n = true := by simpa [has, Entries.has, Catalogue.names] using hn
    rw [if_pos hn]
    exact if_pos hhas
  · have hhas : ¬c.has n = true := by simpa [has, Entries.has, Catalogue.names] using hn
    rw [if_neg hn]
    exact if_neg hhas

theorem insertAll_spec (c : Catalogue) (ds : List (String × Definition)) :
    (c.insertAll ds).entries = putAll c.entries ds ∧
      (c.insertAll ds).repeats = c.repeats ++ repeatedFrom c.names (Entries.names ds) := by
  induction ds generalizing c with
  | nil => exact ⟨rfl, by simp [insertAll, repeatedFrom]⟩
  | cons d ds ih =>
    obtain ⟨hentries, hrepeats⟩ := ih (c.insert d.1 d.2)
    constructor
    · exact hentries
    · rw [insertAll, hrepeats, repeats_insert, names_insert, Entries.note_repeatedFrom,
        Entries.names_cons]

theorem entries_ofList (ds : List (String × Definition)) :
    (ofList ds).entries = Entries.ofList ds :=
  (insertAll_spec empty ds).1

theorem repeats_ofList (ds : List (String × Definition)) :
    (ofList ds).repeats = repeatedFrom [] (Entries.names ds) :=
  (insertAll_spec empty ds).2

theorem eq_of_fields {c d : Catalogue} (he : c.entries = d.entries) (hr : c.repeats = d.repeats) :
    c = d := by
  obtain ⟨entries, repeats, _, _⟩ := c
  obtain ⟨entries', repeats', _, _⟩ := d
  simp only at he hr
  subst he hr
  rfl

/-- Every catalogue is what some definitions leave: its own, and then those of the
names that it notes once more. -/
theorem exists_ofList (c : Catalogue) : ∃ ds, ofList ds = c := by
  -- put in once more with the definition that it has, a name is noted and nothing else changes
  let again : List (String × Definition) := c.repeats.map fun n => (n, (c.get? n).getD {})
  have hagain : Entries.names again = c.repeats := by
    simp [again, Entries.names, Function.comp_def]
  have hvalues : ∀ e ∈ again, Entries.get? c.entries e.1 = some e.2 := by
    intro e he
    obtain ⟨n, hn, rfl⟩ := List.mem_map.mp he
    cases hd : Entries.get? c.entries n with
    | none => exact absurd (c.known n hn) (Entries.get?_eq_none_iff.mp hd)
    | some d => simp [get?, hd]
  have hentries : (ofList c.entries).entries = c.entries := by
    rw [entries_ofList]
    exact Entries.putAll_of_nodup c.distinct
  have hrepeats : (ofList c.entries).repeats = [] := by
    rw [repeats_ofList, Entries.repeatedFrom_of_nodup [] c.distinct]
    simp
  obtain ⟨hfirst, hsecond⟩ := insertAll_spec (ofList c.entries) again
  refine ⟨c.entries ++ again, ?_⟩
  rw [ofList, insertAll_append, ← ofList]
  apply eq_of_fields
  · rw [hfirst, hentries, Entries.putAll_of_get? hvalues]
  · have hseen : ∀ n ∈ c.repeats, n ∈ (ofList c.entries).names := by
      intro n hn
      rw [Catalogue.names, hentries]
      exact c.known n hn
    rw [hsecond, hrepeats, hagain, Entries.repeatedFrom_of_seen hseen, List.nil_append]

theorem exists_map_ofList (c : Option Catalogue) :
    ∃ ds : Option (List (String × Definition)), ds.map ofList = c := by
  cases c with
  | none => exact ⟨none, rfl⟩
  | some c =>
    obtain ⟨ds, rfl⟩ := exists_ofList c
    exact ⟨some ds, rfl⟩

end Catalogue

theorem Document.catalogue?_of_definitions {d : Document} {c : Catalogue}
    (h : d.definitions = some c) (hc : c.entries ≠ []) : d.catalogue? = some c := by
  obtain ⟨entries, repeats, distinct, known⟩ := c
  cases entries with
  | nil => exact absurd rfl hc
  | cons e es => rw [catalogue?, h]

theorem Document.catalogue?_of_empty {d : Document} (h : ∀ c ∈ d.definitions, c.entries = []) :
    d.catalogue? = d.components.bind Components.schemas := by
  unfold catalogue?
  split
  · rename_i hd
    cases h _ hd
  · rfl

/-- A document whose definitions are still in the order in which they are written,
with every name that comes again. -/
structure Draft where
  swagger : Option String := none
  openapi : Option String := none
  definitions : Option (List (String × Definition)) := none
  components : Option (Option (List (String × Definition))) := none

namespace Draft

def document (d : Draft) : Document :=
  { swagger := d.swagger
    openapi := d.openapi
    definitions := d.definitions.map Catalogue.ofList
    components := d.components.map fun c => { schemas := c.map Catalogue.ofList } }

/-- The definitions that count: those of Swagger if there are any, and else those
of OpenAPI. -/
def selected (d : Draft) : List (String × Definition) :=
  match d.definitions with
  | some (e :: es) => e :: es
  | _ => (d.components.bind id).getD []

theorem entries_ofList_eq_nil_iff {es : List (String × Definition)} :
    (Catalogue.ofList es).entries = [] ↔ es = [] := by
  rw [Catalogue.entries_ofList]
  constructor
  · intro h
    cases es with
    | nil => rfl
    | cons e es =>
      have he : e.1 ∈ Entries.names (Entries.ofList (e :: es)) :=
        (Collects.ofList (e :: es)).mem_names.mpr (by simp)
      rw [h] at he
      cases he
  · rintro rfl
    rfl

/-- A document without definitions counts as one whose definitions are empty. -/
theorem catalogue?_document (d : Draft) :
    d.document.catalogue? = some (.ofList d.selected) ∨
      d.document.catalogue? = none ∧ d.selected = [] := by
  by_cases hd : ∃ e es, d.definitions = some (e :: es)
  · obtain ⟨e, es, hd⟩ := hd
    have hselected : d.selected = e :: es := by rw [selected, hd]
    have hcatalogue : d.document.definitions = some (.ofList (e :: es)) := by
      rw [document, hd, Option.map_some]
    rw [hselected]
    exact Or.inl (Document.catalogue?_of_definitions hcatalogue (by
      rw [ne_eq, entries_ofList_eq_nil_iff]
      exact List.cons_ne_nil e es))
  · have hselected : d.selected = (d.components.bind id).getD [] := by
      unfold selected
      split
      · rename_i e es h
        exact absurd ⟨e, es, h⟩ hd
      · rfl
    have hempty : ∀ c ∈ d.document.definitions, c.entries = [] := by
      intro c hc
      obtain ⟨es, hes, rfl⟩ := Option.map_eq_some_iff.mp hc
      cases es with
      | nil => rfl
      | cons e es => exact absurd ⟨e, es, hes⟩ hd
    have hcomponents : d.document.components.bind Components.schemas =
        (d.components.bind id).map .ofList := by
      unfold document
      cases d.components <;> rfl
    rw [Document.catalogue?_of_empty hempty, hcomponents, hselected]
    cases d.components.bind id with
    | none => exact Or.inr ⟨rfl, rfl⟩
    | some es => exact Or.inl rfl

theorem exists_document (d : Document) : ∃ w : Draft, w.document = d := by
  obtain ⟨swagger, openapi, definitions, components⟩ := d
  obtain ⟨ds, rfl⟩ := Catalogue.exists_map_ofList definitions
  cases components with
  | none => exact ⟨{ swagger, openapi, definitions := ds }, rfl⟩
  | some c =>
    obtain ⟨es, hes⟩ := Catalogue.exists_map_ofList c.schemas
    refine ⟨{ swagger, openapi, definitions := ds, components := some es }, ?_⟩
    rw [document, Option.map_some, hes]

theorem exists_documents (docs : List Document) : ∃ drafts : List Draft,
    drafts.map document = docs := by
  induction docs with
  | nil => exact ⟨[], rfl⟩
  | cons d docs ih =>
    obtain ⟨w, rfl⟩ := exists_document d
    obtain ⟨drafts, rfl⟩ := ih
    exact ⟨w :: drafts, rfl⟩

end Draft

end Schema

/-- The names that are noted, document by document: first those that a document
repeats itself, then, in the order of its definitions, those that an earlier one has. -/
def notedFrom (earlier : List String) : List (List String) → List String
  | [] => []
  | ns :: rest =>
    repeatedFrom [] ns ++ (ns.eraseDups.filter fun n => earlier.contains n) ++
      notedFrom (earlier ++ ns) rest

theorem notedFrom_concat (earlier : List String) (nss : List (List String)) (ns : List String) :
    notedFrom earlier (nss ++ [ns]) = notedFrom earlier nss ++
      (repeatedFrom [] ns ++ ns.eraseDups.filter fun n => (earlier ++ nss.flatten).contains n) := by
  induction nss generalizing earlier with
  | nil => simp [notedFrom]
  | cons ms nss ih =>
    rw [List.cons_append, notedFrom, ih, notedFrom, List.flatten_cons]
    simp only [List.append_assoc]

theorem count_notedFrom (earlier : List String) (nss : List (List String)) (n : String) :
    (notedFrom earlier nss).count n + (if n ∈ earlier ++ nss.flatten then 1 else 0) =
      nss.flatten.count n + if n ∈ earlier then 1 else 0 := by
  induction nss generalizing earlier with
  | nil => simp [notedFrom]
  | cons ns nss ih =>
    have hown := Entries.count_repeatedFrom [] ns n
    have hearlier : (ns.eraseDups.filter fun n => earlier.contains n).count n =
        if n ∈ ns ∧ n ∈ earlier then 1 else 0 := by
      have hdistinct : (ns.eraseDups.filter fun n => earlier.contains n).Nodup :=
        (nodup_eraseDups ns).filter _
      rw [hdistinct.count]
      simp
    have hrest := ih (earlier ++ ns)
    rw [List.append_assoc] at hrest
    rw [notedFrom, List.flatten_cons, List.count_append, List.count_append, List.count_append,
      hearlier]
    grind

theorem names_flatten {α : Type} (written : List (List (String × α))) :
    names written.flatten = (written.map names).flatten :=
  List.map_flatten

/-- Definitions as they are left by the definitions of several documents. -/
structure Definitions.Merges (ds : Definitions)
    (written : List (List (String × Schema.Definition))) : Prop where
  collected : Collects ds.entries (mapValues Schema.Definition.lowered written.flatten)
  noted : ds.duplicates = notedFrom [] (written.map names)

namespace Definitions

theorem foldl_define (ds : Definitions) (es : List (String × Schema.Definition)) :
    (es.foldl define ds).entries = putAll ds.entries (mapValues Schema.Definition.lowered es) ∧
      (es.foldl define ds).duplicates =
        ds.duplicates ++ repeatedFrom (names ds.entries) (names es) := by
  induction es generalizing ds with
  | nil => exact ⟨rfl, by simp [repeatedFrom]⟩
  | cons e es ih =>
    obtain ⟨hentries, hduplicates⟩ := ih (ds.define e)
    have hnames : names (ds.define e).entries =
        if e.1 ∈ names ds.entries then names ds.entries else names ds.entries ++ [e.1] :=
      Entries.names_put ds.entries e.1 e.2.lowered
    have hnoted : (ds.define e).duplicates =
        if e.1 ∈ names ds.entries then ds.duplicates ++ [e.1] else ds.duplicates := by
      simp [define, Entries.has]
    constructor
    · exact hentries
    · rw [List.foldl_cons, hduplicates, hnames, hnoted, Entries.note_repeatedFrom,
        Entries.names_cons]

theorem empty_merges : empty.Merges [] := ⟨.nil, rfl⟩

variable {ds : Definitions} {written : List (List (String × Schema.Definition))}

theorem Merges.mem_names (h : ds.Merges written) {n : String} :
    n ∈ names ds.entries ↔ n ∈ names written.flatten := by
  rw [h.collected.mem_names, Entries.names_mapValues]

theorem Merges.add (h : ds.Merges written) (es : List (String × Schema.Definition)) :
    (ds.add (.ofList es)).Merges (written ++ [es]) := by
  let c := Schema.Catalogue.ofList es
  have hes : Collects c.entries es := by
    rw [Schema.Catalogue.entries_ofList]
    exact Collects.ofList es
  obtain ⟨hentries, hduplicates⟩ :=
    foldl_define { ds with duplicates := ds.duplicates ++ c.repeats } c.entries
  constructor
  · have hdistinct : (names (mapValues Schema.Definition.lowered c.entries)).Nodup := by
      rw [Entries.names_mapValues]
      exact c.distinct
    have hall := h.collected.putAll_collected (hes.mapValues _) hdistinct
    rw [Definitions.add, hentries, List.flatten_append]
    simpa [mapValues] using hall
  · have hown : c.repeats = repeatedFrom [] (names es) := Schema.Catalogue.repeats_ofList es
    have hknown : ∀ n, (names ds.entries).contains n =
        (List.flatten (written.map names)).contains n := by
      intro n
      rw [Bool.eq_iff_iff, List.contains_iff_mem, List.contains_iff_mem, h.mem_names,
        names_flatten]
    rw [Definitions.add, hduplicates, h.noted, hown, Entries.repeatedFrom_of_nodup _ c.distinct,
      List.map_append, List.map_singleton, notedFrom_concat, hes.order, List.append_assoc]
    simp only [hknown, List.nil_append]

theorem addDocument_document (ds : Definitions) (d : Schema.Draft) :
    ds.addDocument d.document = ds.add (.ofList d.selected) := by
  unfold addDocument
  rcases d.catalogue?_document with h | ⟨h, hselected⟩
  · rw [h]
  · rw [h, hselected]
    simp [Definitions.add, Schema.Catalogue.ofList, Schema.Catalogue.insertAll,
      Schema.Catalogue.empty]

theorem Merges.foldl (h : ds.Merges written) (drafts : List Schema.Draft) :
    ((drafts.map Schema.Draft.document).foldl addDocument ds).Merges
      (written ++ drafts.map Schema.Draft.selected) := by
  induction drafts generalizing ds written with
  | nil => simpa using h
  | cons d drafts ih =>
    have hrest := ih (h.add d.selected)
    rw [List.append_assoc] at hrest
    rw [List.map_cons, List.foldl_cons, addDocument_document]
    exact hrest

theorem ofDocuments_merges (drafts : List Schema.Draft) :
    (ofDocuments (drafts.map Schema.Draft.document)).Merges (drafts.map Schema.Draft.selected) :=
  empty_merges.foldl drafts

theorem Merges.count_duplicates (h : ds.Merges written) (n : String) :
    ds.duplicates.count n = (names written.flatten).count n - 1 := by
  have hcount := count_notedFrom [] (written.map names) n
  rw [← h.noted, ← names_flatten, List.nil_append] at hcount
  by_cases hn : n ∈ names written.flatten
  · simp only [hn, List.not_mem_nil, if_true, if_false] at hcount
    omega
  · have hzero : (names written.flatten).count n = 0 := List.count_eq_zero.mpr hn
    simp only [hn, List.not_mem_nil, if_false] at hcount
    omega

theorem Merges.mem_of_duplicate (h : ds.Merges written) {n : String} (hn : n ∈ ds.duplicates) :
    n ∈ names ds.entries := by
  have hcount := h.count_duplicates n
  have hpos : 0 < ds.duplicates.count n := List.count_pos_iff.mpr hn
  rw [h.mem_names]
  exact List.count_pos_iff.mp (by omega)

theorem duplicateDefinition_not_mem (l : Lookup) (d : String × Definition) (n : String) :
    .duplicateDefinition n ∉ definitionFindings l d := by
  intro hn
  rw [definitionFindings, List.mem_append, List.mem_flatMap] at hn
  rcases hn with hn | ⟨e, _, hn⟩
  · unfold nameFindings at hn
    split at hn <;> simp at hn
  · rw [propertyFindings, List.mem_append] at hn
    rcases hn with hn | hn
    · unfold keyFindings at hn
      split at hn <;> simp at hn
    · unfold referenceFindings at hn
      split at hn
      · cases hn
      · split at hn
        · simp at hn
        · split at hn <;> simp at hn

theorem count_duplicateDefinition (ds : Definitions) (o : Options) (n : String) :
    (ds.generate o).findings.count (.duplicateDefinition n) = ds.duplicates.count n := by
  have hothers : ((ds.ordered o.sort).flatMap
      (definitionFindings (ds.lookup o.checkReferences))).count (.duplicateDefinition n) = 0 := by
    rw [List.count_eq_zero, List.mem_flatMap]
    rintro ⟨d, _, hd⟩
    exact duplicateDefinition_not_mem _ d n hd
  have hinjective : Function.Injective Finding.duplicateDefinition := by
    intro a b hab
    exact Finding.duplicateDefinition.inj hab
  rw [generate, List.count_append, hothers, List.count_map_of_injective _ _ hinjective,
    Nat.add_zero]

end Definitions

/-- Documents are merged into what their definitions leave, however they are
written: each name has one declaration, and each time that it comes again is
noted and told once. -/
theorem generate_merges (docs : List Schema.Document) :
    (∃ drafts : List Schema.Draft, drafts.map Schema.Draft.document = docs) ∧
    ∀ drafts : List Schema.Draft, drafts.map Schema.Draft.document = docs →
      let written := drafts.map Schema.Draft.selected
      let ds := Definitions.ofDocuments docs
      ds.Merges written ∧
      (∀ n, ds.duplicates.count n = (names written.flatten).count n - 1) ∧
      (∀ n ∈ ds.duplicates, n ∈ names ds.entries) ∧
      ∀ o : Options,
        ((generate docs o).blocks.map Block.name).Perm (names written.flatten).eraseDups ∧
        ((generate docs o).blocks.map Block.name).Nodup ∧
        ∀ n, (Finding.duplicateDefinition n).severity = .warning ∧
          (generate docs o).findings.count (.duplicateDefinition n) =
            (names written.flatten).count n - 1 := by
  refine ⟨Schema.Draft.exists_documents docs, ?_⟩
  rintro drafts rfl
  have hmerges := Definitions.ofDocuments_merges drafts
  refine ⟨hmerges, hmerges.count_duplicates, fun n hn => hmerges.mem_of_duplicate hn, ?_⟩
  intro o
  let ds := Definitions.ofDocuments (drafts.map Schema.Draft.document)
  have hblocks : (ds.generate o).blocks.map Block.name = names (ds.ordered o.sort) :=
    ds.names_blocks o
  have horder : names ds.entries =
      (names (drafts.map Schema.Draft.selected).flatten).eraseDups := by
    rw [hmerges.collected.order, Entries.names_mapValues]
  refine ⟨?_, ?_, ?_⟩
  · rw [← horder, generate, hblocks]
    exact (ds.ordered_perm o.sort).map Prod.fst
  · rw [generate, hblocks]
    exact ds.nodup_names_ordered o.sort
  · intro n
    have htold := ds.count_duplicateDefinition o n
    rw [hmerges.count_duplicates] at htold
    exact ⟨rfl, htold⟩

theorem generate_merges_pets :
    let drafts : List Schema.Draft :=
      [{ definitions := some
           [("Pet", {}), ("Tag", {}), ("Pet", { required := some (.flag true) })] },
       { definitions := some []
         components := some (some [("Tag", {}), ("Toy", {}), ("Pet", {}), ("Tag", {})]) }]
    let docs := drafts.map Schema.Draft.document
    names (Definitions.ofDocuments docs).entries = ["Pet", "Tag", "Toy"] ∧
      (Definitions.ofDocuments docs).duplicates = ["Pet", "Tag", "Tag", "Pet"] ∧
      (generate docs {}).findings.count (.duplicateDefinition "Tag") = 2 := by
  intro drafts docs
  obtain ⟨hmerges, _, _, hgenerate⟩ := (generate_merges docs).2 drafts rfl
  obtain ⟨_, _, htold⟩ := hgenerate {}
  refine ⟨?_, ?_, ?_⟩
  · rw [hmerges.collected.order]
    decide
  · rw [hmerges.noted]
    decide
  · rw [(htold "Tag").2]
    decide

end SchemaTypes
