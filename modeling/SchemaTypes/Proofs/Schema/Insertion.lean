import SchemaTypes.Proofs.Merging.History
import SchemaTypes.Proofs.Schema.Acceptance

/-!
# Catalogues grow by insertion

A catalogue is what a history of insertions leaves, and the answers on the way say
which names it notes as repeats. It does not matter whether the definitions are
inserted one by one, come as a list or stand in the object of a document; and a
document with such a catalogue has its names and its repeats, unless it is empty and
gives way to the schemas among the components.
-/

set_option autoImplicit false

namespace SchemaTypes

open Entries (names mapValues Collects repeatedFrom)

namespace Schema

namespace Catalogue

theorem enterAll_eq_insertAll (c : Catalogue) (ds : List (String × Definition)) :
    (c.enterAll ds).2 = c.insertAll ds := by
  induction ds generalizing c with
  | nil => rfl
  | cons d ds ih => exact ih (c.insert d.1 d.2)

theorem has_iff (c : Catalogue) (n : String) : c.has n ↔ n ∈ c.names := by
  simp [has, Entries.has, Catalogue.names]

theorem mem_names_insertAll (c : Catalogue) (ds : List (String × Definition)) (n : String) :
    n ∈ (c.insertAll ds).names ↔ n ∈ c.names ∨ n ∈ Entries.names ds := by
  induction ds generalizing c with
  | nil => simp [insertAll]
  | cons d ds ih =>
    rw [insertAll, ih, Catalogue.names, insert, Entries.mem_names_put, or_assoc,
      Entries.names_cons, List.mem_cons]
    rfl

/-- Each insertion is answered by the catalogue that those before it have left. -/
theorem answer_enterAll (c : Catalogue) (before after : List (String × Definition)) (n : String)
    (d : Definition) :
    (c.enterAll (before ++ (n, d) :: after)).1[before.length]? =
      some ((c.insertAll before).has n) := by
  induction before generalizing c with
  | nil => rfl
  | cons e before ih => exact ih (c.insert e.1 e.2)

theorem length_answers (c : Catalogue) (ds : List (String × Definition)) :
    (c.enterAll ds).1.length = ds.length := by
  induction ds generalizing c with
  | nil => rfl
  | cons d ds ih => simp [enterAll_cons, ih]

/-- The names of a history that were there before, as the answers tell. -/
def told (ds : List (String × Definition)) (answers : List Bool) : List String :=
  (((Entries.names ds).zip answers).filter Prod.snd).map Prod.fst

theorem repeats_enterAll (c : Catalogue) (ds : List (String × Definition)) :
    (c.enterAll ds).2.repeats = c.repeats ++ told ds (c.enterAll ds).1 := by
  induction ds generalizing c with
  | nil => simp [enterAll, told]
  | cons d ds ih =>
    rw [enterAll_cons, ih, repeats_insert]
    by_cases hn : d.1 ∈ c.names
    · have hhas : c.has d.1 = true := (c.has_iff d.1).mpr hn
      simp [told, hn, hhas]
    · have hhas : c.has d.1 = false := Bool.eq_false_iff.mpr fun h => hn ((c.has_iff d.1).mp h)
      simp [told, hn, hhas]

theorem length_insert (c : Catalogue) (n : String) (d : Definition) :
    (c.insert n d).names.length + (c.insert n d).repeats.length =
      c.names.length + c.repeats.length + 1 := by
  rw [names_insert, repeats_insert]
  by_cases hn : n ∈ c.names
  · simp [hn, Nat.add_assoc]
  · simp [hn]
    omega

theorem length_insertAll (c : Catalogue) (ds : List (String × Definition)) :
    (c.insertAll ds).names.length + (c.insertAll ds).repeats.length =
      c.names.length + c.repeats.length + ds.length := by
  induction ds generalizing c with
  | nil => rfl
  | cons d ds ih =>
    rw [insertAll, ih, length_insert, List.length_cons]
    omega

end Catalogue

/-- The entries of an object are these definitions under these names, in this order. -/
def Writes (es : List (Key × Value)) (ds : List (String × Definition)) : Prop :=
  List.Forall₂ (fun e d => e.1 = .name d.1 ∧ Definition.tolerant? e.2 = some d.2) es ds

section Documents

variable {es : List (Key × Value)} {ds : List (String × Definition)}

theorem Writes.catalogueOfValue? (h : Writes es ds) :
    catalogueOfValue? (.object es) = some (.ofList ds) := by
  have hentries : catalogueEntries? es = some ds := by
    induction h with
    | nil => rfl
    | @cons e d es ds hhead _ ih =>
      obtain ⟨k, v⟩ := e
      obtain ⟨rfl, hv⟩ := hhead
      simp [catalogueEntries?, hv, ih]
  rw [Schema.catalogueOfValue?, hentries, Option.map_some]

theorem entry_of_entryValues? {entries : List (Option String × Json.Form)} {depth : Nat}
    {n : String} {v : Value} (h : Json.Form.entryValues? entries depth = some [(.name n, v)]) :
    ∃ f, entries = [(some n, f)] ∧ f.value? depth = some v := by
  match entries with
  | (some name, f) :: rest =>
    obtain ⟨w, ws, hw, hws, heq⟩ := Json.cons?_eq_some_iff.mp h
    obtain ⟨u, hu, rfl⟩ := Option.map_eq_some_iff.mp hw
    cases heq
    match rest with
    | [] => exact ⟨f, rfl, hu⟩
    | (some m, g) :: rest =>
      obtain ⟨x, xs, _, _, heq⟩ := Json.cons?_eq_some_iff.mp hws
      cases heq

theorem Writes.parse {text : String} (h : Writes es ds)
    (htext : Json.valueOf? text = some (.object [(.name "definitions", .object es)])) :
    Document.parse .json text = .ok { definitions := some (.ofList ds) } := by
  rw [Json.valueOf?_eq] at htext
  obtain ⟨f, hf, hvalue⟩ := Option.bind_eq_some_iff.mp htext
  obtain ⟨entries, k, rfl, hk, hentries⟩ := Json.Form.object_of_value? hvalue
  obtain rfl : 126 = k := Nat.succ.inj hk
  obtain ⟨g, rfl, hg⟩ := entry_of_entryValues? hentries
  obtain ⟨inner, k, rfl, hk, hinner⟩ := Json.Form.object_of_value? hg
  obtain rfl : 125 = k := Nat.succ.inj hk
  have hinside : (Json.Form.object inner).read? 126 Document.catalogueOutline =
      some (.object es) := by
    rw [Document.catalogueOutline, Json.Form.read?, Json.Form.readNames?_definition hinner]
    rfl
  have hread : (Json.Form.object [(some "definitions", .object inner)]).read? 127
      Document.outline = some (.object [(.name "definitions", .object es)]) := by
    rw [Document.outline, Json.Form.read?,
      Json.Form.readFields?_of_fresh (o := Document.catalogueOutline) rfl (by simp),
      Json.Form.field?, hinside]
    rfl
  have hdocument : Document.ofValue? (.object [(.name "definitions", .object es)]) =
      some { definitions := some (.ofList ds) } := by
    have hindex : fieldIndex? Document.fields (.name "definitions") = some 2 := by decide
    rw [Document.ofValue?, Document.ofEntries?_cons, Document.ofEntries?, Option.bind_some]
    have hcatalogue : optional Schema.catalogueOfValue? (.object es) =
        some (some (.ofList ds)) := by
      rw [optional_of_ne_null _ Value.noConfusion, h.catalogueOfValue?, Option.map_some]
    simp only [Document.put?, hindex, hcatalogue, Option.map_some]
  have hparse : (Document.parse .json text).toOption =
      some { definitions := some (.ofList ds) } := by
    rw [Json.toOption_parse, hf, Option.bind_some, ← hdocument]
    exact (congrArg (Option.bind · Document.ofValue?) hread)
  cases hresult : Document.parse .json text with
  | error e =>
    rw [hresult] at hparse
    cases hparse
  | ok d =>
    rw [hresult] at hparse
    exact congrArg Except.ok (Option.some.inj hparse)

end Documents

end Schema

namespace Definitions

theorem ofDocuments_singleton (d : Schema.Document) :
    (ofDocuments [d]).entries =
        mapValues Schema.Definition.lowered (d.catalogue?.getD .empty).entries ∧
      (ofDocuments [d]).duplicates = (d.catalogue?.getD .empty).repeats := by
  have hdocument : ofDocuments [d] = addDocument empty d := rfl
  rw [hdocument, addDocument]
  cases d.catalogue? with
  | none => exact ⟨rfl, rfl⟩
  | some c =>
    obtain ⟨hentries, hduplicates⟩ :=
      foldl_define { empty with duplicates := empty.duplicates ++ c.repeats } c.entries
    have hdistinct : (names (mapValues Schema.Definition.lowered c.entries)).Nodup := by
      rw [Entries.names_mapValues]
      exact c.distinct
    constructor
    · dsimp only [add]
      rw [hentries]
      exact Entries.putAll_of_nodup hdistinct
    · dsimp only [add]
      rw [hduplicates]
      have hnone : repeatedFrom [] (names c.entries) = [] := by
        rw [Entries.repeatedFrom_of_nodup [] c.distinct]
        simp
      exact (congrArg _ hnone).trans (by simp [empty])

end Definitions

namespace Schema

theorem Document.catalogue?_ofList (ds : List (String × Definition)) (d : Document) :
    ({ d with definitions := some (.ofList ds) } : Document).catalogue? =
      if ds = [] then d.components.bind Components.schemas else some (.ofList ds) := by
  split
  · rename_i hds
    subst hds
    exact catalogue?_of_empty fun c hc => by
      cases hc
      rfl
  · rename_i hds
    exact catalogue?_of_definitions rfl fun h => hds (Draft.entries_ofList_eq_nil_iff.mp h)

/-- What is left of a history of insertions, and how the answers on the way tell of it.
The same is left of a list and of an object in a document. -/
theorem insertion_history (ds : List (String × Definition)) :
    let answers := (Catalogue.empty.enterAll ds).1
    let c := (Catalogue.empty.enterAll ds).2
    c.names = (names ds).eraseDups ∧
      (∀ n, c.get? n = Entries.get? ds.reverse n) ∧
      answers.length = ds.length ∧
      (∀ before n d after, ds = before ++ (n, d) :: after →
        answers[before.length]? = some (decide (n ∈ names before))) ∧
      c.repeats = Catalogue.told ds answers ∧
      c.names.length + c.repeats.length = ds.length ∧
      Catalogue.ofList ds = c ∧
      (∀ es, Writes es ds → catalogueOfValue? (.object es) = some c ∧
        ∀ text, Json.valueOf? text = some (.object [(.name "definitions", .object es)]) →
          Document.parse .json text = .ok { definitions := some c }) ∧
      ∀ d : Document,
        let merged := Definitions.ofDocuments [{ d with definitions := some c }]
        let counted := if ds = [] then (d.components.bind Components.schemas).getD .empty else c
        names merged.entries = counted.names ∧ merged.duplicates = counted.repeats := by
  intro answers c
  have hc : c = .ofList ds := Catalogue.empty.enterAll_eq_insertAll ds
  have hcollects : Collects c.entries ds := by
    rw [hc, Catalogue.entries_ofList]
    exact .ofList ds
  refine ⟨hcollects.order, hcollects.last, Catalogue.empty.length_answers ds, ?_, ?_, ?_, hc.symm,
    ?_, ?_⟩
  · rintro before n d after rfl
    have hbefore : (Catalogue.empty.insertAll before).has n = decide (n ∈ names before) := by
      rw [Bool.eq_iff_iff, Catalogue.has_iff, Catalogue.mem_names_insertAll, decide_eq_true_iff]
      simp [Catalogue.empty, Catalogue.names]
    rw [← hbefore]
    exact Catalogue.empty.answer_enterAll before after n d
  · exact Catalogue.empty.repeats_enterAll ds
  · rw [hc]
    exact (Catalogue.empty.length_insertAll ds).trans (Nat.zero_add _)
  · intro es hes
    rw [hc]
    exact ⟨hes.catalogueOfValue?, fun text htext => hes.parse htext⟩
  · intro d merged counted
    obtain ⟨hentries, hduplicates⟩ :=
      Definitions.ofDocuments_singleton { d with definitions := some c }
    have hcounted : (({ d with definitions := some c } : Document).catalogue?.getD .empty) =
        counted := by
      rw [hc, Document.catalogue?_ofList]
      dsimp only [counted]
      split
      · rfl
      · rw [hc, Option.getD_some]
    rw [hcounted] at hentries hduplicates
    refine ⟨?_, hduplicates⟩
    rw [hentries, Entries.names_mapValues]
    rfl

/-- A name that comes again, and a definition that is a number. -/
theorem insertion_history_pets :
    let ds : List (String × Definition) :=
      [("Pet", {}), ("Tag", {}), ("Pet", { required := some (.flag true) })]
    let es : List (Key × Value) :=
      [(.name "Pet", .object []), (.name "Tag", .number (.int 5)),
        (.name "Pet", .object [(.name "required", .bool true)])]
    let text := "\x7b\x22definitions\x22:\x7b\x22Pet\x22:\x7b\x7d,\x22Tag\x22:5," ++
      "\x22Pet\x22:\x7b\x22required\x22:true\x7d\x7d\x7d"
    let c := (Catalogue.empty.enterAll ds).2
    let components : Components := { schemas := some (.ofList [("Toy", {})]) }
    Writes es ds ∧
      Json.valueOf? text = some (.object [(.name "definitions", .object es)]) ∧
      c.names = ["Pet", "Tag"] ∧ c.repeats = ["Pet"] ∧
      (Catalogue.empty.enterAll ds).1[2]? = some true ∧
      Document.parse .json text = .ok { definitions := some c } ∧
      names (Definitions.ofDocuments
        [{ definitions := some c, components := some components }]).entries = ["Pet", "Tag"] := by
  intro ds es text c components
  have hes : Writes es ds := .cons ⟨rfl, rfl⟩ (.cons ⟨rfl, rfl⟩ (.cons ⟨rfl, rfl⟩ .nil))
  have hform : Json.form? text = some (.object [(some "definitions", .object
      [(some "Pet", .object []), (some "Tag", .number (some (.int 5))),
        (some "Pet", .object [(some "required", .bool true)])])]) := by decide +kernel
  have htext : Json.valueOf? text = some (.object [(.name "definitions", .object es)]) :=
    Json.valueOf?_of_form hform rfl
  obtain ⟨horder, _, _, hanswers, hrepeats, _, _, hwritten, hmerged⟩ := insertion_history ds
  have hnames : c.names = ["Pet", "Tag"] := horder.trans (by decide)
  refine ⟨hes, htext, hnames, hrepeats.trans (by decide), ?_, (hwritten es hes).2 text htext, ?_⟩
  · exact hanswers [("Pet", {}), ("Tag", {})] "Pet" { required := some (.flag true) } [] rfl
  · exact (hmerged { components := some components }).1.trans hnames

/-- An empty catalogue gives way to the schemas among the components. -/
theorem names_of_empty_catalogue :
    ¬ ∀ (ds : List (String × Definition)) (d : Document),
      names (Definitions.ofDocuments [{ d with definitions := some (.ofList ds) }]).entries =
        (Catalogue.ofList ds).names := by
  intro h
  have hnames := h [] { components := some { schemas := some (.ofList [("Pet", {})]) } }
  exact absurd hnames (by decide)

end Schema

end SchemaTypes
