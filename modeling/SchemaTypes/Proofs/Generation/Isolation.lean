import SchemaTypes.Proofs.Finding.Subject
import SchemaTypes.Proofs.Generation.Closed
import SchemaTypes.Proofs.Schema.Replacement

/-!
# Faults stay where they are

Whatever is put in the place of a property or of a definition, the document can
still be read, and everything else is generated as before. A fault in a document
is never more than a fault in one place.
-/

set_option autoImplicit false

namespace SchemaTypes

open Entries (names)
open TypeScript (Interface Member)

structure Definition.AlikeBut (p : String) (d d' : Definition) : Prop where
  required : d.required = d'.required
  properties : Entries.Alike (fun q a b => q ≠ p → a = b) d.properties d'.properties

theorem alikeBut_lowered {p : String} {d d' : Schema.Definition}
    (h : Schema.Definition.AlikeBut p d d') : Definition.AlikeBut p d.lowered d'.lowered := by
  refine ⟨?_, ?_⟩
  · rw [Schema.Definition.lowered, Schema.Definition.lowered, h.required]
  · apply Entries.Alike.ofList
    apply Entries.Alike.mapValues (R := fun q a b => q ≠ p → a = b)
    · have hproperties := h.properties
      generalize d.properties = ns, d'.properties = ns' at hproperties ⊢
      cases hproperties with
      | none => exact .nil
      | some hns => exact hns
    · intro q a b hab hq
      rw [hab hq]

theorem Definition.AlikeBut.refl (p : String) (d : Definition) : Definition.AlikeBut p d d :=
  ⟨rfl, Entries.Alike.refl (fun _ _ _ => rfl) d.properties⟩

/-- Interfaces that differ in one member, which has its key and its mark in both. -/
structure Interface.AlikeBut (p : String) (i i' : Interface) : Prop where
  name : i.name = i'.name
  keys : i.members.map (fun m => (m.name, m.optional)) =
    i'.members.map fun m => (m.name, m.optional)
  others : i.members.filter (·.name ≠ p) = i'.members.filter (·.name ≠ p)

theorem Definition.AlikeBut.interface {p : String} {d d' : Definition}
    (h : Definition.AlikeBut p d d') (marker : Marker) (name : String) :
    Interface.AlikeBut p (d.interface marker name) (d'.interface marker name) := by
  have hrequired (q : String) : d.isRequired q = d'.isRequired q := by
    rw [Definition.isRequired, Definition.isRequired, h.required]
  have hproperties := h.properties
  refine ⟨rfl, ?_, ?_⟩
  · rw [Definition.interface, Definition.interface]
    generalize d.properties = es, d'.properties = fs at hproperties ⊢
    induction hproperties with
    | nil => rfl
    | @cons e f es fs he _ ih =>
      have hhead : (d.member marker e).name = (d'.member marker f).name := he.1
      have hmark : (d.member marker e).optional = (d'.member marker f).optional := by
        rw [Definition.member, Definition.member, hrequired, he.1]
      rw [List.map_cons, List.map_cons, List.map_cons, List.map_cons, ih, hhead, hmark]
  · have hsame : d.properties.filter (·.1 ≠ p) = d'.properties.filter (·.1 ≠ p) :=
      h.properties.filter_ne fun _ _ _ hab => hab
    have hmembers : d.member marker = d'.member marker := by
      funext e
      rw [Definition.member, Definition.member, hrequired]
    rw [Definition.interface, Definition.interface, List.filter_map, List.filter_map, hmembers]
    exact congrArg _ hsame

def Finding.isAbout (n p : String) (f : Finding) : Bool :=
  f.subject = n ∧ f.property? = some p

theorem Definition.AlikeBut.findings {p : String} {d d' : Definition}
    (h : Definition.AlikeBut p d d') (l : Lookup) (n : String) :
    (definitionFindings l (n, d)).filter (!·.isAbout n p) =
      (definitionFindings l (n, d')).filter (!·.isAbout n p) := by
  rw [definitionFindings, definitionFindings, List.filter_append, List.filter_append]
  congr 1
  have hproperties := h.properties
  generalize d.properties = es, d'.properties = fs at hproperties ⊢
  induction hproperties with
  | nil => rfl
  | @cons e e' es fs he _ ih =>
    obtain ⟨q, a⟩ := e
    obtain ⟨q', b⟩ := e'
    obtain ⟨rfl, hab⟩ : q = q' ∧ (q ≠ p → a = b) := he
    rw [List.flatMap_cons, List.flatMap_cons, List.filter_append, List.filter_append, ih]
    congr 1
    by_cases hq : q = p
    · have hnone (c : Property) : (propertyFindings l n (q, c)).filter (!·.isAbout n p) = [] := by
        rw [List.filter_eq_nil_iff]
        intro f hf
        obtain ⟨hsubject, hproperty⟩ := subject_of_mem_propertyFindings hf
        simp [Finding.isAbout, hsubject, hproperty, hq]
      rw [hnone, hnone]
    · rw [hab hq]

namespace Definitions

variable {U : String → Schema.Definition → Schema.Definition → Prop}
  {V : String → Definition → Definition → Prop} {ds ds' : Definitions}

/-- Definitions of the same names in the same order, with the same repeats. -/
structure Alike (V : String → Definition → Definition → Prop) (ds ds' : Definitions) : Prop where
  entries : Entries.Alike V ds.entries ds'.entries
  duplicates : ds.duplicates = ds'.duplicates

theorem Alike.add (h : Alike V ds ds') (hUV : ∀ n d d', U n d d' → V n d.lowered d'.lowered)
    {c c' : Schema.Catalogue} (hc : Schema.Catalogue.Alike U c c') :
    Alike V (ds.add c) (ds'.add c') := by
  obtain ⟨hentries, hduplicates⟩ :=
    foldl_define { ds with duplicates := ds.duplicates ++ c.repeats } c.entries
  obtain ⟨hentries', hduplicates'⟩ :=
    foldl_define { ds' with duplicates := ds'.duplicates ++ c'.repeats } c'.entries
  constructor
  · rw [Definitions.add, Definitions.add, hentries, hentries']
    exact h.entries.putAll (hc.entries.mapValues hUV)
  · rw [Definitions.add, Definitions.add, hduplicates, hduplicates', h.duplicates, hc.repeats,
      h.entries.names_eq, hc.entries.names_eq]

theorem Alike.addDocument (h : Alike V ds ds')
    (hUV : ∀ n d d', U n d d' → V n d.lowered d'.lowered) {d d' : Schema.Document}
    (hd : Schema.Document.Alike U d d') : Alike V (ds.addDocument d) (ds'.addDocument d') := by
  have hcatalogue := hd.catalogue?
  rw [Definitions.addDocument, Definitions.addDocument]
  generalize d.catalogue? = c, d'.catalogue? = c' at hcatalogue ⊢
  cases hcatalogue with
  | none => exact h
  | some hc => exact h.add hUV hc

theorem Alike.refl (hV : ∀ n d, V n d d) (ds : Definitions) : Alike V ds ds :=
  ⟨Entries.Alike.refl hV ds.entries, rfl⟩

/-- One document in the place of another, among any others. -/
theorem alike_ofDocuments (hU : ∀ n d, U n d d) (hV : ∀ n d, V n d d)
    (hUV : ∀ n d d', U n d d' → V n d.lowered d'.lowered) {d d' : Schema.Document}
    (hd : Schema.Document.Alike U d d') (before after : List Schema.Document) :
    Alike V (ofDocuments (before ++ d :: after)) (ofDocuments (before ++ d' :: after)) := by
  have hfold (docs : List Schema.Document) {ds ds' : Definitions} (h : Alike V ds ds') :
      Alike V (docs.foldl addDocument ds) (docs.foldl addDocument ds') := by
    induction docs generalizing ds ds' with
    | nil => exact h
    | cons e docs ih => exact ih (h.addDocument hUV (Schema.Document.Alike.refl hU e))
  rw [ofDocuments_append, ofDocuments_append]
  exact hfold after ((Alike.refl hV _).addDocument hUV hd)

section Alike

variable (h : Alike V ds ds') (o : Options)

include h

theorem Alike.ordered : Entries.Alike V (ds.ordered o.sort) (ds'.ordered o.sort) := by
  unfold Definitions.ordered
  split
  · exact h.entries.sorted
  · exact h.entries

theorem Alike.lookup : ds.lookup o.checkReferences = ds'.lookup o.checkReferences := by
  rw [Definitions.lookup, Definitions.lookup, h.entries.names_eq]

theorem Alike.names_blocks :
    (ds'.generate o).blocks.map Block.name = (ds.generate o).blocks.map Block.name := by
  rw [Definitions.names_blocks, Definitions.names_blocks, (h.ordered o).names_eq]

theorem Alike.blocks_ne {n : String} (hV : ∀ m d d', V m d d' → m ≠ n → d = d') :
    (ds'.generate o).blocks.filter (·.name ≠ n) = (ds.generate o).blocks.filter (·.name ≠ n) := by
  rw [generate, generate, List.filter_map, List.filter_map]
  exact congrArg _ ((h.ordered o).filter_ne hV).symm

/-- Findings that are the same for definitions that are alike are the same for all. -/
theorem Alike.findings {keep : Finding → Bool}
    (hkeep : ∀ l n d d', V n d d' →
      (definitionFindings l (n, d)).filter keep = (definitionFindings l (n, d')).filter keep) :
    (ds'.generate o).findings.filter keep = (ds.generate o).findings.filter keep := by
  rw [generate, generate, List.filter_append, List.filter_append, h.duplicates, h.lookup o]
  congr 1
  have hordered := h.ordered o
  generalize ds.ordered o.sort = es, ds'.ordered o.sort = fs at hordered ⊢
  induction hordered with
  | nil => rfl
  | @cons e f es fs he _ ih =>
    obtain ⟨n, d⟩ := e
    obtain ⟨n', d'⟩ := f
    obtain ⟨rfl, hd⟩ : n = n' ∧ V n d d' := he
    rw [List.flatMap_cons, List.flatMap_cons, List.filter_append, List.filter_append, ih,
      hkeep _ n d d' hd]

end Alike

end Definitions

/-- Two runs that declare the same names in the same order, and differ at most in
the declaration of one of them and in their own findings. -/
structure Generation.SameBut (n : String) (own : Finding → Bool) (g g' : Generation) : Prop where
  names : g'.blocks.map Block.name = g.blocks.map Block.name
  blocks : g'.blocks.filter (·.name ≠ n) = g.blocks.filter (·.name ≠ n)
  findings : g'.findings.filter (!own ·) = g.findings.filter (!own ·)

namespace Definitions

variable {n p : String} {ds ds' : Definitions}

theorem Alike.sameBut_property
    (h : Alike (fun m d d' => (m ≠ n → d = d') ∧ Definition.AlikeBut p d d') ds ds') (o : Options) :
    (ds.generate o).SameBut n (·.isAbout n p) (ds'.generate o) ∧
      List.Forall₂ (fun i i' => Interface.AlikeBut p i i' ∧ (i.name ≠ n → i = i'))
        (ds.interfaces o) (ds'.interfaces o) := by
  refine ⟨⟨h.names_blocks o, h.blocks_ne o fun m d d' hd => hd.1, h.findings o ?_⟩, ?_⟩
  · intro l m d d' hd
    by_cases hm : m = n
    · rw [hm]
      exact hd.2.findings l n
    · rw [hd.1 hm]
  · rw [interfaces, interfaces, List.forall₂_map_left_iff, List.forall₂_map_right_iff]
    refine List.Forall₂.imp ?_ (h.ordered o)
    rintro ⟨m, d⟩ ⟨m', d'⟩ ⟨rfl, hd⟩
    exact ⟨hd.2.interface o.marker m, fun hm => by rw [hd.1 hm]⟩

theorem Alike.sameBut_definition (h : Alike (fun m d d' => m ≠ n → d = d') ds ds') (o : Options) :
    (ds.generate o).SameBut n (·.subject = n) (ds'.generate o) := by
  refine ⟨h.names_blocks o, h.blocks_ne o fun m d d' hd => hd, h.findings o ?_⟩
  intro l m d d' hd
  by_cases hm : m = n
  · have hnone (c : Definition) :
        (definitionFindings l (m, c)).filter (fun f => !decide (f.subject = n)) = [] := by
      rw [List.filter_eq_nil_iff]
      intro f hf
      simp [subject_of_mem_definitionFindings hf, hm]
    rw [hnone, hnone]
  · rw [hd hm]

end Definitions

/-- Whatever stands in the place of a property or of a definition, the document can
be read. All other declarations, all other members of the same declaration and all
findings about something else stay as they are. -/
theorem parse_isolates {text text' : String} {f f' : Json.Form} {n : String}
    {d : Schema.Document} (hf : Json.form? text = some f) (hf' : Json.form? text' = some f')
    (hd : Schema.Document.parse .json text = .ok d) :
    (∀ p, Json.Form.ReplacesProperty n p f f' →
      ∃ d', Schema.Document.parse .json text' = .ok d' ∧ ∀ before after o,
        (generate (before ++ d :: after) o).SameBut n (·.isAbout n p)
          (generate (before ++ d' :: after) o) ∧
        List.Forall₂ (fun i i' => Interface.AlikeBut p i i' ∧ (i.name ≠ n → i = i'))
          ((Definitions.ofDocuments (before ++ d :: after)).interfaces o)
          ((Definitions.ofDocuments (before ++ d' :: after)).interfaces o)) ∧
    (Json.Form.ReplacesDefinition n f f' →
      ∃ d', Schema.Document.parse .json text' = .ok d' ∧ ∀ before after o,
        (generate (before ++ d :: after) o).SameBut n (·.subject = n)
          (generate (before ++ d' :: after) o)) := by
  have hform : f.document? = some d := by
    have hparse := Json.toOption_parse text
    rw [hf, hd] at hparse
    exact hparse.symm
  have hparse' {d' : Schema.Document} (h : f'.document? = some d') :
      Schema.Document.parse .json text' = .ok d' := by
    have hparse := Json.toOption_parse text'
    rw [hf', Option.bind_some, h] at hparse
    cases hd' : Schema.Document.parse .json text' with
    | error e =>
      rw [hd'] at hparse
      cases hparse
    | ok e =>
      rw [hd'] at hparse
      cases hparse
      rfl
  constructor
  · intro p hreplaced
    obtain ⟨d', hd', halike⟩ := Json.Form.carries_replacesProperty n p hreplaced hform
    refine ⟨d', hparse' hd', fun before after o => ?_⟩
    apply Definitions.Alike.sameBut_property
    refine Definitions.alike_ofDocuments (fun _ _ => .inl rfl)
      (fun _ a => ⟨fun _ => rfl, .refl p a⟩) ?_ halike before after
    rintro m a b (rfl | ⟨rfl, hab⟩)
    · exact ⟨fun _ => rfl, .refl p _⟩
    · exact ⟨fun hm => absurd rfl hm, alikeBut_lowered hab⟩
  · intro hreplaced
    obtain ⟨d', hd', halike⟩ := Json.Form.carries_replacesDefinition n hreplaced hform
    refine ⟨d', hparse' hd', fun before after o => ?_⟩
    apply Definitions.Alike.sameBut_definition
    refine Definitions.alike_ofDocuments (fun _ _ => .inl rfl) (fun _ _ _ => rfl) ?_ halike
      before after
    rintro m a b (rfl | ⟨rfl, _⟩) hm
    · rfl
    · exact absurd rfl hm

/-- A number in the place of a schema. -/
theorem parse_isolates_pet :
    let text := "\x7b\x22definitions\x22:\x7b\x22Pet\x22:\x7b\x22properties\x22:" ++
      "\x7b\x22id\x22:\x7b\x7d,\x22tag\x22:true\x7d\x7d\x7d\x7d"
    let text' := "\x7b\x22definitions\x22:\x7b\x22Pet\x22:\x7b\x22properties\x22:" ++
      "\x7b\x22id\x22:5,\x22tag\x22:true\x7d\x7d\x7d\x7d"
    let pet (id : Json.Form) : Json.Form :=
      .object [(some "properties", .object [(some "id", id), (some "tag", .bool true)])]
    let form (id : Json.Form) : Json.Form :=
      .object [(some "definitions", .object [(some "Pet", pet id)])]
    let id : Json.Form := .object []
    let id' : Json.Form := .number (some (.int 5))
    Json.form? text = some (form id) ∧ Json.form? text' = some (form id') ∧
      Json.Form.ReplacesProperty "Pet" "id" (form id) (form id') ∧
      Json.Form.ReplacesDefinition "Pet" (form id) (form id') ∧
      ∃ d, Schema.Document.parse .json text = .ok d ∧
        (∃ d', Schema.Document.parse .json text' = .ok d' ∧
          (generate [d] {}).SameBut "Pet" (·.isAbout "Pet" "id") (generate [d'] {})) ∧
        ∃ d', Schema.Document.parse .json text' = .ok d' ∧
          (generate [d] {}).SameBut "Pet" (·.subject = "Pet") (generate [d'] {}) := by
  intro text text' pet form id id'
  have hf : Json.form? text = some (form id) := by decide +kernel
  have hf' : Json.form? text' = some (form id') := by decide +kernel
  have hid : (id'.value? 123).isSome := by rfl
  have hpet : ((pet id').value? 125).isSome := by rfl
  have hproperty : Json.Form.ReplacesProperty "Pet" "id" (form id) (form id') :=
    .inl (.entry (.here (.entry (.here (.entry (.here (.entry (.here hid))))))))
  have hdefinition : Json.Form.ReplacesDefinition "Pet" (form id) (form id') :=
    .inl (.entry (.here (.entry (.here hpet))))
  -- There is a document for any definition, since there is one for an empty definition.
  have hempty : Json.Form.document? (.object [(some "definitions",
      .object [(some "Pet", .object [])])]) =
        some { definitions := some (.ofList [("Pet", {})]) } := by rfl
  have hnew : ((pet id).value? 125).isSome := by rfl
  obtain ⟨d, hd, -⟩ := Json.Form.carries_replacesDefinition "Pet"
    (.inl (.entry (.here (.entry (.here hnew))))) hempty
  have hparse : (Schema.Document.parse .json text).toOption = some d := by
    rw [Json.toOption_parse, hf, Option.bind_some, hd]
  cases hok : Schema.Document.parse .json text with
  | error e =>
    rw [hok] at hparse
    cases hparse
  | ok d =>
    obtain ⟨hproperties, hdefinitions⟩ := parse_isolates (n := "Pet") hf hf' hok
    obtain ⟨d', hd', hsame⟩ := hproperties "id" hproperty
    obtain ⟨e', he', hsame'⟩ := hdefinitions hdefinition
    exact ⟨hf, hf', hproperty, hdefinition, d, rfl, ⟨d', hd', (hsame [] [] {}).1⟩,
      e', he', hsame' [] [] {}⟩

end SchemaTypes
