import SchemaTypes.Proofs.Schema.Definition
import SchemaTypes.Proofs.Schema.Insertion

/-!
# Members of a definition

From an object in the place of a definition to the members of its interface: a member
for each name among the properties, in the place where it first comes and with what is
said of it last. It is required if the object has a list in which its name is a text,
and nothing else that the object says counts.
-/

set_option autoImplicit false

namespace SchemaTypes

open Entries (names get? mapValues Alike Collects)

namespace Entries

variable {α β : Type}

theorem get?_of_once {es : List (String × α)} {n : String} {v : α}
    (once : (names es).count n ≤ 1) (h : (n, v) ∈ es) : get? es n = some v := by
  induction es with
  | nil => cases h
  | cons e es ih =>
    obtain ⟨m, w⟩ := e
    rw [get?]
    rcases List.mem_cons.mp h with heq | hmem
    · cases heq
      exact if_pos rfl
    · have hpos : 0 < (names es).count n := List.count_pos_iff.mpr (List.mem_map_of_mem hmem)
      rw [names_cons, List.count_cons] at once
      by_cases hm : m = n
      · subst hm
        simp at once
        omega
      · rw [if_neg hm]
        exact ih (Nat.le_trans (Nat.le_add_right _ _) once) hmem

theorem Alike.get? {R : String → α → β → Prop} {es : List (String × α)} {fs : List (String × β)}
    (h : Alike R es fs) {n : String} {w : β} (hw : get? fs n = some w) :
    ∃ v, Entries.get? es n = some v ∧ R n v w := by
  induction h with
  | nil => cases hw
  | @cons e f es fs he _ ih =>
    obtain ⟨m, v⟩ := e
    obtain ⟨m', w'⟩ := f
    obtain ⟨rfl, hv⟩ : m = m' ∧ R m v w' := he
    rw [Entries.get?] at hw ⊢
    by_cases hm : m = n
    · subst hm
      rw [if_pos rfl] at hw ⊢
      cases hw
      exact ⟨v, rfl, hv⟩
    · rw [if_neg hm] at hw ⊢
      exact ih hw

end Entries

theorem TypeScript.Member.line_eq_iff (m : TypeScript.Member) :
    m.line = "  " ++ TypeScript.key m.name ++ ": " ++ m.type.text ++ ";" ↔ m.optional = false := by
  rw [line]
  cases m.optional with
  | false => simp
  | true =>
    refine iff_of_false (fun h => ?_) (by simp)
    have hlength := congrArg String.length h
    simp [String.length_append] at hlength

namespace Schema

/-- The object asks for the member of this name. -/
def Requires (es : List (String × Value)) (n : String) : Prop :=
  ∃ vs, get? es "required" = some (.list vs) ∧ .string n ∈ vs

namespace Definition

theorem isRequired_lowered {es : List (String × Value)} {d : Definition}
    (h : optional Required.ofValue? (said es "required") = some d.required) (n : String) :
    d.lowered.isRequired n ↔ Requires es n := by
  have hmem : d.lowered.isRequired n ↔ n ∈ (d.required.map Required.toNames).getD [] :=
    List.contains_iff_mem
  have hsaid : ∀ vs, said es "required" = .list vs ↔ get? es "required" = some (.list vs) := by
    intro vs
    rw [said]
    cases get? es "required" <;> simp
  rw [hmem, Requires]
  simp only [← hsaid]
  by_cases hnull : said es "required" = .null
  · rw [hnull] at h
    rw [← Option.some.inj h, hnull]
    simp
  · rw [optional_of_ne_null _ hnull] at h
    obtain ⟨r, hr, heq⟩ := Option.map_eq_some_iff.mp h
    rw [← heq]
    exact Required.mem_toNames_iff hr n

theorem alike_of_nodes? {props : List (String × Value)} {ns : List (String × Node)}
    (h : nodes? (props.map fun e => (.name e.1, e.2)) = some ns) :
    Alike (fun _ v n => Node.ofValue? v = some n) props ns := by
  induction props generalizing ns with
  | nil =>
    cases h
    exact .nil
  | cons e props ih =>
    rw [nodes?_eq] at h
    obtain ⟨n, rest, hn, hrest, rfl⟩ := Json.cons?_eq_some_iff.mp h
    obtain ⟨x, hx, rfl⟩ := Option.map_eq_some_iff.mp hn
    rw [← nodes?_eq] at hrest
    exact .cons ⟨rfl, hx⟩ (ih hrest)

theorem collects_lowered {d : Definition} {props : List (String × Value)}
    (h : optional properties? (.record props) = some d.properties) :
    ∃ ns, Alike (fun _ v n => Node.ofValue? v = some n) props ns ∧
      Collects d.lowered.properties (mapValues Node.property ns) := by
  rw [Value.record, optional_of_ne_null _ Value.noConfusion, properties?, Option.map_map] at h
  obtain ⟨ns, hns, hproperties⟩ := Option.map_eq_some_iff.mp h
  have hcollects := (Collects.ofList ns).mapValues Node.property
  have hdistinct : (names (mapValues Node.property (Entries.ofList ns))).Nodup := by
    rw [Entries.names_mapValues]
    exact Entries.nodup_names_ofList ns
  have hlowered : d.lowered.properties = mapValues Node.property (Entries.ofList ns) := by
    have hopen : d.lowered.properties =
        Entries.ofList (mapValues Node.property (d.properties.getD [])) := rfl
    rw [hopen, ← hproperties]
    exact Entries.putAll_of_nodup hdistinct
  exact ⟨ns, alike_of_nodes? hns, hlowered ▸ hcollects⟩

end Definition

theorem exists_definition {es props : List (String × Value)} (named : (Value.record es).isNamed)
    (once : ∀ n ∈ Definition.fields, (names es).count n ≤ 1)
    (hprops : get? es "properties" = some (.record props)) :
    ∃ d, Definition.tolerant? (.record es) = some d ∧
      Definition.ofEntries? (es.map fun e => (.name e.1, e.2)) = some d := by
  have hrecord : isRecord Definition.fields (es.map fun e => (.name e.1, e.2)) [] = true :=
    isRecord_of_count Definition.fields once (by simp)
  have haccepts : es.all (fun e => Definition.accepts e.1 e.2) = true := by
    rw [List.all_eq_true]
    rintro ⟨n, v⟩ hmem
    rw [Definition.accepts]
    split
    · rename_i hn
      subst hn
      have hsame := hprops.symm.trans (Entries.get?_of_once (once _ (by decide)) hmem)
      rw [← Option.some.inj hsame]
      rfl
    · rfl
  rw [← Definition.isSome_ofEntries? named] at haccepts
  obtain ⟨d, hd⟩ := Option.isSome_iff_exists.mp haccepts
  have hread : Definition.ofValue? (.record es) = some d := by
    rw [← hd]
    exact if_pos hrecord
  refine ⟨d, ?_, hd⟩
  rw [Definition.tolerant?, hread]

theorem blocks_of_definition (name : String) (d : Definition) (o : Options) :
    (generate [{ definitions := some (.ofList [(name, d)]) }] o).blocks =
      [⟨name, (d.lowered.interface o.marker name).text⟩] := by
  have hcatalogue := Document.catalogue?_ofList [(name, d)] {}
  rw [if_neg (List.cons_ne_nil _ _)] at hcatalogue
  have hentries := (Definitions.ofDocuments_singleton
    { definitions := some (.ofList [(name, d)]) }).1
  rw [hcatalogue] at hentries
  have hordered : (Definitions.ofDocuments
      [{ definitions := some (.ofList [(name, d)]) }]).ordered o.sort = [(name, d.lowered)] := by
    rw [Definitions.ordered, hentries]
    cases o.sort <;> simp [Entries.sorted, mapValues, Catalogue.ofList, Catalogue.insertAll,
      Catalogue.insert, Catalogue.empty, Entries.put]
  rw [generate, Definitions.generate, hordered]
  rfl

/-- The interface of an object in the place of a definition. -/
theorem members_of_record {es props : List (String × Value)} (named : (Value.record es).isNamed)
    (once : ∀ n ∈ Definition.fields, (names es).count n ≤ 1)
    (hprops : get? es "properties" = some (.record props)) :
    ∃ d, Definition.tolerant? (.record es) = some d ∧
      ∀ (o : Options) (name : String),
        let i := d.lowered.interface o.marker name
        i.name = name ∧
        i.members.map TypeScript.Member.name = (names props).eraseDups ∧
        (∀ m ∈ i.members,
          (∃ v n, get? props.reverse m.name = some v ∧ Node.ofValue? v = some n ∧
            m.type = n.property.type o.marker ∧ m.doc = n.property.description) ∧
          (m.optional = false ↔ Requires es m.name) ∧
          (m.line = "  " ++ TypeScript.key m.name ++ ": " ++ m.type.text ++ ";" ↔
            Requires es m.name)) ∧
        ∀ text, Json.valueOf? text =
            some (.object [(.name "definitions", .object [(.name name, .record es)])]) →
          ∃ doc, Document.parse .json text = .ok doc ∧
            (generate [doc] o).blocks = [⟨name, i.text⟩] := by
  obtain ⟨d, hd, hentries⟩ := exists_definition named once hprops
  obtain ⟨hrequired, hproperties⟩ := Definition.said_of_ofEntries? hentries
  rw [Definition.said, hprops, Option.getD_some] at hproperties
  obtain ⟨ns, hns, hcollects⟩ := Definition.collects_lowered hproperties
  refine ⟨d, hd, fun o name => ⟨rfl, ?_, ?_, ?_⟩⟩
  · have hnames : (d.lowered.interface o.marker name).members.map TypeScript.Member.name =
        names d.lowered.properties := by
      simp [SchemaTypes.Definition.interface, SchemaTypes.Definition.member, names]
    rw [hnames, hcollects.order, Entries.names_mapValues, hns.names_eq]
  · intro m hm
    obtain ⟨⟨n, p⟩, he, rfl⟩ := List.mem_map.mp hm
    have hlast := Entries.get?_of_once
      (List.nodup_iff_count_le_one.mp d.lowered.distinct n) he
    have hreverse : (mapValues Node.property ns).reverse = mapValues Node.property ns.reverse :=
      List.map_reverse.symm
    rw [hcollects.last, hreverse, Entries.get?_mapValues] at hlast
    obtain ⟨node, hnode, rfl⟩ := Option.map_eq_some_iff.mp hlast
    have hreversed : Alike (fun _ v n => Node.ofValue? v = some n) props.reverse ns.reverse :=
      List.forall₂_reverse_iff.mpr hns
    obtain ⟨v, hv, hread⟩ := hreversed.get? hnode
    have hoptional : (d.lowered.member o.marker (n, node.property)).optional = false ↔
        Requires es n := by
      rw [← Definition.isRequired_lowered hrequired n]
      simp [SchemaTypes.Definition.member]
    exact ⟨⟨v, node, hv, hread, rfl, rfl⟩, hoptional,
      (TypeScript.Member.line_eq_iff _).trans hoptional⟩
  · intro text htext
    have hwrites : Writes [(.name name, .record es)] [(name, d)] := .cons ⟨rfl, hd⟩ .nil
    exact ⟨_, hwrites.parse htext, blocks_of_definition name d o⟩

/-- A property that comes again, and a list of required names with a number in it. -/
theorem members_of_record_pet :
    let props : List (String × Value) :=
      [("id", .null), ("tag", .null), ("id", .record [("$ref", .string "Id")])]
    let es : List (String × Value) :=
      [("type", .number (.int 5)), ("required", .list [.string "id", .number (.int 7)]),
        ("properties", .record props)]
    (Value.record es).isNamed ∧ (∀ n ∈ Definition.fields, (names es).count n ≤ 1) ∧
      get? es "properties" = some (.record props) ∧
      ∃ d, Definition.tolerant? (.record es) = some d ∧
        (d.lowered.interface .any "Pet").members.map TypeScript.Member.name = ["id", "tag"] ∧
        ∀ m ∈ (d.lowered.interface .any "Pet").members,
          m.optional = false ↔ m.name = "id" := by
  intro props es
  have named : (Value.record es).isNamed := rfl
  have once : ∀ n ∈ Definition.fields, (names es).count n ≤ 1 := by decide
  have hprops : get? es "properties" = some (.record props) := rfl
  obtain ⟨d, hd, hinterface⟩ := members_of_record named once hprops
  obtain ⟨_, hnames, hmembers, _⟩ := hinterface {} "Pet"
  refine ⟨named, once, hprops, d, hd, hnames.trans (by decide), fun m hm => ?_⟩
  have hrequires : Requires es m.name ↔ m.name = "id" := by simp [Requires, es, get?]
  exact (hmembers m hm).2.1.trans hrequires

end Schema

end SchemaTypes
