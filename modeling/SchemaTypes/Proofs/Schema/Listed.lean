import SchemaTypes.Proofs.Schema.Acceptance
import SchemaTypes.Proofs.Schema.Definition

/-!
# Values that are no objects

What is no object is no schema and no definition, but for the lists that have a value
for each keyword, in the order of the keywords, all of which fit. Such a list is read as
the object that says the same.
-/

set_option autoImplicit false

namespace SchemaTypes

open Entries (names)

/-- A list of one value for each field, in their order, all of which fit. -/
def Value.Lists (fields : List String) (accepts : String → Value → Bool) : Value → Prop
  | .list vs => List.Forall₂ (fun n v => accepts n v = true) fields vs
  | _ => False

namespace Schema

theorem all_zip {fields : List String} {accepts : String → Value → Bool} {vs : List Value}
    (h : List.Forall₂ (fun n v => accepts n v = true) fields vs) :
    ((fields.zip vs).all fun e => accepts e.1 e.2) = true := by
  induction h with
  | nil => rfl
  | cons hhead _ ih => simp [hhead, ih]

theorem forall₂_of_all_zip {fields : List String} {accepts : String → Value → Bool}
    {vs : List Value} (hlength : fields.length = vs.length)
    (h : ((fields.zip vs).all fun e => accepts e.1 e.2) = true) :
    List.Forall₂ (fun n v => accepts n v = true) fields vs := by
  rw [List.forall₂_iff_zip]
  refine ⟨hlength, fun {a b} hab => ?_⟩
  exact List.all_eq_true.mp h (a, b) hab

theorem names_zip {fields : List String} {vs : List Value} (h : fields.length = vs.length) :
    names (fields.zip vs) = fields :=
  List.map_fst_zip (Nat.le_of_eq h)

theorem haveNames_zip (fields : List String) {vs : List Value} (h : Value.areNamed vs) :
    (Value.record (fields.zip vs)).isNamed := by
  induction fields generalizing vs with
  | nil => rfl
  | cons n fields ih =>
    cases vs with
    | nil => rfl
    | cons v vs =>
      rw [Value.areNamed, Bool.and_eq_true] at h
      rw [List.zip_cons_cons, Value.record, List.map_cons, Value.isNamed, Value.haveNames, h.1]
      exact ih h.2

theorem exists_of_length_eq_nine {vs : List Value} (h : vs.length = 9) :
    ∃ a b c d e f g x y, vs = [a, b, c, d, e, f, g, x, y] := by
  match vs, h with
  | [a, b, c, d, e, f, g, x, y], _ => exact ⟨a, b, c, d, e, f, g, x, y, rfl⟩

/-- A list of one value for each keyword is read as the object with these keywords. -/
theorem Keywords.ofList?_eq_some_iff {vs : List Value} {ks : Keywords} :
    ofList? vs = some ks ↔ keywordFields.length = vs.length ∧
      ofEntries? ((keywordFields.zip vs).map fun e => (.name e.1, e.2)) = some ks := by
  constructor
  · intro h
    unfold ofList? at h
    split at h
    · simp only [bind, Option.bind_eq_some_iff, Option.some.injEq] at h
      obtain ⟨_, htype, _, hformat, _, href, _, hitems, _, henum, _, hdescription, _, honeOf, _,
        hanyOf, _, hallOf, rfl⟩ := h
      refine ⟨rfl, ?_⟩
      simp [keywordFields, ofEntries?_cons, ofEntries?, put?, fieldIndex?, htype,
        hformat, href, hitems, henum, hdescription, honeOf, hanyOf, hallOf]
    · cases h
  · rintro ⟨hlength, h⟩
    obtain ⟨type, format, ref, items, enum, description, oneOf, anyOf, allOf, rfl⟩ :=
      exists_of_length_eq_nine hlength.symm
    simp only [keywordFields, List.zip_cons_cons, List.zip_nil_left, List.map_cons, List.map_nil,
      ofEntries?_cons, Option.bind_eq_some_iff] at h
    obtain ⟨_, ⟨_, ⟨_, ⟨_, ⟨_, ⟨_, ⟨_, ⟨_, ⟨_, hempty, hallOf⟩, hanyOf⟩, honeOf⟩, hdescription⟩,
      henum⟩, hitems⟩, href⟩, hformat⟩, htype⟩ := h
    rw [ofEntries?] at hempty
    cases hempty
    obtain ⟨_, hread₁, rfl⟩ := Option.map_eq_some_iff.mp hallOf
    obtain ⟨_, hread₂, rfl⟩ := Option.map_eq_some_iff.mp hanyOf
    obtain ⟨_, hread₃, rfl⟩ := Option.map_eq_some_iff.mp honeOf
    obtain ⟨_, hread₄, rfl⟩ := Option.map_eq_some_iff.mp hdescription
    obtain ⟨_, hread₅, rfl⟩ := Option.map_eq_some_iff.mp henum
    obtain ⟨_, hread₆, rfl⟩ := Option.map_eq_some_iff.mp hitems
    obtain ⟨_, hread₇, rfl⟩ := Option.map_eq_some_iff.mp href
    obtain ⟨_, hread₈, rfl⟩ := Option.map_eq_some_iff.mp hformat
    obtain ⟨_, hread₉, rfl⟩ := Option.map_eq_some_iff.mp htype
    simp [ofList?, hread₁, hread₂, hread₃, hread₄, hread₅, hread₆, hread₇, hread₈, hread₉]

theorem Definition.ofList?_eq_some_iff {vs : List Value} {d : Definition} :
    ofList? vs = some d ↔ fields.length = vs.length ∧
      ofEntries? ((fields.zip vs).map fun e => (.name e.1, e.2)) = some d := by
  constructor
  · intro h
    unfold ofList? at h
    split at h
    · simp only [bind, Option.bind_eq_some_iff, Option.some.injEq] at h
      obtain ⟨_, htype, _, hrequired, _, hproperties, rfl⟩ := h
      refine ⟨rfl, ?_⟩
      simp [fields, ofEntries?_cons, ofEntries?, put?, fieldIndex?, htype,
        hrequired, hproperties]
    · cases h
  · rintro ⟨hlength, h⟩
    obtain ⟨type, required, properties, rfl⟩ := List.length_eq_three.mp hlength.symm
    simp only [fields, List.zip_cons_cons, List.zip_nil_left, List.map_cons, List.map_nil,
      ofEntries?_cons, Option.bind_eq_some_iff] at h
    obtain ⟨_, ⟨_, ⟨_, hempty, hproperties⟩, hrequired⟩, htype⟩ := h
    cases hempty
    obtain ⟨_, hread₁, rfl⟩ := Option.map_eq_some_iff.mp hproperties
    obtain ⟨_, hread₂, rfl⟩ := Option.map_eq_some_iff.mp hrequired
    obtain ⟨_, hread₃, rfl⟩ := Option.map_eq_some_iff.mp htype
    simp [ofList?, hread₁, hread₂, hread₃]

namespace Node

theorem ofValue?_of_lists {vs : List Value} (named : (Value.list vs).isNamed)
    (h : (Value.list vs).Lists keywordFields Keywords.accepts) :
    ofValue? (.list vs) = ofValue? (.record (keywordFields.zip vs)) := by
  have hfields : Keywords.fit (keywordFields.zip vs) = true := all_zip h
  have hdistinct : (names (keywordFields.zip vs)).Nodup := by
    rw [names_zip h.length_eq]
    decide
  obtain ⟨n, hn, hread⟩ := ofValue?_record hdistinct (haveNames_zip keywordFields named)
  rw [if_pos hfields] at hread
  obtain ⟨ks, hks, rfl⟩ := hread
  rw [hn, ofValue?, ofList?, Keywords.ofList?_eq_some_iff.mpr ⟨h.length_eq, hks⟩]

theorem property_of_not_lists {v : Value} {n : Node} (named : v.isNamed) (hobject : ¬ v.IsObject)
    (hlists : ¬ v.Lists keywordFields Keywords.accepts) (h : ofValue? v = some n) :
    n.property = .unknown := by
  cases v with
  | object es => exact absurd trivial hobject
  | list vs =>
    rw [ofValue?, ofList?] at h
    cases hks : Keywords.ofList? vs with
    | none =>
      rw [hks] at h
      obtain ⟨w, _, rfl⟩ := Option.map_eq_some_iff.mp h
      rw [property]
    | some ks =>
      -- A list that is read as keywords has one value for each, and all of them fit.
      obtain ⟨hlength, hentries⟩ := Keywords.ofList?_eq_some_iff.mp hks
      have hall := Keywords.isSome_ofEntries? (haveNames_zip keywordFields named)
      rw [hentries, Option.isSome_some] at hall
      exact absurd (forall₂_of_all_zip hlength hall.symm) hlists
  | bool b =>
    rw [ofValue?] at h
    cases h
    rw [property]
  | _ =>
    simp only [ofValue?, Option.map_eq_some_iff] at h
    obtain ⟨w, _, rfl⟩ := h
    rw [property]

end Node

namespace Definition

theorem tolerant?_of_lists {vs : List Value} (named : (Value.list vs).isNamed)
    (h : (Value.list vs).Lists fields accepts) :
    tolerant? (.list vs) = tolerant? (.record (fields.zip vs)) := by
  have hrecord : isRecord fields ((fields.zip vs).map fun e => (.name e.1, e.2)) [] = true := by
    apply isRecord_of_nodup
    · rw [names_zip h.length_eq]
      decide
    · simp
  have hsome := isSome_ofEntries? (haveNames_zip fields named)
  rw [all_zip h] at hsome
  obtain ⟨d, hd⟩ := Option.isSome_iff_exists.mp hsome
  rw [tolerant?, tolerant?, ofValue?, ofList?_eq_some_iff.mpr ⟨h.length_eq, hd⟩, Value.record,
    ofValue?, if_pos hrecord, hd]

theorem eq_empty_of_not_lists {v : Value} {d : Definition} (named : v.isNamed)
    (hobject : ¬ v.IsObject) (hlists : ¬ v.Lists fields accepts) (h : tolerant? v = some d) :
    d = {} := by
  have hnone : ofValue? v = none := by
    cases v with
    | object es => exact absurd trivial hobject
    | list vs =>
      rw [ofValue?, Option.eq_none_iff_forall_ne_some]
      intro d hd
      obtain ⟨hlength, hentries⟩ := ofList?_eq_some_iff.mp hd
      have hall := isSome_ofEntries? (haveNames_zip fields named)
      rw [hentries, Option.isSome_some] at hall
      exact hlists (forall₂_of_all_zip hlength hall.symm)
    | _ => rfl
  rw [tolerant?, hnone] at h
  obtain ⟨_, _, rfl⟩ := Option.map_eq_some_iff.mp h
  rfl

theorem code_block_empty (marker : Marker) (name : String) :
    (SchemaTypes.Definition.block marker (name, lowered {})).code =
      "export interface " ++ name ++ " \x7b\x7d" := rfl

end Definition

/-- What is no object is no schema, and an empty definition, unless it is the list of the
values of all keywords: such a list is read as the object that says the same. -/
theorem reading_of_not_object {v : Value} (named : v.isNamed) (hobject : ¬ v.IsObject) :
    (∃ n, Node.ofValue? v = some n ∧
      (∀ vs, v = .list vs → v.Lists keywordFields Keywords.accepts →
        Node.ofValue? (.record (keywordFields.zip vs)) = some n) ∧
      (¬ v.Lists keywordFields Keywords.accepts → n.property = .unknown)) ∧
    ∃ d, Definition.tolerant? v = some d ∧
      (∀ vs, v = .list vs → v.Lists Definition.fields Definition.accepts →
        Definition.tolerant? (.record (Definition.fields.zip vs)) = some d) ∧
      (¬ v.Lists Definition.fields Definition.accepts → d = {} ∧
        ∀ marker name, (SchemaTypes.Definition.block marker (name, d.lowered)).code =
          "export interface " ++ name ++ " \x7b\x7d") := by
  constructor
  · obtain ⟨n, hn⟩ := Option.isSome_iff_exists.mp (Node.isSome_ofValue? named)
    refine ⟨n, hn, ?_, fun hlists => Node.property_of_not_lists named hobject hlists hn⟩
    rintro vs rfl hlists
    rw [← hn, Node.ofValue?_of_lists named hlists]
  · obtain ⟨d, hd⟩ := Option.isSome_iff_exists.mp (Definition.isSome_tolerant? named)
    refine ⟨d, hd, ?_, fun hlists => ?_⟩
    · rintro vs rfl hlists
      rw [← hd, Definition.tolerant?_of_lists named hlists]
    · obtain rfl := Definition.eq_empty_of_not_lists named hobject hlists hd
      exact ⟨rfl, Definition.code_block_empty⟩

/-- Nine values, the first of them the name of a type. -/
def textByPosition : Value :=
  .list [.string "string", .null, .null, .null, .null, .null, .null, .null, .null]

theorem ofValue?_textByPosition :
    Node.ofValue? textByPosition = some (.schema { type := some (.single "string") }) := by
  simp [textByPosition, Node.ofValue?, Node.ofList?, Keywords.ofList?, optional,
    TypeKeyword.ofValue?, Items.ofOptional?, Node.nodes?]

/-- As a property it is a text, and as a definition it is empty. -/
theorem reading_of_text_by_position :
    Json.valueOf? "[\x22string\x22,null,null,null,null,null,null,null,null]" = some textByPosition ∧
      textByPosition.isNamed ∧ ¬ textByPosition.IsObject ∧
      Node.ofValue? (.record [("type", .string "string"), ("format", .null), ("$ref", .null),
        ("items", .null), ("enum", .null), ("description", .null), ("oneOf", .null),
        ("anyOf", .null), ("allOf", .null)]) =
          some (.schema { type := some (.single "string") }) ∧
      Definition.tolerant? textByPosition = some {} := by
  have hform : Json.form? "[\x22string\x22,null,null,null,null,null,null,null,null]" =
      some (.list [.string (some "string"), .null, .null, .null, .null, .null, .null, .null,
        .null]) := by decide +kernel
  have htext : Json.valueOf? "[\x22string\x22,null,null,null,null,null,null,null,null]" =
      some textByPosition := Json.valueOf?_of_form hform rfl
  have named := Json.isNamed_of_valueOf? htext
  have hobject : ¬ textByPosition.IsObject := id
  have hlists : textByPosition.Lists keywordFields Keywords.accepts := by
    simp [textByPosition, Value.Lists, keywordFields, Keywords.accepts, Keywords.isTextOrNull,
      Keywords.isListOrNull]
  have hnot : ¬ textByPosition.Lists Definition.fields Definition.accepts := by
    simp [textByPosition, Value.Lists, Definition.fields]
  obtain ⟨⟨n, hn, hlisted, _⟩, d, hd, _, hempty⟩ := reading_of_not_object named hobject
  refine ⟨htext, named, hobject, ?_, (hempty hnot).1 ▸ hd⟩
  exact (hlisted _ rfl hlists).trans (hn.symm.trans ofValue?_textByPosition)

/-- A list can be a schema with a known type, and a definition with a member. -/
theorem not_unknown_of_not_object :
    ¬ (∀ v : Value, v.isNamed → ¬ v.IsObject →
        ∃ n, Node.ofValue? v = some n ∧ n.property = .unknown) ∧
      ¬ ∀ v : Value, v.isNamed → ¬ v.IsObject → Definition.tolerant? v = some {} := by
  constructor
  · intro h
    obtain ⟨n, hn, hunknown⟩ := h textByPosition rfl id
    cases hn.symm.trans ofValue?_textByPosition
    have htext : (Node.schema { type := some (.single "string") }).property =
        ⟨.primitive .string none, none⟩ := by
      simp [Node.property, Keywords.property, TypeKeyword.effective?, scalarShape,
        Kind.ofKeyword?, stringShape]
    cases htext.symm.trans hunknown
  · intro h
    have hread := h (.list [.null, .null, .record [("x", .null)]]) rfl id
    simp [Definition.tolerant?, Definition.ofValue?, Definition.ofList?, optional, properties?,
      Value.record, nodes?, Node.ofValue?, Value.plain?] at hread

end Schema

end SchemaTypes
