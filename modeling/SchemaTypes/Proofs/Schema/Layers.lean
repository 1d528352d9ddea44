import SchemaTypes.Proofs.Schema.Keyword

/-!
# Arrays over arrays

The type of a schema in one line. Its items are followed as long as there is an
array with one schema for all elements, and every array on the way is a pair of
brackets. What stands before the brackets is said by the schema at the end alone: a
name, a keyword or the texts of an enumeration, and the marker if it says none of
these. Only several texts under brackets have parentheses.
-/

set_option autoImplicit false

namespace SchemaTypes

open TypeScript (TypeExpr)

namespace Schema

/-- The name that a type comes down to: a single one, or the only one in a list that
is not null. -/
inductive TypeKeyword.Names : TypeKeyword → String → Prop
  | single (name : String) : Names (.single name) name
  | multiple (before after : List String) (name : String) (hb : ∀ n ∈ before, n = "null")
      (ha : ∀ n ∈ after, n = "null") (ne : name ≠ "null") :
      Names (.multiple (before ++ name :: after)) name

/-- A schema that is no pointer and whose type comes down to this name. -/
def Keywords.IsOf (k : Keywords) (name : String) : Prop :=
  k.ref = none ∧ ∃ t, k.type = some t ∧ t.Names name

namespace Node

def IsArray (n : Node) : Prop := ∃ k, n = .schema k ∧ k.IsOf "array"

/-- The number of arrays over the end of the items, and the schema there, if the last
array has one schema for all elements. -/
inductive Layers : Node → Nat → Option Node → Prop
  | base {n : Node} (h : ¬n.IsArray) : Layers n 0 (some n)
  | bottom {k : Keywords} (h : k.IsOf "array") (hi : ∀ m, k.items ≠ some (.single m)) :
      Layers (.schema k) 1 none
  | layer {k : Keywords} {m : Node} {depth : Nat} {last : Option Node} (h : k.IsOf "array")
      (hi : k.items = some (.single m)) (hm : Layers m depth last) :
      Layers (.schema k) (depth + 1) last

/-- What a schema that is no array says a value is, as a list of alternatives. -/
inductive Says : Option Node → List String → Prop
  | target {k : Keywords} {pointer segment : String} (h : k.ref = some pointer)
      (hs : EndsIn pointer segment) (ne : segment ≠ "") : Says (some (.schema k)) [segment]
  | number {k : Keywords} {name : String} (h : k.IsOf name)
      (hn : name = "integer" ∨ name = "number") : Says (some (.schema k)) ["number"]
  | boolean {k : Keywords} (h : k.IsOf "boolean") : Says (some (.schema k)) ["boolean"]
  | string {k : Keywords} (h : k.IsOf "string") (he : k.enum = none) :
      Says (some (.schema k)) ["string"]
  | choice {k : Keywords} {values : List Value} (h : k.IsOf "string")
      (he : k.enum = some values) (ne : values ≠ []) :
      Says (some (.schema k)) (values.map fun v => TypeScript.literal (enumText v))

/-- What is written for the end of the items: what it says, and the marker if it says
nothing. -/
def Writes (marker : Marker) (last : Option Node) (base : List String) : Prop :=
  Says last base ∨ ((¬∃ other, Says last other) ∧ base = [marker.text])

end Node

theorem TypeKeyword.effective?_eq_some_iff {t : TypeKeyword} {name : String} :
    t.effective? = some name ↔ t.Names name := by
  cases t with
  | single n =>
    constructor
    · intro h
      cases h
      exact .single _
    · intro h
      cases h
      rfl
  | multiple names =>
    have hfilter : (TypeKeyword.multiple names).effective? = some name ↔
        names.filter (· ≠ "null") = [name] := by
      rw [effective?]
      split
      · rename_i n hn
        rw [hn, Option.some.injEq, List.singleton_inj]
      · rename_i hn
        simp only [reduceCtorEq, false_iff]
        exact hn name
    rw [hfilter, List.filter_eq_cons_iff]
    constructor
    · rintro ⟨before, after, rfl, hb, hname, ha⟩
      rw [List.filter_eq_nil_iff] at ha
      exact .multiple before after name (by simpa using hb) (by simpa using ha)
        (by simpa using hname)
    · intro h
      cases h with
      | multiple before after _ hb ha ne =>
        exact ⟨before, after, rfl, by simpa using hb, by simpa using ne, by simpa using ha⟩
  | other v =>
    constructor
    · intro h
      cases h
    · intro h
      cases h

namespace Keywords

variable {k : Keywords} {name : String}

theorem isOf_iff : k.IsOf name ↔ k.ref = none ∧ k.type.bind TypeKeyword.effective? = some name := by
  simp only [IsOf, Option.bind_eq_some_iff, TypeKeyword.effective?_eq_some_iff]

theorem IsOf.shape (h : k.IsOf name) :
    k.property.shape =
      if name = "array" then .array (elementOf k.items) else scalarShape k.format k.enum name := by
  obtain ⟨hr, ht⟩ := isOf_iff.mp h
  rw [shape_property, hr, ht]

end Keywords

namespace Node

variable {n : Node} {last : Option Node}

theorem isArray_schema {k : Keywords} : (Node.schema k).IsArray ↔ k.IsOf "array" := by
  constructor
  · rintro ⟨j, hj, h⟩
    cases hj
    exact h
  · intro h
    exact ⟨k, rfl, h⟩

theorem exists_layers : ∀ n : Node, ∃ depth last, n.Layers depth last
  -- by recursion on the node: the items are a part of it only once the keywords are taken apart
  | .bool b => ⟨0, _, .base (by rintro ⟨k, hk, _⟩; cases hk)⟩
  | .other v => ⟨0, _, .base (by rintro ⟨k, hk, _⟩; cases hk)⟩
  | .schema ⟨type, format, ref, items, enum, description, oneOf, anyOf, allOf⟩ => by
    by_cases h : (Node.schema ⟨type, format, ref, items, enum, description, oneOf, anyOf,
        allOf⟩).IsArray
    · have harray := isArray_schema.mp h
      match items with
      | some (.single m) =>
        obtain ⟨depth, last, hm⟩ := exists_layers m
        exact ⟨depth + 1, last, .layer harray rfl hm⟩
      | some (.tuple nodes) => exact ⟨1, none, .bottom harray (by simp)⟩
      | none => exact ⟨1, none, .bottom harray (by simp)⟩
    · exact ⟨0, _, .base h⟩

theorem Layers.unique {depth other : Nat} {end? : Option Node} (h : n.Layers depth last)
    (ho : n.Layers other end?) : other = depth ∧ end? = last := by
  induction h generalizing other with
  | base hn =>
    cases ho with
    | base _ => exact ⟨rfl, rfl⟩
    | bottom hk _ => exact absurd (isArray_schema.mpr hk) hn
    | layer hk _ _ => exact absurd (isArray_schema.mpr hk) hn
  | bottom hk hi =>
    cases ho with
    | base hn => exact absurd (isArray_schema.mpr hk) hn
    | bottom _ _ => exact ⟨rfl, rfl⟩
    | layer _ hm _ => exact absurd hm (hi _)
  | layer hk hi _ ih =>
    cases ho with
    | base hn => exact absurd (isArray_schema.mpr hk) hn
    | bottom _ hm => exact absurd hi (hm _)
    | layer _ hm ho =>
      rw [hi] at hm
      cases hm
      obtain ⟨rfl, rfl⟩ := ih ho
      exact ⟨rfl, rfl⟩

theorem Layers.not_isArray {depth : Nat} (h : n.Layers depth last) :
    ∀ m ∈ last, ¬m.IsArray := by
  induction h with
  | base hn =>
    intro m hm
    cases hm
    exact hn
  | bottom _ _ =>
    intro m hm
    cases hm
  | layer _ _ _ ih => exact ih

def lastType (marker : Marker) : Option Node → TypeExpr
  | some n => n.property.type marker
  | none => marker.type

theorem Layers.type {depth : Nat} (h : n.Layers depth last) (marker : Marker) :
    n.property.type marker = (lastType marker last).arrays depth := by
  induction h with
  | base _ => rfl
  | @bottom k hk hi =>
    have helement : (elementOf k.items).type marker = marker.type := by
      match hitems : k.items with
      | some (.single m) => exact absurd hitems (hi m)
      | some (.tuple nodes) => rfl
      | none => rfl
    rw [Node.property, Property.type_eq, hk.shape, if_pos rfl, Shape.type, helement]
    rfl
  | @layer k m depth last hk hi _ ih =>
    rw [Node.property, Property.type_eq, hk.shape, if_pos rfl, hi, Shape.type, elementOf, ih]
    rfl

theorem Says.choices_type {base : List String} (h : Says last base) (marker : Marker) :
    (lastType marker last).choices = base := by
  cases h with
  | @target k pointer segment hr hs ne =>
    have hname := targetName?_eq_some_iff.mpr ⟨hs, ne⟩
    rw [lastType, Node.property, Property.type_eq, Keywords.shape_property, hr]
    simp only [Shape.type, referenceType, hname]
    rfl
  | number hk hn =>
    rw [lastType, Node.property, Property.type_eq, hk.shape]
    rcases hn with rfl | rfl
    · rfl
    · rfl
  | boolean hk =>
    rw [lastType, Node.property, Property.type_eq, hk.shape]
    rfl
  | string hk he =>
    rw [lastType, Node.property, Property.type_eq, hk.shape, he]
    rfl
  | @choice k values hk he ne =>
    rw [lastType, Node.property, Property.type_eq, hk.shape, he]
    cases values with
    | nil => exact absurd rfl ne
    | cons v values =>
      show TypeExpr.texts (((v :: values).map enumText).map .literal) = _
      rw [TypeExpr.texts_eq_map, List.map_map, List.map_map]
      rfl

theorem type_scalarShape_of_silent {k : Keywords} {name : String} (hk : k.IsOf name)
    (h : ¬∃ base, Says (some (.schema k)) base) (marker : Marker) :
    (scalarShape k.format k.enum name).type marker = marker.type := by
  unfold scalarShape Kind.ofKeyword?
  by_cases hi : name = "integer"
  · exact absurd ⟨_, .number hk (Or.inl hi)⟩ h
  by_cases hn : name = "number"
  · exact absurd ⟨_, .number hk (Or.inr hn)⟩ h
  by_cases hs : name = "string"
  · subst hs
    match he : k.enum with
    | none => exact absurd ⟨_, .string hk he⟩ h
    | some [] => rfl
    | some (v :: values) => exact absurd ⟨_, .choice hk he (List.cons_ne_nil v values)⟩ h
  by_cases hb : name = "boolean"
  · subst hb
    exact absurd ⟨_, .boolean hk⟩ h
  · rw [if_neg hi, if_neg hn, if_neg hs, if_neg hb]
    rfl

theorem type_of_silent (hlast : ∀ m ∈ last, ¬m.IsArray) (h : ¬∃ base, Says last base)
    (marker : Marker) : lastType marker last = marker.type := by
  match last with
  | none => rfl
  | some (.bool b) => rfl
  | some (.other v) => rfl
  | some (.schema k) =>
    rw [lastType, Node.property, Property.type_eq]
    cases hr : k.ref with
    | some pointer =>
      have hname : targetName? pointer = none := by
        rw [Option.eq_none_iff_forall_ne_some]
        intro name hname
        obtain ⟨hs, ne⟩ := targetName?_eq_some_iff.mp hname
        exact h ⟨_, .target hr hs ne⟩
      rw [Keywords.shape_property, hr]
      simp only [Shape.type, referenceType, hname]
    | none =>
      cases ht : k.type.bind TypeKeyword.effective? with
      | none =>
        rw [Keywords.shape_property, hr, ht]
        rfl
      | some name =>
        have hk : k.IsOf name := Keywords.isOf_iff.mpr ⟨hr, ht⟩
        have hne : name ≠ "array" := by
          rintro rfl
          exact hlast _ rfl (isArray_schema.mpr hk)
        rw [hk.shape, if_neg hne]
        exact type_scalarShape_of_silent hk h marker

theorem writes_iff (hlast : ∀ m ∈ last, ¬m.IsArray) (marker : Marker) (base : List String) :
    Writes marker last base ↔ base = (lastType marker last).choices := by
  constructor
  · rintro (h | ⟨h, rfl⟩)
    · exact (h.choices_type marker).symm
    · rw [type_of_silent hlast h marker]
      rfl
  · rintro rfl
    by_cases h : ∃ other, Says last other
    · obtain ⟨other, hother⟩ := h
      rw [hother.choices_type marker]
      exact Or.inl hother
    · rw [type_of_silent hlast h marker]
      exact Or.inr ⟨h, rfl⟩

/-- The type of a schema is what is written for the end of its items, under as many
brackets as there are arrays over it. -/
theorem text_type_layered (marker : Marker) (n : Node) : ∃ depth last base,
    (∀ d l, n.Layers d l ↔ d = depth ∧ l = last) ∧
      (∀ b, Writes marker last b ↔ b = base) ∧
      (n.property.type marker).text = TypeScript.layered depth base := by
  obtain ⟨depth, last, h⟩ := n.exists_layers
  refine ⟨depth, last, (lastType marker last).choices, ?_, ?_, ?_⟩
  · intro d l
    constructor
    · exact h.unique
    · rintro ⟨rfl, rfl⟩
      exact h
  · exact writes_iff h.not_isArray marker
  · rw [h.type marker, TypeExpr.text_arrays]

/-- A list of nullable lists of two texts. -/
example :
    let inner : Keywords := { type := some (.single "string"), enum := some [.string "a", .null] }
    let middle : Keywords :=
      { type := some (.multiple ["null", "array", "null"]), items := some (.single (.schema inner)) }
    let outer : Keywords :=
      { type := some (.single "array"), items := some (.single (.schema middle)) }
    ((Node.schema outer).property.type .any).text = "(\x22a\x22 | \x22null\x22)[][]" := by
  decide

end Node

end Schema

end SchemaTypes
