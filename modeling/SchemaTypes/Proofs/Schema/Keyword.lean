import Mathlib.Data.List.Nodup
import SchemaTypes.Proofs.Entries.Alike
import SchemaTypes.Proofs.Schema.Reading
import SchemaTypes.Proofs.Shape.Reference
import SchemaTypes.Shape.Lowering

/-!
# Keywords that say nothing about a type

A schema is taken keyword by keyword, and some keywords have no say in the type
of a property: none has beside a pointer, and five never have. But a keyword whose
value is of the wrong kind makes the whole object no schema, also where it would
have no say, and what is no schema has no known type.
-/

set_option autoImplicit false

namespace SchemaTypes

open Entries (names get? Alike)

def Value.record (fields : List (String × Value)) : Value :=
  .object (fields.map fun e => (.name e.1, e.2))

namespace Schema

theorem fieldIndex?_inj {fields : List String} {m n : String} {i : Nat}
    (hm : fieldIndex? fields (.name m) = some i) (hn : fieldIndex? fields (.name n) = some i) :
    m = n := by
  simp only [fieldIndex?, Option.ite_none_right_eq_some, Option.some.injEq,
    List.contains_iff_mem] at hm hn
  exact (List.idxOf_inj hm.1).mp (hm.2.trans hn.2.symm)

theorem isRecord_of_count (known : List String) {fields : List (String × Value)} {seen : List Nat}
    (once : ∀ n ∈ known, (names fields).count n ≤ 1)
    (fresh : ∀ n ∈ names fields, ∀ i, fieldIndex? known (.name n) = some i → i ∉ seen) :
    isRecord known (fields.map fun e => (.name e.1, e.2)) seen = true := by
  induction fields generalizing seen with
  | nil => rfl
  | cons e fields ih =>
    have honce : ∀ n ∈ known, (names fields).count n ≤ 1 := fun n hn =>
      Nat.le_trans List.count_le_count_cons (once n hn)
    rw [Entries.names_cons, List.forall_mem_cons] at fresh
    rw [List.map_cons, isRecord]
    · cases hi : fieldIndex? known (.name e.1) with
      | none => exact ih honce fresh.2
      | some i =>
        have hknown : e.1 ∈ known := by
          simp only [fieldIndex?, Option.ite_none_right_eq_some, List.contains_iff_mem] at hi
          exact hi.1
        have hrest : ∀ n ∈ names fields, ∀ j, fieldIndex? known (.name n) = some j →
            j ∉ i :: seen := by
          intro n hn j hj hmem
          rcases List.mem_cons.mp hmem with rfl | hmem
          · have htwice := once e.1 hknown
            rw [← fieldIndex?_inj hi hj] at hn
            rw [Entries.names_cons, List.count_cons_self] at htwice
            have hpos := List.count_pos_iff.mpr hn
            omega
          · exact fresh.2 n hn j hj hmem
        simp [fresh.1 i hi, ih honce hrest]
    · intro h
      cases h

theorem isRecord_of_nodup (known : List String) {fields : List (String × Value)} {seen : List Nat}
    (distinct : (names fields).Nodup)
    (fresh : ∀ n ∈ names fields, ∀ i, fieldIndex? known (.name n) = some i → i ∉ seen) :
    isRecord known (fields.map fun e => (.name e.1, e.2)) seen = true :=
  isRecord_of_count known (fun n _ => List.nodup_iff_count_le_one.mp distinct n) fresh

namespace Keywords

/-- The keywords with one more, unless it cannot have this value. -/
def put? (keyword : String) (v : Value) (ks : Keywords) : Option Keywords :=
  match fieldIndex? keywordFields (.name keyword) with
  | some 0 => (optional TypeKeyword.ofValue? v).map fun x => { ks with type := x }
  | some 1 => (optional text? v).map fun x => { ks with format := x }
  | some 2 => (optional text? v).map fun x => { ks with ref := x }
  | some 3 => (Items.ofOptional? v).map fun x => { ks with items := x }
  | some 4 => (optional values? v).map fun x => { ks with enum := x }
  | some 5 => (optional text? v).map fun x => { ks with description := x }
  | some 6 => (Node.nodes? v).map fun x => { ks with oneOf := x }
  | some 7 => (Node.nodes? v).map fun x => { ks with anyOf := x }
  | some 8 => (Node.nodes? v).map fun x => { ks with allOf := x }
  | _ => some ks

theorem ofEntries?_cons (keyword : String) (v : Value) (es : List (Key × Value)) :
    ofEntries? ((.name keyword, v) :: es) = (ofEntries? es).bind (put? keyword v) := by
  rw [ofEntries?]
  cases ofEntries? es with
  | none => rfl
  | some ks => rfl

def isTextOrNull : Value → Bool
  | .null => true
  | .string _ => true
  | _ => false

def isListOrNull : Value → Bool
  | .null => true
  | .list _ => true
  | _ => false

/-- Whether a keyword can have a value. What is no keyword can have any. -/
def accepts (keyword : String) (v : Value) : Bool :=
  if keyword ∈ ["format", "$ref", "description"] then isTextOrNull v
  else if keyword ∈ ["enum", "oneOf", "anyOf", "allOf"] then isListOrNull v
  else true

/-- The keywords that no type depends on. -/
def idle : List String := ["format", "description", "oneOf", "anyOf", "allOf"]

theorem isSome_text? (v : Value) : (optional text? v).isSome = isTextOrNull v := by
  cases v <;> rfl

theorem isSome_values? {v : Value} (h : v.isNamed) :
    (optional values? v).isSome = isListOrNull v := by
  cases v with
  | list vs =>
    have hitems : (Value.plainItems? vs).isSome := (Value.isSome_plainItems? vs).trans h
    simpa [optional, values?, isListOrNull] using hitems
  | _ => rfl

theorem isSome_nodes? {v : Value} (h : v.isNamed) : (Node.nodes? v).isSome = isListOrNull v := by
  cases v with
  | list vs => simpa [Node.nodes?, isListOrNull] using Node.isSome_ofValues? h
  | _ => simp [Node.nodes?, isListOrNull]

theorem isSome_type? {v : Value} (h : v.isNamed) : (optional TypeKeyword.ofValue? v).isSome := by
  cases v with
  | null => rfl
  | _ => exact (Option.isSome_map).trans (TypeKeyword.isSome_ofValue? h)

theorem isSome_put? (keyword : String) {v : Value} (h : v.isNamed) (ks : Keywords) :
    (put? keyword v ks).isSome = accepts keyword v := by
  by_cases hk : keyword ∈ keywordFields
  · simp only [keywordFields, List.mem_cons, List.not_mem_nil, or_false] at hk
    rcases hk with rfl | rfl | rfl | rfl | rfl | rfl | rfl | rfl | rfl
    · exact Option.isSome_map.trans (isSome_type? h)
    · exact Option.isSome_map.trans (isSome_text? v)
    · exact Option.isSome_map.trans (isSome_text? v)
    · exact Option.isSome_map.trans (Items.isSome_ofOptional? h)
    · exact Option.isSome_map.trans (isSome_values? h)
    · exact Option.isSome_map.trans (isSome_text? v)
    · exact Option.isSome_map.trans (isSome_nodes? h)
    · exact Option.isSome_map.trans (isSome_nodes? h)
    · exact Option.isSome_map.trans (isSome_nodes? h)
  · have hother : fieldIndex? keywordFields (.name keyword) = none := by
      simpa [fieldIndex?] using hk
    have haccepts : accepts keyword v = true := by
      simp only [keywordFields, List.mem_cons, List.not_mem_nil, or_false, not_or] at hk
      simp [accepts, hk]
    rw [put?, hother, haccepts]
    rfl

/-- Fields make up a schema just if every keyword accepts its value. -/
theorem isSome_ofEntries? {fields : List (String × Value)} (h : (Value.record fields).isNamed) :
    (ofEntries? (fields.map fun e => (.name e.1, e.2))).isSome =
      fields.all fun e => accepts e.1 e.2 := by
  induction fields with
  | nil =>
    rw [List.map_nil, ofEntries?]
    rfl
  | cons e fields ih =>
    rw [Value.record, List.map_cons, Value.isNamed, Value.haveNames, Bool.and_eq_true] at h
    have hrest := ih h.2
    rw [List.map_cons, ofEntries?_cons, List.all_cons]
    cases hks : ofEntries? (fields.map fun e => (.name e.1, e.2)) with
    | none =>
      rw [hks, Option.isSome_none] at hrest
      rw [← hrest, Bool.and_false]
      rfl
    | some ks =>
      rw [hks, Option.isSome_some] at hrest
      rw [← hrest, Bool.and_true, Option.bind_some, isSome_put? e.1 h.1]

/-- What a keyword does to the four that types depend on. -/
structure Puts (keyword : String) (v : Value) (before after : Keywords) : Prop where
  type : if keyword = "type" then optional TypeKeyword.ofValue? v = some after.type
    else after.type = before.type
  ref : if keyword = "$ref" then optional text? v = some after.ref else after.ref = before.ref
  items : if keyword = "items" then Items.ofOptional? v = some after.items
    else after.items = before.items
  enum : if keyword = "enum" then optional values? v = some after.enum
    else after.enum = before.enum

theorem puts_of_put? {keyword : String} {v : Value} {ks ks' : Keywords}
    (h : put? keyword v ks = some ks') : Puts keyword v ks ks' := by
  by_cases hk : keyword ∈ keywordFields
  · simp only [keywordFields, List.mem_cons, List.not_mem_nil, or_false] at hk
    rcases hk with rfl | rfl | rfl | rfl | rfl | rfl | rfl | rfl | rfl <;>
      obtain ⟨x, hx, rfl⟩ := Option.map_eq_some_iff.mp h <;>
      exact ⟨by simp [hx], by simp [hx], by simp [hx], by simp [hx]⟩
  · have hother : fieldIndex? keywordFields (.name keyword) = none := by
      simpa [fieldIndex?] using hk
    rw [put?, hother] at h
    cases h
    simp only [keywordFields, List.mem_cons, List.not_mem_nil, or_false, not_or] at hk
    exact ⟨by simp [hk], by simp [hk], by simp [hk], by simp [hk]⟩

/-- The keyword that counts is the first of its name. -/
theorem ref_of_ofEntries? {fields : List (String × Value)} {ks : Keywords} {pointer : String}
    (h : ofEntries? (fields.map fun e => (.name e.1, e.2)) = some ks)
    (hp : get? fields "$ref" = some (.string pointer)) : ks.ref = some pointer := by
  induction fields generalizing ks with
  | nil => cases hp
  | cons e fields ih =>
    obtain ⟨keyword, v⟩ := e
    rw [List.map_cons, ofEntries?_cons, Option.bind_eq_some_iff] at h
    obtain ⟨rest, hrest, hput⟩ := h
    have href := (puts_of_put? hput).ref
    rw [get?] at hp
    split at hp
    · rename_i hname
      cases hp
      rw [if_pos hname] at href
      exact (Option.some.inj href).symm
    · rename_i hname
      rw [if_neg hname] at href
      exact href.trans (ih hrest hp)

/-- Keywords that are the same but for those that no type depends on. -/
structure Agree (ks ks' : Keywords) : Prop where
  type : ks.type = ks'.type
  ref : ks.ref = ks'.ref
  items : ks.items = ks'.items
  enum : ks.enum = ks'.enum

theorem Agree.put {keyword : String} {v v' : Value} {ks ks' rest rest' : Keywords}
    (h : Agree rest rest') (hv : keyword ∉ idle → v = v') (hput : Puts keyword v rest ks)
    (hput' : Puts keyword v' rest' ks') : Agree ks ks' := by
  -- a keyword that is looked at has the same value in both
  have hsame {α : Type} {name : String} (hname : name ∉ idle) (read : Value → Option α)
      {x x' y y' : α} (hx : if keyword = name then read v = some x else x = y)
      (hx' : if keyword = name then read v' = some x' else x' = y') (hy : y = y') : x = x' := by
    by_cases hk : keyword = name
    · rw [if_pos hk] at hx hx'
      rw [hv (hk ▸ hname)] at hx
      exact Option.some.inj (hx.symm.trans hx')
    · rw [if_neg hk] at hx hx'
      rw [hx, hx', hy]
  exact
    { type := hsame (by decide) _ hput.type hput'.type h.type
      ref := hsame (by decide) _ hput.ref hput'.ref h.ref
      items := hsame (by decide) _ hput.items hput'.items h.items
      enum := hsame (by decide) _ hput.enum hput'.enum h.enum }

theorem agree_of_ofEntries? {fields others : List (String × Value)} {ks ks' : Keywords}
    (alike : Alike (fun keyword v v' => keyword ∉ idle → v = v') fields others)
    (h : ofEntries? (fields.map fun e => (.name e.1, e.2)) = some ks)
    (h' : ofEntries? (others.map fun e => (.name e.1, e.2)) = some ks') : Agree ks ks' := by
  induction alike generalizing ks ks' with
  | nil =>
    cases h.symm.trans h'
    exact ⟨rfl, rfl, rfl, rfl⟩
  | @cons e e' fields others he _ ih =>
    obtain ⟨keyword, v⟩ := e
    obtain ⟨keyword', v'⟩ := e'
    obtain ⟨hname, hv⟩ := he
    cases hname
    rw [List.map_cons, ofEntries?_cons, Option.bind_eq_some_iff] at h h'
    obtain ⟨rest, hrest, hput⟩ := h
    obtain ⟨rest', hrest', hput'⟩ := h'
    exact (ih hrest hrest').put hv (puts_of_put? hput) (puts_of_put? hput')

theorem type_scalarShape (marker : Marker) (format format' : Option String)
    (enum : Option (List Value)) (type : String) :
    (scalarShape format enum type).type marker = (scalarShape format' enum type).type marker := by
  unfold scalarShape
  split
  · cases enum <;> rfl
  · rfl
  · rfl

theorem shape_property (ks : Keywords) :
    ks.property.shape =
      match ks.ref, ks.type.bind TypeKeyword.effective? with
      | some pointer, _ => .reference pointer
      | none, none => .unknown
      | none, some name =>
        if name = "array" then .array (elementOf ks.items)
        else scalarShape ks.format ks.enum name := by
  obtain ⟨type, format, ref, items, enum, description, oneOf, anyOf, allOf⟩ := ks
  rw [property.eq_def]
  cases ref with
  | some pointer => rfl
  | none =>
    dsimp only
    cases type.bind TypeKeyword.effective? with
    | none => rfl
    | some name =>
      dsimp only
      split <;> rfl

theorem Agree.type_property {ks ks' : Keywords} (h : Agree ks ks') (marker : Marker) :
    ks.property.type marker = ks'.property.type marker := by
  rw [Property.type_eq, Property.type_eq, shape_property, shape_property, h.ref, h.type, h.items,
    h.enum]
  cases ks'.ref with
  | some pointer => rfl
  | none =>
    cases ks'.type.bind TypeKeyword.effective? with
    | none => rfl
    | some name =>
      dsimp only
      split
      · rfl
      · exact type_scalarShape marker ks.format ks'.format ks'.enum name

end Keywords

def Keywords.fit (fields : List (String × Value)) : Bool :=
  fields.all fun e => Keywords.accepts e.1 e.2

/-- An object of distinct fields can always be read. It is a schema if its keywords
fit, and else it has no known type. -/
theorem Node.ofValue?_record {fields : List (String × Value)} (distinct : (names fields).Nodup)
    (named : (Value.record fields).isNamed) :
    ∃ n, ofValue? (.record fields) = some n ∧
      if Keywords.fit fields then
        ∃ ks, Keywords.ofEntries? (fields.map fun e => (.name e.1, e.2)) = some ks ∧ n = .schema ks
      else n.property = .unknown := by
  have hrecord : isRecord keywordFields (fields.map fun e => (.name e.1, e.2)) [] = true :=
    isRecord_of_nodup keywordFields distinct (by simp)
  have hfits : (Keywords.ofEntries? _).isSome = Keywords.fit fields :=
    Keywords.isSome_ofEntries? named
  rw [Value.record, ofValue?, ofEntries?, hrecord, if_pos rfl]
  cases hks : Keywords.ofEntries? (fields.map fun e => (.name e.1, e.2)) with
  | none =>
    rw [hks, Option.isSome_none] at hfits
    obtain ⟨v, hv⟩ := Option.isSome_iff_exists.mp ((Value.isSome_plain? _).trans named)
    rw [Value.record] at hv
    refine ⟨.other v, by rw [hv]; rfl, ?_⟩
    rw [← hfits, if_neg Bool.false_ne_true, property]
  | some ks =>
    rw [hks, Option.isSome_some] at hfits
    refine ⟨.schema ks, rfl, ?_⟩
    rw [← hfits, if_pos rfl]
    exact ⟨ks, rfl, rfl⟩

/-- Keywords that are not looked at say nothing about a type, as long as all
keywords fit: beside a pointer none says anything, and five never do. If one does
not fit, nothing is known of the type, whichever keyword it is. -/
theorem type_of_keywords {fields others : List (String × Value)}
    (distinct : (names fields).Nodup) (named : (Value.record fields).isNamed)
    (named' : (Value.record others).isNamed)
    (alike : Alike (fun keyword v v' => keyword ∉ Keywords.idle → v = v') fields others) :
    ∃ n n', Node.ofValue? (.record fields) = some n ∧ Node.ofValue? (.record others) = some n' ∧
      (∀ pointer, get? fields "$ref" = some (.string pointer) →
        n.property.shape = if Keywords.fit fields then .reference pointer else .unknown) ∧
      (Keywords.fit fields = false → n.property = .unknown) ∧
      (Keywords.fit fields = Keywords.fit others →
        ∀ marker, n.property.type marker = n'.property.type marker) := by
  obtain ⟨n, hn, hfields⟩ := Node.ofValue?_record distinct named
  obtain ⟨n', hn', hothers⟩ := Node.ofValue?_record (alike.names_eq ▸ distinct) named'
  refine ⟨n, n', hn, hn', ?_, ?_, ?_⟩
  · intro pointer hpointer
    split at hfields
    · rename_i hfit
      obtain ⟨ks, hks, rfl⟩ := hfields
      rw [if_pos hfit, Node.property, Keywords.shape_property,
        Keywords.ref_of_ofEntries? hks hpointer]
    · rename_i hfit
      rw [if_neg hfit, hfields]
      rfl
  · intro hfit
    rwa [hfit, if_neg Bool.false_ne_true] at hfields
  · intro hfit marker
    rw [← hfit] at hothers
    split at hfields
    · obtain ⟨ks, hks, rfl⟩ := hfields
      rename_i h
      rw [if_pos h] at hothers
      obtain ⟨ks', hks', rfl⟩ := hothers
      rw [Node.property, Node.property]
      exact (Keywords.agree_of_ofEntries? alike hks hks').type_property marker
    · rename_i h
      rw [if_neg h] at hothers
      rw [hfields, hothers]

/-- A date, whether it is said to be one or not. -/
theorem type_of_keywords_date :
    let fields := [("type", Value.string "string"), ("format", .string "date")]
    let others := [("type", Value.string "string"), ("format", .null)]
    (names fields).Nodup ∧ (Value.record fields).isNamed ∧ (Value.record others).isNamed ∧
      Alike (fun keyword v v' => keyword ∉ Keywords.idle → v = v') fields others ∧
      Keywords.fit fields = true ∧ Keywords.fit others = true ∧
      ∃ n n', Node.ofValue? (.record fields) = some n ∧ Node.ofValue? (.record others) = some n' ∧
        n.property.type .any = n'.property.type .any := by
  intro fields others
  have distinct : (names fields).Nodup := by decide
  have named : (Value.record fields).isNamed := rfl
  have named' : (Value.record others).isNamed := rfl
  have alike : Alike (fun keyword v v' => keyword ∉ Keywords.idle → v = v') fields others :=
    .cons ⟨rfl, fun _ => rfl⟩ (.cons ⟨rfl, fun h => absurd (by decide) h⟩ .nil)
  obtain ⟨n, n', hn, hn', _, _, htype⟩ := type_of_keywords distinct named named' alike
  exact ⟨distinct, named, named', alike, rfl, rfl, n, n', hn, hn', htype rfl .any⟩

/-- A pointer beside a format that is no text points nowhere. -/
theorem shape_of_pointer_and_number :
    ¬ ∀ (fields : List (String × Value)) (pointer : String), (names fields).Nodup →
      (Value.record fields).isNamed → get? fields "$ref" = some (.string pointer) →
      ∃ n, Node.ofValue? (.record fields) = some n ∧ n.property.shape = .reference pointer := by
  intro h
  let fields := [("$ref", Value.string "#/definitions/User"), ("format", .number (.int 5))]
  have distinct : (names fields).Nodup := by decide
  have named : (Value.record fields).isNamed := rfl
  obtain ⟨n, hn, hshape⟩ := h fields "#/definitions/User" distinct named rfl
  obtain ⟨n', hn', hunknown⟩ := Node.ofValue?_record distinct named
  have hfit : Keywords.fit fields = false := rfl
  rw [hfit, if_neg Bool.false_ne_true] at hunknown
  cases hn.symm.trans hn'
  rw [hunknown] at hshape
  cases hshape

end Schema

end SchemaTypes
