import SchemaTypes.Proofs.Schema.Keyword
import SchemaTypes.Proofs.Schema.Replacement

/-!
# Definitions keyword by keyword

A definition is taken keyword by keyword as well, and only its properties ask for a
value of one kind: an object. Whatever its other keywords are, they are no error, and
the names that it requires are the texts in the list that its keyword `required` has.
-/

set_option autoImplicit false

namespace SchemaTypes.Schema

open Entries (get?)

theorem isSome_optional {α : Type} {read : Value → Option α} {v : Value}
    (h : v ≠ .null → (read v).isSome) : (optional read v).isSome := by
  by_cases hv : v = .null
  · subst hv
    rfl
  · rw [optional_of_ne_null read hv, Option.isSome_map, h hv]

theorem mem_texts? {vs : List Value} {ss : List String} (h : texts? vs = some ss) (s : String) :
    s ∈ ss ↔ .string s ∈ vs := by
  induction vs generalizing ss with
  | nil =>
    cases h
    simp
  | cons v vs ih =>
    rw [texts?] at h
    cases v with
    | string t =>
      cases hrest : texts? vs with
      | none =>
        rw [hrest] at h
        cases h
      | some ts =>
        rw [hrest] at h
        cases h
        simp [ih hrest]
    | _ => cases h

theorem mem_textsOf (vs : List Value) (s : String) : s ∈ textsOf vs ↔ .string s ∈ vs := by
  induction vs with
  | nil => simp [textsOf]
  | cons v vs ih => cases v <;> simp [textsOf, ih]

/-- What is forgotten of a value leaves the texts what they are. -/
theorem plain?_eq_string {v : Value} {s : String} : v.plain? = some (.string s) ↔ v = .string s := by
  cases v with
  | number x =>
    cases x with
    | int n => simp [Value.plain?]
    | float x =>
      rw [Value.plain?]
      split <;> simp
  | _ => simp [Value.plain?]

theorem string_mem_plainItems? {vs ws : List Value} (h : Value.plainItems? vs = some ws)
    (s : String) : .string s ∈ ws ↔ .string s ∈ vs := by
  induction vs generalizing ws with
  | nil =>
    cases h
    rfl
  | cons v vs ih =>
    rw [Value.plainItems?] at h
    cases hv : v.plain? with
    | none =>
      rw [hv] at h
      cases h
    | some w =>
      cases hrest : Value.plainItems? vs with
      | none =>
        rw [hv, hrest] at h
        cases h
      | some us =>
        rw [hv, hrest] at h
        cases h
        have hhead : .string s = w ↔ .string s = v := by
          rw [eq_comm, ← Option.some.injEq, ← hv, plain?_eq_string, eq_comm]
        rw [List.mem_cons, List.mem_cons, ih hrest, hhead]

namespace Required

theorem isSome_ofValue? {v : Value} (h : v.isNamed) : (ofValue? v).isSome := by
  have hplain : ((Value.plain? v).map Required.other).isSome := by
    rw [Option.isSome_map, Value.isSome_plain?, h]
  unfold ofValue?
  split
  · split
    · rfl
    · exact hplain
  · rfl
  · exact hplain

/-- The names that are required are the texts in a list. -/
theorem mem_toNames_iff {v : Value} {r : Required} (h : ofValue? v = some r) (n : String) :
    n ∈ r.toNames ↔ ∃ vs, v = .list vs ∧ .string n ∈ vs := by
  unfold ofValue? at h
  split at h
  · rename_i vs
    split at h
    · rename_i ss hss
      cases h
      simpa [toNames] using mem_texts? hss n
    · obtain ⟨w, hw, rfl⟩ := Option.map_eq_some_iff.mp h
      rw [Value.plain?] at hw
      obtain ⟨ws, hws, rfl⟩ := Option.map_eq_some_iff.mp hw
      simpa [toNames, mem_textsOf] using string_mem_plainItems? hws n
  · cases h
    simp [toNames]
  · rename_i hlist _
    obtain ⟨w, hw, rfl⟩ := Option.map_eq_some_iff.mp h
    have hother : toNames (.other w) = [] := by
      cases v with
      | list vs => exact absurd rfl (hlist vs)
      | object es =>
        obtain ⟨fs, _, rfl⟩ := Option.map_eq_some_iff.mp hw
        rfl
      | number x =>
        cases x with
        | int _ =>
          cases hw
          rfl
        | float _ =>
          cases hw
          split <;> rfl
      | _ =>
        cases hw
        rfl
    rw [hother]
    refine iff_of_false List.not_mem_nil ?_
    rintro ⟨vs, rfl, _⟩
    exact hlist vs rfl

end Required

namespace Definition

/-- The definition with one more keyword, unless it cannot have this value. -/
def put? (keyword : String) (v : Value) (d : Definition) : Option Definition :=
  match fieldIndex? fields (.name keyword) with
  | some 0 => (optional TypeKeyword.ofValue? v).map fun x => { d with type := x }
  | some 1 => (optional Required.ofValue? v).map fun x => { d with required := x }
  | some 2 => (optional properties? v).map fun x => { d with properties := x }
  | _ => some d

theorem ofEntries?_cons (keyword : String) (v : Value) (es : List (Key × Value)) :
    ofEntries? ((.name keyword, v) :: es) = (ofEntries? es).bind (put? keyword v) := by
  rw [ofEntries?]
  cases ofEntries? es <;> rfl

def isObjectOrNull : Value → Bool
  | .null => true
  | .object _ => true
  | _ => false

def accepts (keyword : String) (v : Value) : Bool :=
  if keyword = "properties" then isObjectOrNull v else true

theorem isSome_properties? {v : Value} (h : v.isNamed) :
    (optional properties? v).isSome = isObjectOrNull v := by
  cases v with
  | object es =>
    rw [optional_of_ne_null _ Value.noConfusion, properties?, nodes?_eq, Option.isSome_map,
      Option.isSome_map, isSome_namedValues? (fun _ => Node.isSome_ofValue?) h]
    rfl
  | _ => rfl

theorem isSome_put? (keyword : String) {v : Value} (h : v.isNamed) (d : Definition) :
    (put? keyword v d).isSome = accepts keyword v := by
  by_cases hk : keyword ∈ fields
  · simp only [fields, List.mem_cons, List.not_mem_nil, or_false] at hk
    rcases hk with rfl | rfl | rfl
    · exact Option.isSome_map.trans (isSome_optional fun _ => TypeKeyword.isSome_ofValue? h)
    · exact Option.isSome_map.trans (isSome_optional fun _ => Required.isSome_ofValue? h)
    · exact Option.isSome_map.trans (isSome_properties? h)
  · have hother : fieldIndex? fields (.name keyword) = none := by simpa [fieldIndex?] using hk
    simp only [fields, List.mem_cons, List.not_mem_nil, or_false, not_or] at hk
    rw [put?, hother, accepts, if_neg hk.2.2]
    rfl

theorem isSome_ofEntries? {es : List (String × Value)} (h : (Value.record es).isNamed) :
    (ofEntries? (es.map fun e => (.name e.1, e.2))).isSome = es.all fun e => accepts e.1 e.2 := by
  induction es with
  | nil => rfl
  | cons e es ih =>
    rw [Value.record, List.map_cons, Value.isNamed, Value.haveNames, Bool.and_eq_true] at h
    rw [List.map_cons, ofEntries?_cons, List.all_cons, ← ih h.2]
    cases ofEntries? (es.map fun e => (.name e.1, e.2)) with
    | none => simp
    | some d => simp [isSome_put? e.1 h.1]

/-- What an object says under a name, null if it says nothing. -/
def said (es : List (String × Value)) (n : String) : Value := (get? es n).getD .null

/-- What a keyword does to the required names and to the properties. -/
structure Puts (keyword : String) (v : Value) (before after : Definition) : Prop where
  required : if keyword = "required" then optional Required.ofValue? v = some after.required
    else after.required = before.required
  properties : if keyword = "properties" then optional properties? v = some after.properties
    else after.properties = before.properties

theorem puts_of_put? {keyword : String} {v : Value} {d d' : Definition}
    (h : put? keyword v d = some d') : Puts keyword v d d' := by
  by_cases hk : keyword ∈ fields
  · simp only [fields, List.mem_cons, List.not_mem_nil, or_false] at hk
    rcases hk with rfl | rfl | rfl <;>
      obtain ⟨x, hx, rfl⟩ := Option.map_eq_some_iff.mp h <;>
      exact ⟨by simp [hx], by simp [hx]⟩
  · have hother : fieldIndex? fields (.name keyword) = none := by simpa [fieldIndex?] using hk
    rw [put?, hother] at h
    cases h
    simp only [fields, List.mem_cons, List.not_mem_nil, or_false, not_or] at hk
    exact ⟨by simp [hk], by simp [hk]⟩

theorem optional_said_cons {α : Type} {read : Value → Option α} {name keyword : String} {v : Value}
    {es : List (String × Value)} {before after : Option α}
    (hput : if keyword = name then optional read v = some after else after = before)
    (h : optional read (said es name) = some before) :
    optional read (said ((keyword, v) :: es) name) = some after := by
  rw [said, get?]
  by_cases hk : keyword = name
  · rw [if_pos hk] at hput
    rwa [if_pos hk, Option.getD_some]
  · rw [if_neg hk] at hput
    rwa [if_neg hk, hput]

/-- A definition has what its object says first. -/
theorem said_of_ofEntries? {es : List (String × Value)} {d : Definition}
    (h : ofEntries? (es.map fun e => (.name e.1, e.2)) = some d) :
    optional Required.ofValue? (said es "required") = some d.required ∧
      optional properties? (said es "properties") = some d.properties := by
  induction es generalizing d with
  | nil =>
    cases h
    exact ⟨rfl, rfl⟩
  | cons e es ih =>
    obtain ⟨keyword, v⟩ := e
    rw [List.map_cons, ofEntries?_cons] at h
    obtain ⟨rest, hrest, hput⟩ := Option.bind_eq_some_iff.mp h
    obtain ⟨hrequired, hproperties⟩ := ih hrest
    have hputs := puts_of_put? hput
    exact ⟨optional_said_cons hputs.required hrequired,
      optional_said_cons hputs.properties hproperties⟩

end Definition

end SchemaTypes.Schema
