import SchemaTypes.Schema.Document

/-!
# What can be read

A value in which all keys are names, as every value of JSON is, can be read as a
schema and as a definition, whatever it is. Reading looks at it keyword by
keyword, and what does not fit is kept as it is.
-/

set_option autoImplicit false

namespace SchemaTypes

namespace Value

mutual

/-- Whether every key is a name, at any depth. -/
def isNamed : Value → Bool
  | .list items => areNamed items
  | .object entries => haveNames entries
  | _ => true

def areNamed : List Value → Bool
  | [] => true
  | v :: vs => isNamed v && areNamed vs

def haveNames : List (Key × Value) → Bool
  | [] => true
  | (.name _, v) :: es => isNamed v && haveNames es
  | _ :: _ => false

end

mutual

theorem isSome_plain? (v : Value) : (plain? v).isSome = v.isNamed := by
  cases v with
  | null => rfl
  | bool b => rfl
  | number n => cases n <;> rfl
  | string s => rfl
  | list items => rw [plain?, Option.isSome_map, isNamed, isSome_plainItems?]
  | object entries => rw [plain?, Option.isSome_map, isNamed, isSome_plainEntries?]

theorem isSome_plainItems? (vs : List Value) : (plainItems? vs).isSome = areNamed vs := by
  cases vs with
  | nil => rfl
  | cons v vs =>
    rw [areNamed, ← isSome_plain? v, ← isSome_plainItems? vs, plainItems?]
    cases plain? v <;> cases plainItems? vs <;> rfl

theorem isSome_plainEntries? (es seen : List (Key × Value)) :
    (plainEntries? es seen).isSome = haveNames es := by
  match es with
  | [] => rfl
  | (.name s, v) :: es =>
    rw [haveNames, ← isSome_plain? v, plainEntries?]
    cases plain? v with
    | none => rfl
    | some w => exact (isSome_plainEntries? es _).trans (Bool.true_and _).symm
  | (.position n, v) :: es => rfl
  | (.other, v) :: es => rfl

end

end Value

namespace Schema

theorem TypeKeyword.isSome_ofValue? {v : Value} (h : v.isNamed) : (ofValue? v).isSome := by
  have hplain : ((Value.plain? v).map TypeKeyword.other).isSome := by
    rw [Option.isSome_map, Value.isSome_plain?, h]
  unfold ofValue?
  split
  · rfl
  · split
    · rfl
    · exact hplain
  · exact hplain

theorem Node.isSome_ofList? {vs : List Value} (h : Value.areNamed vs) : (ofList? vs).isSome := by
  unfold ofList?
  split
  · rfl
  · rw [Option.isSome_map, Value.isSome_plain?, Value.isNamed, h]

theorem Node.isSome_ofEntries? {es : List (Key × Value)} (h : Value.haveNames es) :
    (ofEntries? es).isSome := by
  unfold ofEntries?
  split
  · rfl
  · rw [Option.isSome_map, Value.isSome_plain?, Value.isNamed, h]

theorem Node.isSome_ofValue? {v : Value} (h : v.isNamed) : (ofValue? v).isSome := by
  unfold ofValue?
  split
  · exact Node.isSome_ofEntries? h
  · exact Node.isSome_ofList? h
  · rfl
  · rw [Option.isSome_map, Value.isSome_plain?, h]

theorem Node.isSome_ofValues? {vs : List Value} (h : Value.areNamed vs) :
    (ofValues? vs).isSome := by
  induction vs with
  | nil =>
    rw [ofValues?]
    rfl
  | cons v vs ih =>
    rw [Value.areNamed, Bool.and_eq_true] at h
    obtain ⟨n, hn⟩ := Option.isSome_iff_exists.mp (Node.isSome_ofValue? h.1)
    obtain ⟨ns, hns⟩ := Option.isSome_iff_exists.mp (ih h.2)
    rw [ofValues?, hn, hns]
    rfl

theorem Items.isSome_ofOptional? {v : Value} (h : v.isNamed) : (ofOptional? v).isSome := by
  unfold ofOptional?
  split
  · rfl
  · rename_i vs
    obtain ⟨ns, hns⟩ := Option.isSome_iff_exists.mp (Node.isSome_ofValues? h)
    rw [hns]
    rfl
  · rw [Option.isSome_map]
    exact Node.isSome_ofEntries? h
  · rfl
  · rw [Option.isSome_map, Value.isSome_plain?, h]

/-- Nothing in the place of a definition is an error. -/
theorem Definition.isSome_tolerant? {v : Value} (h : v.isNamed) : (tolerant? v).isSome := by
  unfold tolerant?
  split
  · rfl
  · rw [Option.isSome_map, Value.isSome_plain?, h]

end Schema

end SchemaTypes
