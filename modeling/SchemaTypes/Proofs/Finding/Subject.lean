import SchemaTypes.Generation

/-!
# What findings are about

Each finding is about one definition, and many about one of its properties. The
findings about a definition are those that its own properties give rise to, and
depend on the other definitions by their names only: with more names known, the
references that await one of them are no longer told.
-/

set_option autoImplicit false

namespace SchemaTypes

namespace Finding

/-- The definition that a finding is about. -/
def subject : Finding → String
  | .duplicateDefinition name => name
  | .invalidTypeName name => name
  | .quotedPropertyName definition _ => definition
  | .malformedReference definition _ _ => definition
  | .unresolvedReference definition _ _ => definition

/-- The property that a finding is about, unless it is about the name of a definition. -/
def property? : Finding → Option String
  | .duplicateDefinition _ => none
  | .invalidTypeName _ => none
  | .quotedPropertyName _ property => some property
  | .malformedReference _ property _ => some property
  | .unresolvedReference _ property _ => some property

/-- Whether a finding says that one of the names is not defined. -/
def awaits (names : List String) : Finding → Bool
  | .unresolvedReference _ _ target => names.contains target
  | _ => false

end Finding

theorem subject_of_mem_propertyFindings {l : Lookup} {definition : String} {e : String × Property}
    {f : Finding} (hf : f ∈ propertyFindings l definition e) :
    f.subject = definition ∧ f.property? = some e.1 := by
  rw [propertyFindings, List.mem_append] at hf
  rcases hf with hf | hf
  · unfold keyFindings at hf
    split at hf
    · cases hf
    · rw [List.mem_singleton.mp hf]
      exact ⟨rfl, rfl⟩
  · unfold referenceFindings at hf
    split at hf
    · cases hf
    split at hf
    · rw [List.mem_singleton.mp hf]
      exact ⟨rfl, rfl⟩
    split at hf
    · rw [List.mem_singleton.mp hf]
      exact ⟨rfl, rfl⟩
    · cases hf

theorem subject_of_mem_nameFindings {name : String} {f : Finding} (hf : f ∈ nameFindings name) :
    f.subject = name ∧ f.property? = none := by
  unfold nameFindings at hf
  split at hf
  · cases hf
  · rw [List.mem_singleton.mp hf]
    exact ⟨rfl, rfl⟩

theorem subject_of_mem_definitionFindings {l : Lookup} {d : String × Definition} {f : Finding}
    (hf : f ∈ definitionFindings l d) : f.subject = d.1 := by
  rw [definitionFindings, List.mem_append, List.mem_flatMap] at hf
  rcases hf with hf | ⟨e, _, hf⟩
  · exact (subject_of_mem_nameFindings hf).1
  · exact (subject_of_mem_propertyFindings hf).1

/-- The findings about a name are those of the definitions of that name. -/
theorem filter_subject_flatMap (l : Lookup) (ds : List (String × Definition)) (n : String) :
    (ds.flatMap (definitionFindings l)).filter (·.subject = n) =
      (ds.filter (·.1 = n)).flatMap (definitionFindings l) := by
  induction ds with
  | nil => rfl
  | cons d ds ih =>
    rw [List.flatMap_cons, List.filter_append, ih]
    by_cases hd : d.1 = n
    · have hall : (definitionFindings l d).filter (·.subject = n) = definitionFindings l d := by
        rw [List.filter_eq_self]
        intro f hf
        simpa using (subject_of_mem_definitionFindings hf).trans hd
      rw [hall, List.filter_cons_of_pos (by simpa using hd), List.flatMap_cons]
    · have hnone : (definitionFindings l d).filter (·.subject = n) = [] := by
        rw [List.filter_eq_nil_iff]
        intro f hf
        rw [subject_of_mem_definitionFindings hf]
        simpa using hd
      rw [hnone, List.filter_cons_of_neg (by simpa using hd), List.nil_append]

theorem referenceFindings_malformed {pointer : String} (h : targetName? pointer = none)
    (l : Lookup) (definition property : String) :
    referenceFindings l definition property (some pointer) =
      [.malformedReference definition property pointer] := by
  simp [referenceFindings, h]

theorem referenceFindings_target {pointer target : String} (h : targetName? pointer = some target)
    (l : Lookup) (definition property : String) :
    referenceFindings l definition property (some pointer) =
      if l.checked = true ∧ target ∉ l.known then
        [.unresolvedReference definition property target] else [] := by
  simp [referenceFindings, h]

/-- A lookup that knows the names of another one and these. -/
structure Lookup.Extends (k l : Lookup) (names : List String) : Prop where
  checked : k.checked = l.checked
  known : ∀ n, n ∈ k.known ↔ n ∈ l.known ∨ n ∈ names

namespace Lookup.Extends

variable {k l : Lookup} {names : List String}

theorem referenceFindings (h : k.Extends l names) (definition property : String)
    (pointer? : Option String) :
    referenceFindings k definition property pointer? =
      (referenceFindings l definition property pointer?).filter (!·.awaits names) := by
  cases pointer? with
  | none => rfl
  | some pointer =>
    cases ht : targetName? pointer with
    | none =>
      rw [referenceFindings_malformed ht, referenceFindings_malformed ht]
      rfl
    | some target =>
      rw [referenceFindings_target ht, referenceFindings_target ht]
      simp only [h.checked, h.known]
      by_cases hn : target ∈ names
      · rw [if_neg (by simp [hn])]
        split <;> simp [Finding.awaits, hn]
      · simp only [hn, or_false]
        split <;> simp [Finding.awaits, hn]

theorem propertyFindings (h : k.Extends l names) (definition : String) (e : String × Property) :
    propertyFindings k definition e =
      (propertyFindings l definition e).filter (!·.awaits names) := by
  have hkey : (keyFindings definition e.1).filter (!·.awaits names) =
      keyFindings definition e.1 := by
    unfold keyFindings
    split <;> simp [Finding.awaits]
  rw [SchemaTypes.propertyFindings, SchemaTypes.propertyFindings, List.filter_append, hkey,
    h.referenceFindings]

theorem definitionFindings (h : k.Extends l names) (d : String × Definition) :
    definitionFindings k d = (definitionFindings l d).filter (!·.awaits names) := by
  have hname : (nameFindings d.1).filter (!·.awaits names) = nameFindings d.1 := by
    unfold nameFindings
    split <;> simp [Finding.awaits]
  rw [SchemaTypes.definitionFindings, SchemaTypes.definitionFindings, List.filter_append, hname,
    List.filter_flatMap]
  congr 2
  funext e
  exact h.propertyFindings d.1 e

end Lookup.Extends

end SchemaTypes
