import SchemaTypes.Finding
import SchemaTypes.Proofs.TypeScript.Expression
import SchemaTypes.Shape.Typing

/-!
# References under arrays

A shape leads to a pointer if it is a reference under any number of arrays. The
name in the type of a shape is the name at the end of that pointer, so that the
findings, which look at the pointer, see exactly what the type says.
-/

set_option autoImplicit false

namespace SchemaTypes

open TypeScript (isTypeName)
open TypeScript.TypeExpr (targets targetsAll_literals Plain)

inductive Shape.LeadsTo (pointer : String) : Shape → Prop
  | reference : LeadsTo pointer (.reference pointer)
  | array {element : Property} (h : LeadsTo pointer element.shape) :
      LeadsTo pointer (.array element)

theorem Property.pointer?_eq (p : Property) : p.pointer? = p.shape.pointer? := by
  cases p
  rfl

theorem Property.type_eq (marker : Marker) (p : Property) :
    p.type marker = p.shape.type marker := by
  cases p
  rfl

theorem Shape.leadsTo_of_pointer? {pointer : String} : ∀ {s : Shape}, s.pointer? = some pointer →
    s.LeadsTo pointer
  | .reference p, h => by
    rw [pointer?, Option.some.injEq] at h
    subst h
    exact .reference
  | .array ⟨element, _⟩, h => .array (leadsTo_of_pointer? (s := element) h)

theorem Shape.pointer?_eq_some_iff {s : Shape} {pointer : String} :
    s.pointer? = some pointer ↔ s.LeadsTo pointer := by
  constructor
  · exact leadsTo_of_pointer?
  · intro h
    induction h with
    | reference => rfl
    | array _ ih => rw [pointer?, Property.pointer?_eq, ih]

theorem lastSegment_spec (cs : List Char) : '/' ∉ lastSegment cs ∧
    (cs = lastSegment cs ∨ ∃ before, cs = before ++ '/' :: lastSegment cs) := by
  have hsplit : (cs.reverse.dropWhile (· ≠ '/')).reverse ++ lastSegment cs = cs := by
    rw [lastSegment, ← List.reverse_append, List.takeWhile_append_dropWhile, List.reverse_reverse]
  constructor
  · intro hm
    have hne := List.all_eq_true.mp List.all_takeWhile '/' (List.mem_reverse.mp hm)
    simp at hne
  · cases hd : cs.reverse.dropWhile (· ≠ '/') with
    | nil =>
      rw [hd] at hsplit
      exact Or.inl hsplit.symm
    | cons c rest =>
      have hc : c = '/' := by
        have hhead := List.head?_dropWhile_not (· ≠ '/') cs.reverse
        rw [hd] at hhead
        simpa using hhead
      rw [hd, hc] at hsplit
      exact Or.inr ⟨rest.reverse, by simpa using hsplit.symm⟩

theorem lastSegment_of_targetName? {pointer name : String} (h : targetName? pointer = some name) :
    String.ofList (lastSegment pointer.toList) = name ∧ lastSegment pointer.toList ≠ [] := by
  unfold targetName? at h
  split at h
  · cases h
  · rename_i c cs hs
    rw [hs]
    exact ⟨Option.some.inj h, by simp⟩

/-- The text after the last slash of a pointer, or the pointer itself if it has none. -/
def EndsIn (pointer segment : String) : Prop :=
  '/' ∉ segment.toList ∧
    (pointer = segment ∨ ∃ before, pointer = before ++ "/" ++ segment)

theorem takeWhile_reverse_append {segment : List Char} (h : '/' ∉ segment) (rest : List Char) :
    (segment.reverse ++ rest).takeWhile (· ≠ '/') =
      segment.reverse ++ rest.takeWhile (· ≠ '/') := by
  apply List.takeWhile_append_of_pos
  intro c hc
  rw [List.mem_reverse] at hc
  exact decide_eq_true fun heq => h (heq ▸ hc)

theorem lastSegment_append_slash {segment : List Char} (h : '/' ∉ segment)
    (before : List Char) : lastSegment (before ++ '/' :: segment) = segment := by
  have htake := takeWhile_reverse_append h ('/' :: before.reverse)
  rw [lastSegment, List.reverse_append, List.reverse_cons, List.append_assoc,
    List.singleton_append, htake]
  simp

theorem lastSegment_of_not_mem {segment : List Char} (h : '/' ∉ segment) :
    lastSegment segment = segment := by
  have htake := takeWhile_reverse_append h []
  rw [List.append_nil] at htake
  rw [lastSegment, htake]
  simp

theorem endsIn_iff {pointer segment : String} :
    EndsIn pointer segment ↔ lastSegment pointer.toList = segment.toList := by
  constructor
  · rintro ⟨hslash, rfl | ⟨before, rfl⟩⟩
    · exact lastSegment_of_not_mem hslash
    · rw [String.toList_append, String.toList_append, List.append_assoc]
      exact lastSegment_append_slash hslash before.toList
  · intro h
    obtain ⟨hslash, hsplit⟩ := lastSegment_spec pointer.toList
    rw [h] at hslash hsplit
    refine ⟨hslash, ?_⟩
    rcases hsplit with hall | ⟨before, hbefore⟩
    · exact Or.inl (String.toList_inj.mp hall)
    · refine Or.inr ⟨String.ofList before, String.toList_inj.mp ?_⟩
      simp [hbefore]

theorem targetName?_eq_some_iff {pointer name : String} :
    targetName? pointer = some name ↔ EndsIn pointer name ∧ name ≠ "" := by
  rw [endsIn_iff, targetName?]
  cases hs : lastSegment pointer.toList with
  | nil =>
    simp only [reduceCtorEq, false_iff]
    rintro ⟨h, ne⟩
    exact ne (String.toList_inj.mp h.symm)
  | cons c cs =>
    simp only [Option.some.injEq]
    constructor
    · rintro rfl
      simp
    · rintro ⟨h, _⟩
      rw [h, String.ofList_toList]

/-- A type names what its pointer ends in, and nothing else. -/
theorem Shape.targets_type (marker : Marker) : ∀ s : Shape,
    targets (s.type marker) = (s.pointer?.bind targetName?).toList
  | .primitive kind _ => by cases kind <;> rfl
  | .reference pointer => by
    rw [Shape.type, referenceType, pointer?, Option.bind_some]
    cases targetName? pointer with
    | none => rfl
    | some name => rfl
  | .array ⟨element, _⟩ => Shape.targets_type marker element
  | .enumeration values => by
    rw [Shape.type, pointer?, enumerationType.eq_def]
    split
    · rfl
    · exact targetsAll_literals _
  | .unknown => rfl

theorem Shape.mem_targets_type {marker : Marker} {s : Shape} {name : String} :
    name ∈ targets (s.type marker) ↔ ∃ pointer, s.LeadsTo pointer ∧
      targetName? pointer = some name := by
  rw [targets_type, Option.mem_toList, Option.bind_eq_some_iff]
  constructor
  · rintro ⟨pointer, hp, hn⟩
    exact ⟨pointer, pointer?_eq_some_iff.mp hp, hn⟩
  · rintro ⟨pointer, hp, hn⟩
    exact ⟨pointer, pointer?_eq_some_iff.mpr hp, hn⟩

theorem Shape.plain_type (marker : Marker) : ∀ s : Shape,
    (∀ n ∈ targets (s.type marker), isTypeName n = true) → Plain (s.type marker)
  | .primitive kind _, _ => by cases kind <;> exact .keyword _
  | .reference pointer, h => by
    rw [Shape.type, referenceType] at h ⊢
    cases ht : targetName? pointer with
    | none => exact .keyword _
    | some name =>
      rw [ht] at h
      exact .name name (h name (by simp [targets]))
  | .array ⟨element, _⟩, h => .array (Shape.plain_type marker element h)
  | .enumeration values, _ => by
    rw [Shape.type, enumerationType.eq_def]
    split
    · exact .keyword _
    · exact .texts _ (by simp)
  | .unknown, _ => .keyword _

end SchemaTypes
