import SchemaTypes.Proofs.Json.Number
import SchemaTypes.Proofs.Schema.Replacement

/-!
# Which texts are documents

A text is a document if its value is null or an object whose version markers and
catalogues have the right kinds, and nothing else in it matters. A record may also
be written as the list of the values of all its fields: such a list stands for a
document, and for the components of one, wherever an object is wanted.
-/

set_option autoImplicit false

namespace SchemaTypes

namespace Value

mutual

/-- Whether no object in the value has a key twice. -/
def isDistinct : Value → Bool
  | .list items => areDistinct items
  | .object entries => decide (entries.map Prod.fst).Nodup && haveDistinct entries
  | _ => true

def areDistinct : List Value → Bool
  | [] => true
  | v :: vs => v.isDistinct && areDistinct vs

def haveDistinct : List (Key × Value) → Bool
  | [] => true
  | (_, v) :: es => v.isDistinct && haveDistinct es

end

def IsVersion : Value → Prop
  | .string _ | .number _ => True
  | _ => False

def IsObject : Value → Prop
  | .object _ => True
  | _ => False

/-- An object in which each of these fields, if it is there, is null or fits. If
`listed`, it may also be a list of one value for each field, in their order. -/
def IsRecord (listed : Bool) (fields : List String) (fits : String → Value → Prop) : Value → Prop
  | .object es => ∀ n ∈ fields, ∀ v, (Key.name n, v) ∈ es → v = .null ∨ fits n v
  | .list vs => listed ∧ List.Forall₂ (fun n v => v = .null ∨ fits n v) fields vs
  | _ => False

def IsComponents (listed : Bool) : Value → Prop :=
  IsRecord listed Schema.Components.fields fun _ => IsObject

def FitsDocument (listed : Bool) : String → Value → Prop
  | "definitions" => IsObject
  | "components" => IsComponents listed
  | _ => IsVersion

def IsDocument (listed : Bool) (v : Value) : Prop :=
  v = .null ∨ IsRecord listed Schema.Document.fields (FitsDocument listed) v

/-- Whether a list stands for a document or for the components of one. -/
def ListsRecord : Value → Prop
  | .list _ => True
  | .object es => ∃ vs, (Key.name "components", .list vs) ∈ es
  | _ => False

theorem isComponents_false_iff (v : Value) :
    v.IsComponents false ↔ v.IsComponents true ∧ ∀ vs, v ≠ .list vs := by
  cases v with
  | list vs => exact iff_of_false (fun h => Bool.false_ne_true h.1) fun h => h.2 vs rfl
  | object es => exact (and_iff_left nofun).symm
  | _ => exact iff_of_false id fun h => h.1

theorem fitsDocument_false_iff (n : String) (v : Value) :
    v.FitsDocument false n ↔
      v.FitsDocument true n ∧ (n = "components" → ∀ vs, v ≠ .list vs) := by
  by_cases hn : n = "components"
  · subst hn
    have hfits (listed : Bool) : v.FitsDocument listed "components" ↔ v.IsComponents listed :=
      Iff.rfl
    rw [hfits, hfits, isComponents_false_iff]
    exact and_congr_right fun _ => ⟨fun h _ => h, fun h => h rfl⟩
  · have hfits : FitsDocument false n = FitsDocument true n := by
      unfold FitsDocument
      split <;> first | rfl | contradiction
    rw [hfits]
    exact (and_iff_left fun h => absurd h hn).symm

theorem isDocument_false_iff (v : Value) :
    v.IsDocument false ↔ v.IsDocument true ∧ ¬v.ListsRecord := by
  cases v with
  | null => exact iff_of_true (.inl rfl) ⟨.inl rfl, id⟩
  | list vs =>
    refine iff_of_false ?_ fun h => h.2 trivial
    rintro (h | h)
    · cases h
    · exact Bool.false_ne_true h.1
  | object es =>
    have hne : Value.object es ≠ .null := Value.noConfusion
    rw [IsDocument, IsDocument, or_iff_right hne, or_iff_right hne]
    constructor
    · intro h
      refine ⟨fun n hn v hv => ?_, ?_⟩
      · exact (h n hn v hv).imp_right fun hfits => ((fitsDocument_false_iff n v).mp hfits).1
      · rintro ⟨vs, hvs⟩
        rcases h "components" (by decide) (.list vs) hvs with hnull | hfits
        · cases hnull
        · exact ((fitsDocument_false_iff "components" (.list vs)).mp hfits).2 rfl vs rfl
    · rintro ⟨h, hlists⟩ n hn v hv
      refine (h n hn v hv).imp_right fun hfits => (fitsDocument_false_iff n v).mpr ⟨hfits, ?_⟩
      rintro rfl vs rfl
      exact hlists ⟨vs, hv⟩
  | _ =>
    refine iff_of_false ?_ fun h => ?_
    · rintro (h | h) <;> cases h
    · rcases h.1 with h | h <;> cases h

end Value

theorem Outline.mem_of_field? {fields : List (String × Outline)} {n : String} {o : Outline}
    (h : field? fields n = some o) : (n, o) ∈ fields := by
  induction fields with
  | nil => cases h
  | cons field fields ih =>
    obtain ⟨m, o'⟩ := field
    rw [field?] at h
    split at h
    · subst ‹m = n›
      cases h
      exact List.mem_cons_self
    · exact List.mem_cons_of_mem _ (ih h)

namespace Json

/-- The value of a text, if it is JSON within the limits of numbers, texts and
brackets. -/
def valueOf? (text : String) : Option Value :=
  (read false (.whole "value" fun _ => true) text).toOption

theorem valueOf?_eq (text : String) :
    valueOf? text = (form? text).bind (·.value? depthLimit) := by
  rw [valueOf?, toOption_read]
  apply Option.bind_congr
  intro f _
  have hread : f.read? depthLimit (.whole "value" fun _ => true) =
      (f.value? depthLimit).filter fun _ => true := by rw [Form.read?]
  rw [Bool.false_and, if_neg Bool.false_ne_true, hread]
  cases f.value? depthLimit <;> rfl

theorem valueOf?_of_form {text : String} {f : Form} {v : Value} (hf : form? text = some f)
    (hv : f.value? depthLimit = some v) : valueOf? text = some v := by
  rw [valueOf?_eq, hf, Option.bind_some, hv]

/-- The keys of JSON are names. -/
theorem isNamed_of_valueOf? {text : String} {v : Value} (h : valueOf? text = some v) :
    v.isNamed := by
  rw [valueOf?_eq] at h
  obtain ⟨f, -, hvalue⟩ := Option.bind_eq_some_iff.mp h
  exact Form.isNamed_of_value? hvalue

theorem isFinite_of_valueOf? {text : String} {v : Value} (h : valueOf? text = some v) :
    v.isFinite := by
  have ht := Tree.isFinite_ofChars text.toList
  unfold valueOf? read at h
  generalize Tree.ofChars text.toList = t at ht h
  obtain ⟨t, tail⟩ := t
  simp only [Bool.false_and, Bool.false_eq_true, if_false, Tree.read] at h
  cases hvalue : t.value? depthLimit with
  | error failure =>
    rw [hvalue] at h
    cases h
  | ok w =>
    rw [hvalue] at h
    cases tail with
    | none =>
      cases h
      exact ht.value? hvalue
    | some p => cases h

namespace Form

section Kinds

variable {f : Form} {depth : Nat} {v : Value}

theorem list_of_value? {vs : List Value} (h : f.value? depth = some (.list vs)) :
    ∃ items k, f = .list items ∧ depth = k + 1 ∧ values? items k = some vs := by
  match f, depth with
  | .list items, k + 1 =>
    obtain ⟨ws, hws, heq⟩ := Option.map_eq_some_iff.mp h
    cases heq
    exact ⟨items, k, rfl, rfl, hws⟩
  | .object entries, k + 1 =>
    obtain ⟨_, _, heq⟩ := Option.map_eq_some_iff.mp h
    cases heq
  | .number n, _ => cases n <;> cases h
  | .string s, _ => cases s <;> cases h

theorem object_of_value? {es : List (Key × Value)} (h : f.value? depth = some (.object es)) :
    ∃ entries k, f = .object entries ∧ depth = k + 1 ∧ entryValues? entries k = some es := by
  match f, depth with
  | .object entries, k + 1 =>
    obtain ⟨fs, hfs, heq⟩ := Option.map_eq_some_iff.mp h
    cases heq
    exact ⟨entries, k, rfl, rfl, hfs⟩
  | .list items, k + 1 =>
    obtain ⟨_, _, heq⟩ := Option.map_eq_some_iff.mp h
    cases heq
  | .number n, _ => cases n <;> cases h
  | .string s, _ => cases s <;> cases h

theorem isNull_iff_of_value? (h : f.value? depth = some v) : f.isNull ↔ v = .null := by
  have hother : f.isNull = false → v ≠ .null := by
    rintro hnull rfl
    match f, depth with
    | .list items, k + 1 => cases hvs : values? items k <;> simp [value?, hvs] at h
    | .object entries, k + 1 => cases hes : entryValues? entries k <;> simp [value?, hes] at h
    | .number n, _ => cases n <;> cases h
    | .string s, _ => cases s <;> cases h
  cases hf : f.isNull with
  | false => exact iff_of_false Bool.false_ne_true (hother hf)
  | true =>
    cases f with
    | null =>
      cases h
      exact iff_of_true rfl rfl
    | _ => cases hf

theorem read?_names_eq_none (h : f.value? depth = some v) (hobject : ∀ es, v ≠ .object es)
    (expected : String) (each : Outline) : f.read? depth (.names expected each) = none := by
  cases f with
  | object entries =>
    cases depth with
    | zero => cases h
    | succ k =>
      obtain ⟨es, _, rfl⟩ := Option.map_eq_some_iff.mp h
      exact absurd rfl (hobject es)
  | _ => cases depth <;> rfl

theorem read?_record_eq_none (h : f.value? depth = some v) (hlist : ∀ vs, v ≠ .list vs)
    (hobject : ∀ es, v ≠ .object es) (title : String) (spare : Nat)
    (fields : List (String × Outline)) : f.read? depth (.record title spare fields) = none := by
  cases f with
  | list items =>
    cases depth with
    | zero => cases h
    | succ k =>
      obtain ⟨vs, _, rfl⟩ := Option.map_eq_some_iff.mp h
      exact absurd rfl (hlist vs)
  | object entries =>
    cases depth with
    | zero => cases h
    | succ k =>
      obtain ⟨es, _, rfl⟩ := Option.map_eq_some_iff.mp h
      exact absurd rfl (hobject es)
  | _ => cases depth <;> rfl

end Kinds

/-- Of what has an outline, exactly the values that fit are read and accepted. -/
def Reads (depth : Nat) (o : Outline) (accepts : Value → Bool) (fits : Value → Prop) : Prop :=
  ∀ (f : Form) (v : Value), f.value? depth = some v → v.isFinite → v.isDistinct → v ≠ .null →
    ((f.read? depth o).any accepts ↔ fits v)

theorem Reads.field {depth : Nat} {o : Outline} {accepts : Value → Bool} {fits : Value → Prop}
    (h : Reads depth o accepts fits) (hnull : accepts .null) {f : Form} {v : Value}
    (hv : f.value? depth = some v) (hfinite : v.isFinite) (hdistinct : v.isDistinct) :
    (f.field? depth o).any accepts ↔ v = .null ∨ fits v := by
  have hiff := isNull_iff_of_value? hv
  unfold field?
  split
  · exact iff_of_true hnull (.inl (hiff.mp ‹_›))
  · have hne : v ≠ .null := fun hv => ‹¬_› (hiff.mpr hv)
    rw [h f v hv hfinite hdistinct hne, or_iff_right hne]

section Record

variable {α : Type} {find? : Value → Option α} {accepts : String → Value → Bool}
  {fits : String → Value → Prop} {depth : Nat} {fields : List (String × Outline)}

/-- What is read of an object field by field: it is accepted if each field is. -/
structure Gathers (find? : Value → Option α) (accepts : String → Value → Bool) : Prop where
  nil : (find? (.object [])).isSome
  cons : ∀ n v es, (find? (.object ((.name n, v) :: es))).isSome =
    (accepts n v && (find? (.object es)).isSome)
  null : ∀ n, accepts n .null

theorem Gathers.cons? (h : Gathers find? accepts) (n : String) (x : Option Value)
    (rest : Option (List (Key × Value))) :
    (((cons? (x.map (Key.name n, ·)) rest).map Value.object).bind find?).isSome =
      (x.any (accepts n) && ((rest.map Value.object).bind find?).isSome) := by
  cases x with
  | none => rfl
  | some v =>
    cases rest with
    | none => exact (Bool.and_false _).symm
    | some es => exact h.cons n v es

/-- An object is accepted as a record if each of its fields is null or fits. -/
theorem Gathers.readFields? (h : Gathers find? accepts)
    (hreads : ∀ n o, (n, o) ∈ fields → Reads depth o (accepts n) (fits n))
    {es : List (Option String × Form)} {vs : List (Key × Value)}
    (hvs : entryValues? es depth = some vs) (hfinite : Value.haveFinite vs)
    (hdistinct : Value.haveDistinct vs) (hnodup : (vs.map Prod.fst).Nodup) {seen : List String}
    (hseen : ∀ n ∈ seen, Key.name n ∉ vs.map Prod.fst) :
    (((readFields? es depth fields seen).map Value.object).bind find?).isSome ↔
      ∀ n ∈ fields.map Prod.fst, ∀ v, (Key.name n, v) ∈ vs → v = .null ∨ fits n v := by
  induction es generalizing vs seen with
  | nil =>
    cases hvs
    exact iff_of_true h.nil fun _ _ _ hv => by cases hv
  | cons e es ih =>
    obtain ⟨k, f⟩ := e
    cases k with
    | none => cases hvs
    | some name =>
      obtain ⟨w, ws, hw, hws, rfl⟩ := cons?_eq_some_iff.mp hvs
      obtain ⟨v, hv, rfl⟩ := Option.map_eq_some_iff.mp hw
      rw [Value.haveFinite, Bool.and_eq_true] at hfinite
      rw [Value.haveDistinct, Bool.and_eq_true] at hdistinct
      rw [List.map_cons, List.nodup_cons] at hnodup
      cases ho : Outline.field? fields name with
      | none =>
        rw [readFields?_of_unknown ho, ih hws hfinite.2 hdistinct.2 hnodup.2
          fun n hn hmem => hseen n hn (List.mem_cons_of_mem _ hmem)]
        refine forall₂_congr fun n hn => forall_congr' fun u => ?_
        have hne : n ≠ name := by
          rintro rfl
          obtain ⟨o, ho', _⟩ := Outline.field?_of_mem hn
          rw [ho] at ho'
          cases ho'
        simp [hne]
      | some o =>
        have hmem := Outline.mem_of_field? ho
        have hfresh : ¬seen.contains name := fun hc =>
          hseen name (List.contains_iff_mem.mp hc) List.mem_cons_self
        have hfield := (hreads name o hmem).field (h.null name) hv hfinite.1 hdistinct.1
        have hseen' : ∀ n ∈ name :: seen, Key.name n ∉ ws.map Prod.fst := by
          intro n hn
          rcases List.mem_cons.mp hn with rfl | hn
          · exact hnodup.1
          · exact fun hmem => hseen n hn (List.mem_cons_of_mem _ hmem)
        have hrest := ih hws hfinite.2 hdistinct.2 hnodup.2 hseen'
        rw [readFields?_of_fresh ho hfresh, h.cons?, Bool.and_eq_true, hfield, hrest]
        constructor
        · rintro ⟨hhere, hthere⟩ n hn u hu
          rcases List.mem_cons.mp hu with heq | hu
          · cases heq
            exact hhere
          · exact hthere n hn u hu
        · intro hall
          refine ⟨hall name (List.mem_map_of_mem hmem) v List.mem_cons_self, ?_⟩
          exact fun n hn u hu => hall n hn u (List.mem_cons_of_mem _ hu)

/-- A list is accepted as a record if it has a value for each field. -/
theorem Gathers.readItems? (h : Gathers find? accepts)
    (hreads : ∀ n o, (n, o) ∈ fields → Reads depth o (accepts n) (fits n))
    {fs : List Form} {vs : List Value} (hvs : values? fs depth = some vs)
    (hfinite : Value.areFinite vs) (hdistinct : Value.areDistinct vs) {spare index : Nat}
    (hspare : fields ≠ [] → spare < index + fields.length) :
    (((readItems? fs depth spare index fields).map Value.object).bind find?).isSome ↔
      List.Forall₂ (fun n v => v = .null ∨ fits n v) (fields.map Prod.fst) vs := by
  induction fs generalizing vs index fields with
  | nil =>
    cases hvs
    cases fields with
    | nil =>
      have hread : Form.readItems? [] depth spare index [] = some [] :=
        if_neg (Nat.not_lt.mpr (Nat.le_max_left index spare))
      rw [hread]
      exact iff_of_true h.nil .nil
    | cons field fields =>
      have hread : Form.readItems? [] depth spare index (field :: fields) = none := by
        refine if_pos ?_
        have hlt := hspare (List.cons_ne_nil _ _)
        rw [List.length_cons] at hlt ⊢
        omega
      rw [hread]
      exact iff_of_false Bool.false_ne_true nofun
  | cons f fs ih =>
    obtain ⟨v, ws, hv, hws, rfl⟩ := cons?_eq_some_iff.mp hvs
    rw [Value.areFinite, Bool.and_eq_true] at hfinite
    rw [Value.areDistinct, Bool.and_eq_true] at hdistinct
    cases fields with
    | nil => exact iff_of_false Bool.false_ne_true nofun
    | cons field fields =>
      obtain ⟨n, o⟩ := field
      have hspare' : fields ≠ [] → spare < index + 1 + fields.length := by
        have hlt := hspare (List.cons_ne_nil _ _)
        rw [List.length_cons] at hlt
        omega
      have hfield := (hreads n o List.mem_cons_self).field (h.null n) hv hfinite.1 hdistinct.1
      have hrest := ih (fun n o ho => hreads n o (List.mem_cons_of_mem _ ho)) hws hfinite.2
        hdistinct.2 hspare'
      have hcons : Form.readItems? (f :: fs) depth spare index ((n, o) :: fields) =
          Json.cons? ((f.field? depth o).map (Key.name n, ·))
            (Form.readItems? fs depth spare (index + 1) fields) := rfl
      rw [hcons, h.cons?, Bool.and_eq_true, hfield, hrest, List.map_cons, List.forall₂_cons]

theorem Gathers.reads_record (h : Gathers find? accepts)
    (hreads : ∀ n o, (n, o) ∈ fields → Reads depth o (accepts n) (fits n)) (title : String)
    {spare : Nat} (hspare : spare < fields.length) {acceptsAll : Value → Bool}
    (hall : ∀ es, acceptsAll (.object es) = (find? (.object es)).isSome) :
    Reads (depth + 1) (.record title spare fields) acceptsAll
      (Value.IsRecord true (fields.map Prod.fst) fits) := by
  have hany : ∀ r : Option (List (Key × Value)),
      (r.map Value.object).any acceptsAll = ((r.map Value.object).bind find?).isSome := by
    intro r
    cases r with
    | none => rfl
    | some es => exact hall es
  intro f v hv hfinite hdistinct _
  cases v with
  | list vs =>
    obtain ⟨items, k, rfl, heq, hvs⟩ := list_of_value? hv
    cases heq
    have hspare' : fields ≠ [] → spare < 0 + fields.length := fun _ => by omega
    have hitems := h.readItems? hreads hvs hfinite hdistinct hspare'
    have hread : (Form.list items).read? (depth + 1) (.record title spare fields) =
      (Form.readItems? items depth spare 0 fields).map Value.object := rfl
    rw [hread, hany, hitems]
    exact (and_iff_right rfl).symm
  | object es =>
    obtain ⟨entries, k, rfl, heq, hes⟩ := object_of_value? hv
    cases heq
    rw [Value.isDistinct, Bool.and_eq_true, decide_eq_true_iff] at hdistinct
    have hfields := h.readFields? hreads hes hfinite hdistinct.2 hdistinct.1
      fun n hn => absurd hn List.not_mem_nil
    have hread : (Form.object entries).read? (depth + 1) (.record title spare fields) =
      (Form.readFields? entries depth fields []).map Value.object := rfl
    rw [hread, hany, hfields]
    rfl
  | _ =>
    rw [read?_record_eq_none hv nofun nofun]
    exact iff_of_false Bool.false_ne_true id

end Record

section Document

open Schema (Definition Components Document version? optional catalogueOfValue? namedValues?)

variable {depth : Nat}

theorem reads_version (kind : String) :
    Reads depth (.whole kind fun v => (version? v).isSome) (fun v => (optional version? v).isSome)
      Value.IsVersion := by
  intro f v hv hfinite _ hnull
  have hread : f.read? depth (.whole kind fun v => (version? v).isSome) =
      (f.value? depth).filter fun v => (version? v).isSome := by rw [read?]
  have haccepts : (version? v).isSome ↔ v.IsVersion := by
    cases v with
    | number n =>
      cases n with
      | int n => exact iff_of_true rfl trivial
      | float x =>
        have hx : x.isFinite := hfinite
        rw [version?, if_pos hx]
        exact iff_of_true rfl trivial
    | string s => exact iff_of_true rfl trivial
    | _ => exact iff_of_false Bool.false_ne_true id
  rw [hread, hv, Option.filter_some, ← haccepts]
  split
  · rw [Option.any_some, Schema.optional_of_ne_null _ hnull, Option.isSome_map]
  · exact iff_of_false Bool.false_ne_true ‹_›

/-- Whatever its keys and values are, an object can be a catalogue. -/
theorem readNames?_definition {es : List (Option String × Form)} {vs : List (Key × Value)}
    (h : entryValues? es depth = some vs) (kind : String) :
    readNames? es depth (.whole kind fun v => (Definition.tolerant? v).isSome) = some vs := by
  induction es generalizing vs with
  | nil => exact h
  | cons e es ih =>
    obtain ⟨k, f⟩ := e
    cases k with
    | none => cases h
    | some k =>
      obtain ⟨w, ws, hw, hws, rfl⟩ := cons?_eq_some_iff.mp h
      obtain ⟨v, hv, rfl⟩ := Option.map_eq_some_iff.mp hw
      have htolerant := Definition.isSome_tolerant? (isNamed_of_value? hv)
      have hread : f.read? depth (.whole kind fun v => (Definition.tolerant? v).isSome) =
          some v := by
        rw [read?, hv, Option.filter_some, if_pos htolerant]
      rw [readNames?, hread, ih hws]
      rfl

theorem isSome_catalogue {es : List (Key × Value)} (h : Value.haveNames es) :
    (catalogueOfValue? (.object es)).isSome := by
  rw [catalogueOfValue?, Option.isSome_map, Schema.catalogueEntries?_eq]
  exact Schema.isSome_namedValues? (fun _ => Definition.isSome_tolerant?) h

theorem reads_catalogue :
    Reads depth Document.catalogueOutline (fun v => (optional catalogueOfValue? v).isSome)
      Value.IsObject := by
  intro f v hv _ _ _
  cases v with
  | object es =>
    obtain ⟨entries, k, rfl, rfl, hes⟩ := object_of_value? hv
    have hread : (Form.object entries).read? (k + 1) Document.catalogueOutline =
        some (.object es) := by
      rw [Document.catalogueOutline, read?, readNames?_definition hes]
      rfl
    rw [hread, Option.any_some, Schema.optional_of_ne_null _ Value.noConfusion, Option.isSome_map]
    exact iff_of_true (isSome_catalogue (haveNames_of_entryValues? hes)) trivial
  | _ =>
    rw [Document.catalogueOutline, read?_names_eq_none hv nofun]
    exact iff_of_false Bool.false_ne_true id

theorem gathers_components :
    Gathers Components.ofValue? fun n v => (Components.put? (.name n) v {}).isSome where
  nil := rfl
  cons n v es := by
    change (Components.ofEntries? ((.name n, v) :: es)).isSome =
      (_ && (Components.ofEntries? es).isSome)
    rw [Components.ofEntries?_cons]
    cases Components.ofEntries? es with
    | none => exact (Bool.and_false _).symm
    | some c =>
      rw [Option.bind_some, Option.isSome_some, Bool.and_true]
      unfold Components.put?
      split <;> simp
  null n := by
    unfold Components.put?
    split <;> rfl

theorem gathers_document :
    Gathers Document.ofValue? fun n v => (Document.put? (.name n) v {}).isSome where
  nil := rfl
  cons n v es := by
    change (Document.ofEntries? ((.name n, v) :: es)).isSome =
      (_ && (Document.ofEntries? es).isSome)
    rw [Document.ofEntries?_cons]
    cases Document.ofEntries? es with
    | none => exact (Bool.and_false _).symm
    | some d =>
      rw [Option.bind_some, Option.isSome_some, Bool.and_true]
      unfold Document.put?
      split <;> simp
  null n := by
    unfold Document.put?
    split <;> rfl

theorem accepts_schemas (v : Value) :
    (Components.put? (.name "schemas") v {}).isSome = (optional catalogueOfValue? v).isSome := by
  have hindex : Schema.fieldIndex? Components.fields (.name "schemas") = some 0 := by decide
  simp only [Components.put?, hindex, Option.isSome_map]

theorem reads_components :
    Reads (depth + 1) (.record "Components" 0 [("schemas", Document.catalogueOutline)])
      (fun v => (optional Components.ofValue? v).isSome) (Value.IsComponents true) := by
  refine gathers_components.reads_record ?_ "Components" (by decide) fun es => ?_
  · intro n o hmem
    obtain ⟨rfl, rfl⟩ := Prod.mk.inj (List.mem_singleton.mp hmem)
    simp only [accepts_schemas]
    exact reads_catalogue
  · rw [Schema.optional_of_ne_null _ Value.noConfusion, Option.isSome_map]

theorem reads_document :
    Reads (depth + 2) Document.outline (fun v => (Document.ofValue? v).isSome)
      (Value.IsRecord true Document.fields (Value.FitsDocument true)) := by
  have hswagger : Schema.fieldIndex? Document.fields (.name "swagger") = some 0 := by decide
  have hopenapi : Schema.fieldIndex? Document.fields (.name "openapi") = some 1 := by decide
  have hdefinitions : Schema.fieldIndex? Document.fields (.name "definitions") = some 2 := by
    decide
  have hcomponents : Schema.fieldIndex? Document.fields (.name "components") = some 3 := by
    decide
  refine gathers_document.reads_record ?_ "SchemaDocument" (by decide) fun es => rfl
  intro n o hmem
  simp only [List.mem_cons, List.not_mem_nil, or_false, Prod.mk.injEq] at hmem
  obtain ⟨rfl, rfl⟩ | ⟨rfl, rfl⟩ | ⟨rfl, rfl⟩ | ⟨rfl, rfl⟩ := hmem
  · simp only [Document.put?, hswagger, Option.isSome_map]
    exact reads_version "Version"
  · simp only [Document.put?, hopenapi, Option.isSome_map]
    exact reads_version "Version"
  · simp only [Document.put?, hdefinitions, Option.isSome_map]
    exact reads_catalogue
  · simp only [Document.put?, hcomponents, Option.isSome_map]
    exact reads_components

theorem isSome_document?_iff {f : Form} {v : Value} (hv : f.value? depthLimit = some v)
    (hfinite : v.isFinite) (hdistinct : v.isDistinct) :
    f.document?.isSome ↔ v.IsDocument true := by
  have hiff := isNull_iff_of_value? hv
  unfold document?
  split
  · exact iff_of_true rfl (.inl (hiff.mp ‹_›))
  · have hne : v ≠ .null := fun hnull => ‹¬_› (hiff.mpr hnull)
    have hread := @reads_document 125 f v hv hfinite hdistinct hne
    rw [Option.isSome_bind, Value.IsDocument, or_iff_right hne]
    exact hread

end Document

end Form

end Json

namespace Schema

/-- Exactly the texts whose value is a document are read, and of these exactly those
in which a list stands for a record are not what a document looks like. -/
theorem Document.isOk_parse_iff {text : String} {v : Value} (hv : Json.valueOf? text = some v)
    (hdistinct : v.isDistinct) :
    ((Document.parse .json text).isOk ↔ v.IsDocument true) ∧
      (v.IsDocument false ↔ v.IsDocument true ∧ ¬v.ListsRecord) := by
  refine ⟨?_, v.isDocument_false_iff⟩
  have hfinite := Json.isFinite_of_valueOf? hv
  rw [Json.valueOf?_eq] at hv
  obtain ⟨f, hf, hvalue⟩ := Option.bind_eq_some_iff.mp hv
  have hparse := Json.toOption_parse text
  rw [hf, Option.bind_some] at hparse
  rw [← Json.Form.isSome_document?_iff hvalue hfinite hdistinct, ← hparse]
  cases Document.parse .json text <;> exact Iff.rfl

/-- A version that is a number, and a definition that is one. -/
theorem Document.isOk_parse_iff_numbers :
    let text := "\x7b\x22swagger\x22:2,\x22definitions\x22:\x7b\x22Pet\x22:5\x7d\x7d"
    let v : Value := .object [(.name "swagger", .number (.int 2)),
      (.name "definitions", .object [(.name "Pet", .number (.int 5))])]
    Json.valueOf? text = some v ∧ v.isDistinct ∧
      ((Document.parse .json text).isOk ↔ v.IsDocument true) ∧
      (v.IsDocument false ↔ v.IsDocument true ∧ ¬v.ListsRecord) := by
  intro text v
  have hform : Json.form? text = some (.object [(some "swagger", .number (some (.int 2))),
      (some "definitions", .object [(some "Pet", .number (some (.int 5)))])]) := by
    decide +kernel
  have hv : Json.valueOf? text = some v := Json.valueOf?_of_form hform rfl
  have hdistinct : v.isDistinct := by decide
  exact ⟨hv, hdistinct, Document.isOk_parse_iff hv hdistinct⟩

/-- Four values in a list are a document, although they do not look like one. -/
theorem Document.isOk_parse_list :
    ¬ ∀ (text : String) (v : Value), Json.valueOf? text = some v → v.isDistinct →
      ((Document.parse .json text).isOk ↔ v.IsDocument false) := by
  intro h
  let v : Value := .list [.null, .null, .null, .null]
  have hform : Json.form? "[null,null,null,null]" =
      some (.list [.null, .null, .null, .null]) := by decide +kernel
  have hv : Json.valueOf? "[null,null,null,null]" = some v := Json.valueOf?_of_form hform rfl
  have hok : (Document.parse .json "[null,null,null,null]").isOk := by decide +kernel
  have hdocument := (h _ v hv rfl).mp hok
  rw [Value.isDocument_false_iff] at hdocument
  exact hdocument.2 trivial

end Schema

end SchemaTypes
