import SchemaTypes.Proofs.Json.Replacement
import SchemaTypes.Proofs.Merging.History

/-!
# Definitions that differ in one place

What a replaced value does to the document that is read: a replaced property
changes that property, a replaced definition changes that definition, and all
names keep their places.
-/

set_option autoImplicit false

namespace SchemaTypes.Schema

open Entries (Alike Replaced)
open Value (AtField)

theorem optional_of_ne_null {α : Type} (read : Value → Option α) {v : Value} (h : v ≠ .null) :
    optional read v = (read v).map some := by
  cases v with
  | null => exact absurd rfl h
  | _ => rfl

theorem ne_null_of_atField {fields : List String} {n : String} {R : Value → Value → Prop}
    {v w : Value} (h : AtField fields n R v w) : v ≠ .null ∧ w ≠ .null := by
  cases h <;> exact ⟨Value.noConfusion, Value.noConfusion⟩

/-- A field that is there is read as what it is. -/
theorem carries_optional {α : Type} {read : Value → Option α} {S : Value → Value → Prop}
    {T : α → α → Prop} (h : Carries read S T) (hnull : ∀ v w, S v w → v ≠ .null ∧ w ≠ .null) :
    Carries (optional read) S (Option.Rel T) := by
  intro v w x hvw hx
  obtain ⟨hv, hw⟩ := hnull v w hvw
  rw [optional_of_ne_null read hv] at hx
  rw [optional_of_ne_null read hw]
  exact h.map (fun _ _ hT => .some hT) hvw hx

theorem isRecord_replaced {R : Value → Value → Prop} {k : Key} (fields : List String)
    {es fs : List (Key × Value)} (h : Replaced R k es fs) (seen : List Nat) :
    isRecord fields es seen = isRecord fields fs seen := by
  induction h generalizing seen with
  | here _ => cases k <;> rfl
  | @there e _ _ _ ih =>
    obtain ⟨k', v⟩ := e
    cases k' with
    | other => rfl
    | _ => simp only [isRecord, ih]

structure Definition.AlikeBut (p : String) (d d' : Definition) : Prop where
  required : d.required = d'.required
  properties : Option.Rel (Alike fun q a b => q ≠ p → a = b) d.properties d'.properties

structure Catalogue.Alike (T : String → Definition → Definition → Prop) (c c' : Catalogue) :
    Prop where
  entries : Entries.Alike T c.entries c'.entries
  repeats : c.repeats = c'.repeats

structure Components.Alike (T : String → Definition → Definition → Prop) (c c' : Components) :
    Prop where
  schemas : Option.Rel (Catalogue.Alike T) c.schemas c'.schemas

structure Document.Alike (T : String → Definition → Definition → Prop) (d d' : Document) :
    Prop where
  definitions : Option.Rel (Catalogue.Alike T) d.definitions d'.definitions
  components : Option.Rel (Components.Alike T) d.components d'.components

/-- The values of named entries, one by one. -/
def namedValues? {α : Type} (read : Value → Option α) :
    List (Key × Value) → Option (List (String × α))
  | [] => some []
  | (.name s, v) :: es => Json.cons? ((read v).map (s, ·)) (namedValues? read es)
  | _ :: _ => none

theorem nodes?_eq (es : List (Key × Value)) : nodes? es = namedValues? Node.ofValue? es := by
  induction es with
  | nil => rfl
  | cons e es ih =>
    obtain ⟨k, v⟩ := e
    cases k with
    | name s =>
      rw [nodes?, namedValues?, ih]
      cases Node.ofValue? v <;> cases namedValues? Node.ofValue? es <;> rfl
    | _ => rfl

theorem catalogueEntries?_eq (es : List (Key × Value)) :
    catalogueEntries? es = namedValues? Definition.tolerant? es := by
  induction es with
  | nil => rfl
  | cons e es ih =>
    obtain ⟨k, v⟩ := e
    cases k with
    | name s =>
      rw [catalogueEntries?, namedValues?, ih]
      cases Definition.tolerant? v <;> cases namedValues? Definition.tolerant? es <;> rfl
    | _ => rfl

theorem carries_namedValues? {α : Type} {read : Value → Option α} {S : Value → Value → Prop}
    {T : α → α → Prop} (h : Carries read S T) (n : String) :
    Carries (namedValues? read) (Replaced S (.name n)) (Replaced T n) := by
  intro es fs xs hes hxs
  induction hes generalizing xs with
  | here hvw => exact h.here hvw hxs
  | @there e es fs _ ih =>
    obtain ⟨k, v⟩ := e
    cases k with
    | name s => exact Replaced.there_of_cons? (fun _ h => ih h) hxs
    | _ => cases hxs

theorem isSome_namedValues? {α : Type} {read : Value → Option α}
    (h : ∀ v : Value, v.isNamed → (read v).isSome) {es : List (Key × Value)}
    (hes : Value.haveNames es) : (namedValues? read es).isSome := by
  induction es with
  | nil => rfl
  | cons e es ih =>
    obtain ⟨k, v⟩ := e
    cases k with
    | name s =>
      rw [Value.haveNames, Bool.and_eq_true] at hes
      rw [namedValues?, Json.isSome_cons?, Option.isSome_map, h v hes.1, ih hes.2]
      rfl
    | _ => cases hes

section Property

variable {p : String}

def Named (v w : Value) : Prop := v.isNamed ∧ w.isNamed

theorem carries_properties? : Carries properties? (AtField [] p Named)
    (Alike fun q a b => q ≠ p → a = b) := by
  have hnode : Carries Node.ofValue? Named fun _ _ => True := by
    intro v w n hvw _
    obtain ⟨m, hm⟩ := Option.isSome_iff_exists.mp (Node.isSome_ofValue? hvw.2)
    exact ⟨m, hm, trivial⟩
  intro v w ns hvw hns
  cases hvw with
  | entry hes =>
    obtain ⟨es, hes', rfl⟩ := Option.map_eq_some_iff.mp hns
    rw [nodes?_eq] at hes'
    obtain ⟨fs, hfs, hreplaced⟩ := carries_namedValues? hnode p hes hes'
    have halike : Alike (fun q a b => q ≠ p → a = b) es fs :=
      hreplaced.alike.mono fun q a b hab hq => hab.resolve_right fun h => hq h.1
    refine ⟨Entries.ofList fs, ?_, halike.ofList⟩
    rw [properties?, nodes?_eq, hfs]
    rfl
  | item hplace _ => cases hplace

theorem rel_properties? {v w : Value} (h : AtField [] p Named v w) (hv : v.isNamed) :
    ∃ x y, optional properties? v = some x ∧ optional properties? w = some y ∧
      Option.Rel (Alike fun q a b => q ≠ p → a = b) x y := by
  have hsome : (optional properties? v).isSome := by
    cases h with
    | entry _ =>
      rw [optional_of_ne_null _ Value.noConfusion, Option.isSome_map, properties?,
        Option.isSome_map, nodes?_eq]
      exact isSome_namedValues? (fun _ => Node.isSome_ofValue?) hv
    | item hplace _ => cases hplace
  obtain ⟨x, hx⟩ := Option.isSome_iff_exists.mp hsome
  obtain ⟨y, hy, hxy⟩ := carries_optional carries_properties? (fun _ _ => ne_null_of_atField) h hx
  exact ⟨x, y, hx, hy, hxy⟩

namespace Definition

theorem AlikeBut.refl (p : String) (d : Definition) : AlikeBut p d d := by
  refine ⟨rfl, ?_⟩
  cases d.properties with
  | none => exact .none
  | some ns => exact .some (.refl (fun _ _ _ => rfl) ns)

/-- Where one of the two cannot be a definition, the other one cannot be either. -/
theorem rel_ofEntries? {es fs : List (Key × Value)}
    (h : Replaced (fun v w => AtField [] p Named v w ∧ Named v w) (.name "properties") es fs) :
    Option.Rel (AlikeBut p) (ofEntries? es) (ofEntries? fs) := by
  induction h with
  | @here v w es hvw =>
    obtain ⟨x, y, hx, hy, hxy⟩ := rel_properties? hvw.1 hvw.2.1
    have hindex : fieldIndex? fields (.name "properties") = some 2 := by decide
    rw [ofEntries?, ofEntries?]
    cases ofEntries? es with
    | none => exact .none
    | some d =>
      simp only [hindex, hx, hy, Option.map_some]
      exact .some ⟨rfl, hxy⟩
  | @there e es fs _ ih =>
    obtain ⟨k, v⟩ := e
    rw [ofEntries?, ofEntries?]
    generalize ofEntries? es = d, ofEntries? fs = d' at ih ⊢
    cases ih with
    | none => exact .none
    | some hd =>
      dsimp only
      split
      · cases optional TypeKeyword.ofValue? v with
        | none => exact .none
        | some x => exact .some ⟨hd.required, hd.properties⟩
      · cases optional Required.ofValue? v with
        | none => exact .none
        | some x => exact .some ⟨rfl, hd.properties⟩
      · cases optional properties? v with
        | none => exact .none
        | some x => exact .some ⟨hd.required, (AlikeBut.refl p { properties := x }).properties⟩
      · exact .some hd

theorem rel_ofList? {before after : List Value} {v w : Value}
    (hplace : fields[before.length]? = some "properties")
    (h : AtField [] p Named v w ∧ Named v w) :
    Option.Rel (AlikeBut p) (ofList? (before ++ v :: after)) (ofList? (before ++ w :: after)) := by
  match before with
  | [] => exact absurd hplace (by decide)
  | [_] =>
    have hsecond : some "required" = some "properties" := hplace
    exact absurd hsecond (by decide)
  | _ :: _ :: _ :: _ => cases hplace
  | [type, required] =>
    obtain ⟨x, y, hx, hy, hxy⟩ := rel_properties? h.1 h.2.1
    cases after with
    | cons _ _ => exact .none
    | nil =>
      simp only [List.cons_append, List.nil_append, ofList?, hx, hy]
      cases optional TypeKeyword.ofValue? type with
      | none => exact .none
      | some _ =>
        cases optional Required.ofValue? required with
        | none => exact .none
        | some _ => exact .some ⟨rfl, hxy⟩

/-- Nothing that is put in the place of a property reaches beyond it. -/
theorem carries_tolerant? :
    Carries tolerant?
      (fun v w => AtField fields "properties" (fun v w => AtField [] p Named v w ∧ Named v w) v w ∧
        Named v w) (AlikeBut p) := by
  intro v w d hvw hd
  have hrel : Option.Rel (AlikeBut p) (ofValue? v) (ofValue? w) := by
    cases hvw.1 with
    | entry hes =>
      rw [ofValue?, ofValue?, isRecord_replaced fields hes]
      split
      · exact rel_ofEntries? hes
      · exact .none
    | item hplace h => exact rel_ofList? hplace h
  rw [tolerant?] at hd ⊢
  generalize ofValue? v = x, ofValue? w = y at hrel hd ⊢
  cases hrel with
  | none =>
    obtain ⟨_, _, rfl⟩ := Option.map_eq_some_iff.mp hd
    obtain ⟨u, hu⟩ := Option.isSome_iff_exists.mp ((Value.isSome_plain? w).trans hvw.2.2)
    exact ⟨{}, by rw [hu]; rfl, .refl p {}⟩
  | some hxy =>
    cases hd
    exact ⟨_, rfl, hxy⟩

end Definition

end Property

section Definition

variable {S : Value → Value → Prop} {T : Definition → Definition → Prop} {n : String}

theorem carries_catalogue (h : Carries Definition.tolerant? S T) :
    Carries catalogueOfValue? (AtField [] n S)
      (Catalogue.Alike fun m d d' => d = d' ∨ m = n ∧ T d d') := by
  intro v w c hvw hc
  cases hvw with
  | entry hes =>
    obtain ⟨es, hes', rfl⟩ := Option.map_eq_some_iff.mp hc
    rw [catalogueEntries?_eq] at hes'
    obtain ⟨fs, hfs, hreplaced⟩ := carries_namedValues? h n hes hes'
    refine ⟨Catalogue.ofList fs, ?_, ?_, ?_⟩
    · rw [catalogueOfValue?, catalogueEntries?_eq, hfs]
      rfl
    · rw [Catalogue.entries_ofList, Catalogue.entries_ofList]
      exact hreplaced.alike.ofList
    · rw [Catalogue.repeats_ofList, Catalogue.repeats_ofList, hreplaced.alike.names_eq]
  | item hplace _ => cases hplace

variable {U : String → Definition → Definition → Prop}

theorem Catalogue.Alike.refl (hU : ∀ m d, U m d d) (c : Catalogue) : Catalogue.Alike U c c :=
  ⟨Entries.Alike.refl hU c.entries, rfl⟩

theorem rel_catalogue_refl (hU : ∀ m d, U m d d) (c : Option Catalogue) :
    Option.Rel (Catalogue.Alike U) c c := by
  cases c with
  | none => exact .none
  | some c => exact .some (.refl hU c)

theorem Components.Alike.refl (hU : ∀ m d, U m d d) (c : Components) : Components.Alike U c c :=
  ⟨rel_catalogue_refl hU c.schemas⟩

theorem rel_components_refl (hU : ∀ m d, U m d d) (c : Option Components) :
    Option.Rel (Components.Alike U) c c := by
  cases c with
  | none => exact .none
  | some c => exact .some (.refl hU c)

theorem Document.Alike.refl (hU : ∀ m d, U m d d) (d : Document) : Document.Alike U d d :=
  ⟨rel_catalogue_refl hU d.definitions, rel_components_refl hU d.components⟩

theorem Document.Alike.catalogue? {d d' : Document} (h : Document.Alike U d d') :
    Option.Rel (Catalogue.Alike U) d.catalogue? d'.catalogue? := by
  have hschemas : Option.Rel (Catalogue.Alike U) (d.components.bind Components.schemas)
      (d'.components.bind Components.schemas) := by
    have hcomponents := h.components
    generalize d.components = c, d'.components = c' at hcomponents ⊢
    cases hcomponents with
    | none => exact .none
    | some hc => exact hc.schemas
  have hdefinitions := h.definitions
  cases hc : d.definitions with
  | none =>
    rw [hc] at hdefinitions
    cases hc' : d'.definitions with
    | none => rwa [catalogue?_of_empty (by simp [hc]), catalogue?_of_empty (by simp [hc'])]
    | some c' =>
      rw [hc'] at hdefinitions
      cases hdefinitions
  | some c =>
    rw [hc] at hdefinitions
    cases hc' : d'.definitions with
    | none =>
      rw [hc'] at hdefinitions
      cases hdefinitions
    | some c' =>
      rw [hc'] at hdefinitions
      cases hdefinitions with
      | some hcc =>
        have hnames := hcc.entries.names_eq
        by_cases hempty : c.entries = []
        · have hempty' : c'.entries = [] := by
            rw [hempty] at hnames
            exact List.map_eq_nil_iff.mp hnames.symm
          rwa [catalogue?_of_empty (by simp [hc, hempty]),
            catalogue?_of_empty (by simp [hc', hempty'])]
        · have hempty' : c'.entries ≠ [] := by
            intro h'
            rw [h'] at hnames
            exact hempty (List.map_eq_nil_iff.mp hnames)
          rw [catalogue?_of_definitions hc hempty, catalogue?_of_definitions hc' hempty']
          exact .some hcc

/-- Entries that are put into something one by one, the first one last. -/
theorem carries_entries {α : Type} {readAll : List (Key × Value) → Option α}
    {put? : Key → Value → α → Option α} {A : α → α → Prop} {k : Key}
    (hcons : ∀ k v es, readAll ((k, v) :: es) = (readAll es).bind (put? k v))
    (hhere : ∀ v w, S v w → ∀ a b, put? k v a = some b → ∃ b', put? k w a = some b' ∧ A b b')
    (hthere : ∀ k v, Carries (put? k v) A A) : Carries readAll (Replaced S k) A := by
  intro es fs b hes hb
  induction hes generalizing b with
  | here hvw =>
    rw [hcons] at hb ⊢
    obtain ⟨a, ha, hput⟩ := Option.bind_eq_some_iff.mp hb
    obtain ⟨b', hput', hA⟩ := hhere _ _ hvw a b hput
    exact ⟨b', Option.bind_eq_some_iff.mpr ⟨a, ha, hput'⟩, hA⟩
  | @there e es fs _ ih =>
    obtain ⟨k', v⟩ := e
    rw [hcons] at hb ⊢
    obtain ⟨a, ha, hput⟩ := Option.bind_eq_some_iff.mp hb
    obtain ⟨a', ha', hA⟩ := ih ha
    obtain ⟨b', hput', hA'⟩ := hthere k' v hA hput
    exact ⟨b', Option.bind_eq_some_iff.mpr ⟨a', ha', hput'⟩, hA'⟩

def Components.put? (k : Key) (v : Value) (c : Components) : Option Components :=
  match fieldIndex? fields k with
  | some 0 => (optional catalogueOfValue? v).map fun x => { c with schemas := x }
  | _ => some c

theorem Components.ofEntries?_cons (k : Key) (v : Value) (es : List (Key × Value)) :
    ofEntries? ((k, v) :: es) = (ofEntries? es).bind (put? k v) := by
  rw [ofEntries?]
  cases ofEntries? es <;> rfl

def Document.put? (k : Key) (v : Value) (d : Document) : Option Document :=
  match fieldIndex? fields k with
  | some 0 => (optional version? v).map fun x => { d with swagger := x }
  | some 1 => (optional version? v).map fun x => { d with openapi := x }
  | some 2 => (optional catalogueOfValue? v).map fun x => { d with definitions := x }
  | some 3 => (optional Components.ofValue? v).map fun x => { d with components := x }
  | _ => some d

theorem Document.ofEntries?_cons (k : Key) (v : Value) (es : List (Key × Value)) :
    ofEntries? ((k, v) :: es) = (ofEntries? es).bind (put? k v) := by
  rw [ofEntries?]
  cases ofEntries? es <;> rfl

theorem Document.carries_put? (hU : ∀ m d, U m d d) (k : Key) (v : Value) :
    Carries (put? k v) (Alike U) (Alike U) := by
  intro d d' e hd he
  unfold put? at he ⊢
  split at he
  · obtain ⟨x, hx, rfl⟩ := Option.map_eq_some_iff.mp he
    rw [hx]
    exact ⟨_, rfl, hd.definitions, hd.components⟩
  · obtain ⟨x, hx, rfl⟩ := Option.map_eq_some_iff.mp he
    rw [hx]
    exact ⟨_, rfl, hd.definitions, hd.components⟩
  · obtain ⟨x, hx, rfl⟩ := Option.map_eq_some_iff.mp he
    rw [hx]
    exact ⟨_, rfl, rel_catalogue_refl hU x, hd.components⟩
  · obtain ⟨x, hx, rfl⟩ := Option.map_eq_some_iff.mp he
    rw [hx]
    exact ⟨_, rfl, hd.definitions, rel_components_refl hU x⟩
  · cases he
    exact ⟨d', rfl, hd⟩

theorem carries_components (hU : ∀ m d, U m d d)
    (h : Carries (optional catalogueOfValue?) S (Option.Rel (Catalogue.Alike U))) :
    Carries Components.ofValue? (AtField [] "schemas" S) (Components.Alike U) := by
  have hindex : fieldIndex? Components.fields (.name "schemas") = some 0 := by decide
  intro v w c hvw hc
  cases hvw with
  | item hplace _ => cases hplace
  | entry hes =>
    refine carries_entries Components.ofEntries?_cons ?_ ?_ hes hc
    · intro v w hvw a b hb
      unfold Components.put? at hb ⊢
      simp only [hindex] at hb ⊢
      exact h.map (fun _ _ hT => ⟨hT⟩) hvw hb
    · intro k v a a' b ha hb
      unfold Components.put? at hb ⊢
      split at hb
      · obtain ⟨x, hx, rfl⟩ := Option.map_eq_some_iff.mp hb
        rw [hx]
        exact ⟨_, rfl, ⟨rel_catalogue_refl hU x⟩⟩
      · cases hb
        exact ⟨a', rfl, ha⟩

/-- A document is read field by field, and one field is put in at a time. -/
theorem Document.carries_ofValue? (hU : ∀ m d, U m d d) {name : String}
    (hhere : ∀ v w, S v w → ∀ a b, put? (.name name) v a = some b →
      ∃ b', put? (.name name) w a = some b' ∧ Alike U b b') :
    Carries ofValue? (AtField [] name S) (Alike U) := by
  intro v w d hvw hd
  cases hvw with
  | item hplace _ => cases hplace
  | entry hes => exact carries_entries ofEntries?_cons hhere (carries_put? hU) hes hd

theorem carries_definitions (hU : ∀ m d, U m d d)
    (h : Carries (optional catalogueOfValue?) S (Option.Rel (Catalogue.Alike U))) :
    Carries Document.ofValue? (AtField [] "definitions" S) (Document.Alike U) := by
  have hindex : fieldIndex? Document.fields (.name "definitions") = some 2 := by decide
  refine Document.carries_ofValue? hU fun v w hvw a b hb => ?_
  unfold Document.put? at hb ⊢
  simp only [hindex] at hb ⊢
  exact h.map (fun _ _ hT => ⟨hT, rel_components_refl hU a.components⟩) hvw hb

theorem carries_schemas (hU : ∀ m d, U m d d)
    (h : Carries (optional Components.ofValue?) S (Option.Rel (Components.Alike U))) :
    Carries Document.ofValue? (AtField [] "components" S) (Document.Alike U) := by
  have hindex : fieldIndex? Document.fields (.name "components") = some 3 := by decide
  refine Document.carries_ofValue? hU fun v w hvw a b hb => ?_
  unfold Document.put? at hb ⊢
  simp only [hindex] at hb ⊢
  exact h.map (fun _ _ hT => ⟨rel_catalogue_refl hU a.definitions, hT⟩) hvw hb

end Definition

end SchemaTypes.Schema

namespace SchemaTypes.Json.Form

open Schema (Document Components Named)

/-- Two documents that differ in what stands in the place of one definition, where
so many more levels of brackets are allowed. -/
def AtDefinition (n : String) (R : Nat → Form → Form → Prop) (f g : Form) : Prop :=
  AtField Document.fields "definitions" (AtField [] n (R (depthLimit - 2))) f g ∨
    AtField Document.fields "components"
      (AtField Components.fields "schemas" (AtField [] n (R (depthLimit - 3)))) f g

/-- Any value in the place of a definition. -/
def ReplacesDefinition (n : String) : Form → Form → Prop :=
  AtDefinition n fun depth _ g => (g.value? depth).isSome

/-- Any value in the place of a property of a definition. -/
def ReplacesProperty (n p : String) : Form → Form → Prop :=
  AtDefinition n fun depth => AtField Schema.Definition.fields "properties" <|
    AtField [] p fun _ g => (g.value? (depth - 2)).isSome

theorem carries_any (depth : Nat) :
    Carries (Form.value? · depth) (fun _ g => (g.value? depth).isSome) Named := by
  intro f g v hg hv
  obtain ⟨w, hw⟩ := Option.isSome_iff_exists.mp hg
  exact ⟨w, hw, isNamed_of_value? hv, isNamed_of_value? hw⟩

section Document

variable {R : Nat → Form → Form → Prop} {S : Value → Value → Prop}
  {T : Schema.Definition → Schema.Definition → Prop} {n : String}

/-- What is carried from one definition to another is carried to the document. -/
theorem carries_document? (hvalue : ∀ k, Carries (·.value? (k + 2)) (R (k + 2)) S)
    (htolerant : Carries Schema.Definition.tolerant? S T) :
    Carries document? (AtDefinition n R)
      (Document.Alike fun m d d' => d = d' ∨ m = n ∧ T d d') := by
  have hrefl (m : String) (d : Schema.Definition) : d = d ∨ m = n ∧ T d d := .inl rfl
  have hfits (v w : Value) (hvw : S v w) (hv : (Schema.Definition.tolerant? v).isSome) :
      (Schema.Definition.tolerant? w).isSome := by
    obtain ⟨d, hd⟩ := Option.isSome_iff_exists.mp hv
    obtain ⟨d', hd', _⟩ := htolerant hvw hd
    exact Option.isSome_iff_exists.mpr ⟨d', hd'⟩
  have houtline (k : Nat) : Carries (·.field? (k + 3) Document.catalogueOutline)
      (AtField [] n (R (k + 2))) (Value.AtField [] n S) :=
    carries_field? (carries_names (carries_whole (hvalue k) "DefinitionNode" hfits) _ n)
      fun _ _ => AtField.isNull
  have hcatalogue := Schema.carries_optional (Schema.carries_catalogue (n := n) htolerant)
    fun _ _ => Schema.ne_null_of_atField
  intro f g d hfg hd
  rcases hfg with hfg | hfg
  · have hnull := AtField.isNull hfg
    have hread : Carries (·.read? (126 + 1) Document.outline)
        (AtField Document.fields "definitions" (AtField [] n (R 125)))
        (Value.AtField [] "definitions" (Value.AtField [] n S)) := by
      refine carries_record (fun o ho => ?_) (by decide) _ _
      have ho' : o = Document.catalogueOutline := by simpa using ho
      exact ho' ▸ houtline 123
    have hall := hread.bind (Schema.carries_definitions hrefl hcatalogue)
    rw [document?, hnull.1, if_neg Bool.false_ne_true] at hd
    rw [document?, hnull.2, if_neg Bool.false_ne_true]
    exact hall hfg hd
  · have hnull := AtField.isNull hfg
    have hinner : Carries (·.read? (125 + 1) (.record "Components" 0
          [("schemas", Document.catalogueOutline)]))
        (AtField Components.fields "schemas" (AtField [] n (R 124)))
        (Value.AtField [] "schemas" (Value.AtField [] n S)) := by
      refine carries_record (fun o ho => ?_) (by decide) _ _
      have ho' : o = Document.catalogueOutline := by simpa using ho
      exact ho' ▸ houtline 122
    have hread : Carries (·.read? (126 + 1) Document.outline)
        (AtField Document.fields "components"
          (AtField Components.fields "schemas" (AtField [] n (R 124))))
        (Value.AtField [] "components" (Value.AtField [] "schemas" (Value.AtField [] n S))) := by
      refine carries_record (fun o ho => ?_) (by decide) _ _
      have ho' : o = .record "Components" 0 [("schemas", Document.catalogueOutline)] := by
        simpa using ho
      exact ho' ▸ carries_field? hinner fun _ _ => AtField.isNull
    have hcomponents := Schema.carries_optional (Schema.carries_components hrefl hcatalogue)
      fun _ _ => Schema.ne_null_of_atField
    have hall := hread.bind (Schema.carries_schemas hrefl hcomponents)
    rw [document?, hnull.1, if_neg Bool.false_ne_true] at hd
    rw [document?, hnull.2, if_neg Bool.false_ne_true]
    exact hall hfg hd

theorem carries_replacesDefinition (n : String) :
    Carries document? (ReplacesDefinition n)
      (Document.Alike fun m d d' => d = d' ∨ m = n ∧ True) := by
  refine carries_document? (fun k => carries_any (k + 2)) ?_
  intro v w d hvw _
  obtain ⟨d', hd'⟩ := Option.isSome_iff_exists.mp (Schema.Definition.isSome_tolerant? hvw.2)
  exact ⟨d', hd', trivial⟩

theorem carries_replacesProperty (n p : String) :
    Carries document? (ReplacesProperty n p)
      (Document.Alike fun m d d' => d = d' ∨ m = n ∧ Schema.Definition.AlikeBut p d d') := by
  refine carries_document? (fun k => ?_) Schema.Definition.carries_tolerant?
  exact carries_named
    (carries_value? (carries_named (carries_value? (carries_any k) [] p)) _ "properties")

end Document

end SchemaTypes.Json.Form
