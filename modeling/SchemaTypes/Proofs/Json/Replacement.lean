import SchemaTypes.Proofs.Entries.Alike
import SchemaTypes.Proofs.Json.Form
import SchemaTypes.Proofs.Schema.Reading

/-!
# One value in the place of another

Two forms that differ in one place are read as two values that differ in the same
place, as long as what stands there can be read: nothing around a place depends on
what stands there, but that it can be read.
-/

set_option autoImplicit false

namespace SchemaTypes

open Entries (Replaced)

variable {α β γ : Type}

/-- Whenever one of two related things is read, the other one is, and the results
are related again. -/
def Carries (read : α → Option β) (R : α → α → Prop) (S : β → β → Prop) : Prop :=
  ∀ ⦃a a' b⦄, R a a' → read a = some b → ∃ b', read a' = some b' ∧ S b b'

namespace Carries

variable {R : α → α → Prop} {S : β → β → Prop} {T : γ → γ → Prop}

theorem bind {read : α → Option β} {next : β → Option γ} (h : Carries read R S)
    (hnext : Carries next S T) : Carries (fun a => (read a).bind next) R T := by
  intro a a' c ha hc
  obtain ⟨b, hb, hbc⟩ := Option.bind_eq_some_iff.mp hc
  obtain ⟨b', hb', hS⟩ := h ha hb
  obtain ⟨c', hc', hT⟩ := hnext hS hbc
  exact ⟨c', Option.bind_eq_some_iff.mpr ⟨b', hb', hc'⟩, hT⟩

theorem map {read : α → Option β} {f : β → γ} (h : Carries read R S)
    (hf : ∀ b b', S b b' → T (f b) (f b')) : Carries (fun a => (read a).map f) R T := by
  intro a a' c ha hc
  obtain ⟨b, hb, rfl⟩ := Option.map_eq_some_iff.mp hc
  obtain ⟨b', hb', hS⟩ := h ha hb
  exact ⟨f b', Option.map_eq_some_iff.mpr ⟨b', hb', rfl⟩, hf b b' hS⟩

/-- Of entries that are read one by one, the first one is replaced. -/
theorem here {κ : Type} {read : α → Option β} (h : Carries read R S) {k : κ} {a a' : α}
    (ha : R a a') {rest : Option (List (κ × β))} {vs : List (κ × β)}
    (hvs : Json.cons? ((read a).map (k, ·)) rest = some vs) :
    ∃ ws, Json.cons? ((read a').map (k, ·)) rest = some ws ∧ Replaced S k vs ws := by
  obtain ⟨e, es, he, hrest, rfl⟩ := Json.cons?_eq_some_iff.mp hvs
  obtain ⟨v, hv, rfl⟩ := Option.map_eq_some_iff.mp he
  obtain ⟨w, hw, hS⟩ := h ha hv
  refine ⟨(k, w) :: es, ?_, .here hS⟩
  rw [hw, hrest]
  rfl

end Carries

/-- Of entries that are read one by one, a later one is replaced. -/
theorem Entries.Replaced.there_of_cons? {κ : Type} {S : β → β → Prop} {k : κ} {first : Option (κ × β)}
    {rest rest' : Option (List (κ × β))}
    (h : ∀ vs, rest = some vs → ∃ ws, rest' = some ws ∧ Replaced S k vs ws)
    {vs : List (κ × β)} (hvs : Json.cons? first rest = some vs) :
    ∃ ws, Json.cons? first rest' = some ws ∧ Replaced S k vs ws := by
  obtain ⟨e, es, he, hrest, rfl⟩ := Json.cons?_eq_some_iff.mp hvs
  obtain ⟨ws, hws, hS⟩ := h es hrest
  refine ⟨e :: ws, ?_, .there hS⟩
  rw [he, hws]
  rfl

theorem Outline.field?_of_mem {fields : List (String × Outline)} {n : String}
    (h : n ∈ fields.map Prod.fst) : ∃ o, field? fields n = some o ∧ (n, o) ∈ fields := by
  induction fields with
  | nil => cases h
  | cons field fields ih =>
    obtain ⟨m, o⟩ := field
    by_cases hm : m = n
    · subst hm
      exact ⟨o, if_pos rfl, List.mem_cons_self⟩
    · rw [List.map_cons, List.mem_cons] at h
      obtain ⟨o', ho', hmem⟩ := ih (h.resolve_left (Ne.symm hm))
      exact ⟨o', (if_neg hm).trans ho', List.mem_cons_of_mem _ hmem⟩

/-- Two objects that differ in the value of one entry of this name, or two lists
that stand for a record of these fields and differ in the field of this name. -/
inductive Value.AtField (fields : List String) (n : String) (R : Value → Value → Prop) :
    Value → Value → Prop
  | entry {es fs : List (Key × Value)} : Replaced R (.name n) es fs →
      AtField fields n R (.object es) (.object fs)
  | item {before after : List Value} {v w : Value} : fields[before.length]? = some n → R v w →
      AtField fields n R (.list (before ++ v :: after)) (.list (before ++ w :: after))

namespace Json.Form

/-- Two objects that differ in the value of one entry of this name, or two lists
that stand for a record of these fields and differ in the field of this name. -/
inductive AtField (fields : List String) (n : String) (R : Form → Form → Prop) :
    Form → Form → Prop
  | entry {es fs : List (Option String × Form)} : Replaced R (some n) es fs →
      AtField fields n R (.object es) (.object fs)
  | item {before after : List Form} {f g : Form} : fields[before.length]? = some n → R f g →
      AtField fields n R (.list (before ++ f :: after)) (.list (before ++ g :: after))

theorem AtField.isNull {fields : List String} {n : String} {R : Form → Form → Prop} {f g : Form}
    (h : AtField fields n R f g) : f.isNull = false ∧ g.isNull = false := by
  cases h <;> exact ⟨rfl, rfl⟩

mutual

theorem isNamed_of_value? {f : Form} {depth : Nat} {v : Value} (h : f.value? depth = some v) :
    v.isNamed := by
  match f, depth with
  | .null, _ => cases h; rfl
  | .bool b, _ => cases h; rfl
  | .number n, _ =>
    obtain ⟨x, _, rfl⟩ := Option.map_eq_some_iff.mp h
    rfl
  | .string s, _ =>
    obtain ⟨x, _, rfl⟩ := Option.map_eq_some_iff.mp h
    rfl
  | .list items, depth + 1 =>
    obtain ⟨vs, hvs, rfl⟩ := Option.map_eq_some_iff.mp h
    exact areNamed_of_values? hvs
  | .object entries, depth + 1 =>
    obtain ⟨vs, hvs, rfl⟩ := Option.map_eq_some_iff.mp h
    exact haveNames_of_entryValues? hvs

theorem areNamed_of_values? {fs : List Form} {depth : Nat} {vs : List Value}
    (h : values? fs depth = some vs) : Value.areNamed vs := by
  match fs with
  | [] => cases h; rfl
  | f :: fs =>
    obtain ⟨v, ws, hv, hws, rfl⟩ := cons?_eq_some_iff.mp h
    rw [Value.areNamed, isNamed_of_value? hv, areNamed_of_values? hws]
    rfl

theorem haveNames_of_entryValues? {es : List (Option String × Form)} {depth : Nat}
    {vs : List (Key × Value)} (h : entryValues? es depth = some vs) : Value.haveNames vs := by
  match es with
  | [] => cases h; rfl
  | (some k, f) :: es =>
    obtain ⟨e, ws, he, hws, rfl⟩ := cons?_eq_some_iff.mp h
    obtain ⟨v, hv, rfl⟩ := Option.map_eq_some_iff.mp he
    rw [Value.haveNames, isNamed_of_value? hv, haveNames_of_entryValues? hws]
    rfl

end

variable {R : Form → Form → Prop} {S : Value → Value → Prop} {n : String} {depth : Nat}

theorem carries_entryValues? (h : Carries (·.value? depth) R S) :
    Carries (entryValues? · depth) (Replaced R (some n)) (Replaced S (.name n)) := by
  intro es fs vs hes hvs
  induction hes generalizing vs with
  | here hfg => exact h.here hfg hvs
  | @there e es fs _ ih =>
    obtain ⟨k, f⟩ := e
    cases k with
    | none => cases hvs
    | some k => exact Replaced.there_of_cons? (fun _ h => ih h) hvs

theorem carries_values? (h : Carries (·.value? depth) R S) {before after : List Form} {f g : Form}
    (hfg : R f g) {vs : List Value} (hvs : values? (before ++ f :: after) depth = some vs) :
    ∃ us v w ws, us.length = before.length ∧ S v w ∧ us ++ v :: ws = vs ∧
      values? (before ++ g :: after) depth = some (us ++ w :: ws) := by
  induction before generalizing vs with
  | nil =>
    obtain ⟨v, ws, hv, hws, rfl⟩ := cons?_eq_some_iff.mp hvs
    obtain ⟨w, hw, hS⟩ := h hfg hv
    exact ⟨[], v, w, ws, rfl, hS, rfl, cons?_eq_some_iff.mpr ⟨w, ws, hw, hws, rfl⟩⟩
  | cons b before ih =>
    obtain ⟨u, vs', hu, hrest, rfl⟩ := cons?_eq_some_iff.mp hvs
    obtain ⟨us, v, w, ws, hlength, hS, rfl, hws⟩ := ih hrest
    exact ⟨u :: us, v, w, ws, congrArg (· + 1) hlength, hS, rfl,
      cons?_eq_some_iff.mpr ⟨u, _, hu, hws, rfl⟩⟩

/-- A place in what is kept whole. -/
theorem carries_value? (h : Carries (·.value? depth) R S) (fields : List String) (n : String) :
    Carries (·.value? (depth + 1)) (AtField fields n R) (Value.AtField fields n S) := by
  intro f g v hfg hv
  cases hfg with
  | entry hes =>
    obtain ⟨vs, hvs, rfl⟩ := Option.map_eq_some_iff.mp hv
    obtain ⟨ws, hws, hS⟩ := carries_entryValues? h hes hvs
    exact ⟨.object ws, Option.map_eq_some_iff.mpr ⟨ws, hws, rfl⟩, .entry hS⟩
  | item hplace hR =>
    obtain ⟨vs, hvs, rfl⟩ := Option.map_eq_some_iff.mp hv
    obtain ⟨us, v, w, ws, hlength, hS, rfl, hws⟩ := carries_values? h hR hvs
    refine ⟨.list (us ++ w :: ws), Option.map_eq_some_iff.mpr ⟨_, hws, rfl⟩, .item ?_ hS⟩
    rwa [hlength]

theorem carries_named (h : Carries (·.value? depth) R S) :
    Carries (·.value? depth) R fun v w => S v w ∧ v.isNamed ∧ w.isNamed := by
  intro f g v hfg hv
  obtain ⟨w, hw, hS⟩ := h hfg hv
  exact ⟨w, hw, hS, isNamed_of_value? hv, isNamed_of_value? hw⟩

theorem carries_whole (h : Carries (·.value? depth) R S) (kind : String) {fits : Value → Bool}
    (hfits : ∀ v w, S v w → fits v → fits w) :
    Carries (·.read? depth (.whole kind fits)) R S := by
  intro f g v hfg hv
  dsimp only at hv ⊢
  rw [read?, Option.filter_eq_some_iff] at hv
  obtain ⟨w, hw, hS⟩ := h hfg hv.1
  refine ⟨w, ?_, hS⟩
  rw [read?, Option.filter_eq_some_iff]
  exact ⟨hw, hfits v w hS hv.2⟩

theorem carries_field? {o : Outline} (h : Carries (·.read? depth o) R S)
    (hnull : ∀ f g, R f g → f.isNull = false ∧ g.isNull = false) :
    Carries (·.field? depth o) R S := by
  intro f g v hfg hv
  obtain ⟨hf, hg⟩ := hnull f g hfg
  dsimp only at hv ⊢
  rw [field?, hf, if_neg Bool.false_ne_true] at hv
  rw [field?, hg, if_neg Bool.false_ne_true]
  exact h hfg hv

theorem carries_readNames? {each : Outline} (h : Carries (·.read? depth each) R S) :
    Carries (readNames? · depth each) (Replaced R (some n)) (Replaced S (.name n)) := by
  intro es fs vs hes hvs
  induction hes generalizing vs with
  | here hfg => exact h.here hfg hvs
  | @there e es fs _ ih =>
    obtain ⟨k, f⟩ := e
    cases k with
    | none => cases hvs
    | some k => exact Replaced.there_of_cons? (fun _ h => ih h) hvs

/-- A place in an object of free names. -/
theorem carries_names {each : Outline} (h : Carries (·.read? depth each) R S)
    (expected n : String) :
    Carries (·.read? (depth + 1) (.names expected each)) (AtField [] n R)
      (Value.AtField [] n S) := by
  intro f g v hfg hv
  cases hfg with
  | entry hes =>
    obtain ⟨vs, hvs, rfl⟩ := Option.map_eq_some_iff.mp hv
    obtain ⟨ws, hws, hS⟩ := carries_readNames? h hes hvs
    exact ⟨.object ws, Option.map_eq_some_iff.mpr ⟨ws, hws, rfl⟩, .entry hS⟩
  | item hplace _ => cases hplace

theorem carries_readFields? {fields : List (String × Outline)}
    (h : ∀ o, (n, o) ∈ fields → Carries (·.field? depth o) R S) (hn : n ∈ fields.map Prod.fst)
    (seen : List String) :
    Carries (readFields? · depth fields seen) (Replaced R (some n)) (Replaced S (.name n)) := by
  obtain ⟨o, ho, hmem⟩ := Outline.field?_of_mem hn
  intro es fs vs hes hvs
  induction hes generalizing seen vs with
  | here hfg =>
    dsimp only at hvs ⊢
    by_cases hseen : seen.contains n = true
    · rw [readFields?_of_seen ho hseen] at hvs
      cases hvs
    · rw [readFields?_of_fresh ho hseen] at hvs ⊢
      exact (h o hmem).here hfg hvs
  | @there e es fs _ ih =>
    obtain ⟨k, f⟩ := e
    cases k with
    | none => cases hvs
    | some k =>
      dsimp only at hvs ⊢
      cases hk : Outline.field? fields k with
      | none =>
        rw [readFields?_of_unknown hk] at hvs ⊢
        exact ih seen hvs
      | some o' =>
        by_cases hseen : seen.contains k = true
        · rw [readFields?_of_seen hk hseen] at hvs
          cases hvs
        · rw [readFields?_of_fresh hk hseen] at hvs ⊢
          exact Replaced.there_of_cons? (fun _ h => ih _ h) hvs

theorem carries_readItems? {fields : List (String × Outline)} {before after : List Form}
    {f g : Form} (h : ∀ o, (n, o) ∈ fields → Carries (·.field? depth o) R S)
    (hplace : (fields.map Prod.fst)[before.length]? = some n) (hfg : R f g) {spare index : Nat}
    {vs : List (Key × Value)}
    (hvs : readItems? (before ++ f :: after) depth spare index fields = some vs) :
    ∃ ws, readItems? (before ++ g :: after) depth spare index fields = some ws ∧
      Replaced S (.name n) vs ws := by
  induction before generalizing fields index vs with
  | nil =>
    cases fields with
    | nil => cases hplace
    | cons field fields =>
      obtain ⟨m, o⟩ := field
      cases hplace
      exact (h o List.mem_cons_self).here hfg hvs
  | cons b before ih =>
    cases fields with
    | nil => cases hplace
    | cons field fields =>
      exact Replaced.there_of_cons?
        (fun _ hrest => ih (fun o ho => h o (List.mem_cons_of_mem _ ho)) hplace hrest) hvs

/-- A place in a record. What is read of it is an object, also if it is a list. -/
theorem carries_record {fields : List (String × Outline)}
    (h : ∀ o, (n, o) ∈ fields → Carries (·.field? depth o) R S) (hn : n ∈ fields.map Prod.fst)
    (title : String) (spare : Nat) :
    Carries (·.read? (depth + 1) (.record title spare fields))
      (AtField (fields.map Prod.fst) n R) (Value.AtField [] n S) := by
  intro f g v hfg hv
  cases hfg with
  | entry hes =>
    obtain ⟨vs, hvs, rfl⟩ := Option.map_eq_some_iff.mp hv
    obtain ⟨ws, hws, hS⟩ := carries_readFields? h hn [] hes hvs
    exact ⟨.object ws, Option.map_eq_some_iff.mpr ⟨ws, hws, rfl⟩, .entry hS⟩
  | item hplace hR =>
    obtain ⟨vs, hvs, rfl⟩ := Option.map_eq_some_iff.mp hv
    obtain ⟨ws, hws, hS⟩ := carries_readItems? h hplace hR hvs
    exact ⟨.object ws, Option.map_eq_some_iff.mpr ⟨ws, hws, rfl⟩, .entry hS⟩

end Json.Form

end SchemaTypes
