import SchemaTypes.Command
import SchemaTypes.Proofs.Entries.History
import SchemaTypes.Proofs.Toml.Distinct

/-!
# Settings in layers

Every setting is found by itself: a flag goes before the file, and the file before the
default. What a file says of a setting is the value under its key, whatever other keys are
there and in whatever order. A list may stand for a table of settings; its values are then
those of the keys in their order.
-/

set_option autoImplicit false

namespace SchemaTypes

open Toml (Term Table)

namespace Settings

variable {α β : Type}

/-- A setting that is decoded from the entry of its name, and that no other entry changes. -/
def Governs (fields : List (Field α)) (name : String) (get : α → β) (decode : Term → Option β) :
    Prop :=
  ∀ a n v a', setNamed fields a (n, v) = some a' →
    if n = name then decode v = some (get a') else get a' = get a

theorem Governs.setAll {fields : List (Field α)} {name : String} {get : α → β}
    {decode : Term → Option β} (h : Governs fields name get decode) {t : Table}
    (hnames : (Entries.names t).Nodup) {a a' : α} (hset : setAll fields a t = some a') :
    match Entries.get? t name with
    | some v => decode v = some (get a')
    | none => get a' = get a := by
  induction t generalizing a with
  | nil =>
    cases hset
    rfl
  | cons e t ih =>
    obtain ⟨n, v⟩ := e
    rw [Entries.names_cons, List.nodup_cons] at hnames
    obtain ⟨next, hnext, hrest⟩ := Option.bind_eq_some_iff.mp hset
    have hset := h a n v next hnext
    have ih := ih hnames.2 hrest
    rw [Entries.get?]
    split at hset
    · subst ‹n = name›
      rw [Entries.get?_eq_none_iff.mpr hnames.1] at ih
      rw [if_pos rfl]
      dsimp only at ih ⊢
      rw [ih]
      exact hset
    · rw [if_neg ‹n ≠ name›, ← hset]
      exact ih

theorem setNamed_of_mem {fields : List (Field α)} (hnames : (fields.map Field.name).Nodup)
    {f : Field α} (hf : f ∈ fields) (a : α) (v : Term) :
    setNamed fields a (f.name, v) = f.set a v := by
  have hfind : fields.find? (fun g => g.name = f.name) = some f := by
    induction fields with
    | nil => cases hf
    | cons g fields ih =>
      rw [List.map_cons, List.nodup_cons] at hnames
      rw [List.find?_cons]
      rcases List.mem_cons.mp hf with rfl | hf
      · rw [decide_eq_true rfl]
      · have hne : g.name ≠ f.name := fun h => hnames.1 (h ▸ List.mem_map_of_mem hf)
        rw [decide_eq_false hne]
        exact ih hnames.2 hf
  rw [setNamed, hfind]

/-- Settings by their places are the same as settings by the names at these places. -/
theorem setListed_eq {fields : List (Field α)} (hnames : (fields.map Field.name).Nodup) (a : α)
    (items : List Term) :
    setListed fields a items = setAll fields a ((fields.map Field.name).zip items) := by
  have hsome (fs : List (Field α)) (hfs : ∀ f ∈ fs, f ∈ fields) (a : α) (items : List Term) :
      (fs.zip items).foldlM (fun a e => e.1.set a e.2) a =
        setAll fields a ((fs.map Field.name).zip items) := by
    induction fs generalizing a items with
    | nil => rfl
    | cons f fs ih =>
      rw [List.forall_mem_cons] at hfs
      cases items with
      | nil => rfl
      | cons v items =>
        rw [List.map_cons, List.zip_cons_cons, List.zip_cons_cons, List.foldlM_cons, setAll,
          List.foldlM_cons, setNamed_of_mem hnames hfs.1]
        exact congrArg _ (funext fun a => ih hfs.2 a items)
  exact hsome fields (fun _ h => h) a items

/-- The entries of a table of settings, or of the list that stands for one. -/
def entriesOf? (names : List String) : Term → Option Table
  | .table _ t => some t
  | .list items => some (names.zip items)
  | .tables elements => some (names.zip (elements.reverse.map (.table .header)))
  | _ => none

theorem setTerm_eq {fields : List (Field α)} (hnames : (fields.map Field.name).Nodup) (a : α)
    (v : Term) :
    setTerm fields a v = (entriesOf? (fields.map Field.name) v).bind (setAll fields a) := by
  cases v with
  | list items => exact setListed_eq hnames a items
  | tables elements => exact setListed_eq hnames a _
  | _ => rfl

theorem nodup_names_zip {names : List String} (h : names.Nodup) (items : List Term) :
    (Entries.names (names.zip items)).Nodup := by
  induction names generalizing items with
  | nil => exact List.nodup_nil
  | cons n names ih =>
    rw [List.nodup_cons] at h
    cases items with
    | nil => exact List.nodup_nil
    | cons v items =>
      rw [List.zip_cons_cons, Entries.names_cons, List.nodup_cons]
      refine ⟨fun hn => ?_, ih h.2 items⟩
      obtain ⟨e, he, rfl⟩ := List.mem_map.mp hn
      exact h.1 (List.of_mem_zip he).1

theorem nodup_entriesOf? {names : List String} (h : names.Nodup) {v : Term} {t : Table}
    (hv : v.Distinct) (ht : entriesOf? names v = some t) : (Entries.names t).Nodup := by
  cases v with
  | table o s =>
    cases ht
    exact (Table.distinct_table_iff.mp hv).names
  | list items =>
    cases ht
    exact nodup_names_zip h items
  | tables elements =>
    cases ht
    exact nodup_names_zip h _
  | _ => cases ht

theorem governs_of_mem {fields : List (Field α)} {name : String} {get : α → β}
    {decode : Term → Option β}
    (h : ∀ f ∈ fields, ∀ a v a', f.set a v = some a' →
      if f.name = name then decode v = some (get a') else get a' = get a) :
    Governs fields name get decode := by
  intro a n v a' hset
  rw [setNamed] at hset
  split at hset
  · rename_i f hfind
    obtain rfl : f.name = n := of_decide_eq_true (List.find?_some hfind :)
    exact h f (List.mem_of_find?_eq_some hfind) a v a' hset
  · cases hset

/-- What a table of settings says under a key, if there is such a table and such a key. -/
def said? (names : List String) (table key : String) (t : Table) : Option Term := do
  let entries ← entriesOf? names (← Entries.get? t table)
  Entries.get? entries key

theorem Governs.said {fields : List (Field α)} (hnames : (fields.map Field.name).Nodup)
    {key : String} {get : α → β} {decode : Term → Option β} (h : Governs fields key get decode)
    {t : Table} (ht : t.Distinct) {table : String} {a a' : α}
    (htable : match Entries.get? t table with
      | some v => setTerm fields a v = some a'
      | none => a' = a) :
    match said? (fields.map Field.name) table key t with
    | some v => decode v = some (get a')
    | none => get a' = get a := by
  rw [said?]
  cases hv : Entries.get? t table with
  | none =>
    rw [hv] at htable
    exact congrArg get htable
  | some v =>
    rw [hv] at htable
    dsimp only at htable
    rw [setTerm_eq hnames] at htable
    obtain ⟨entries, hentries, hset⟩ := Option.bind_eq_some_iff.mp htable
    rw [Option.bind_eq_bind, Option.bind_some, hentries]
    exact h.setAll (nodup_entriesOf? hnames (ht.get? hv) hentries) hset

end Settings

inductive Setting
  | url
  | language
  | timeout
  | retries
  | marker
  | sort
  | checkReferences

namespace Setting

open Settings

def Value : Setting → Type
  | .url => Option String
  | .language => String
  | .timeout | .retries => Nat
  | .marker => Marker
  | .sort | .checkReferences => Bool

def default : (k : Setting) → k.Value
  | .url => none
  | .language => "ko"
  | .timeout => (30 : Nat)
  | .retries => (2 : Nat)
  | .marker => Marker.any
  | .sort => false
  | .checkReferences => true

def get (s : Settings) : (k : Setting) → k.Value
  | .url => s.source.url
  | .language => s.source.language
  | .timeout => s.source.timeout
  | .retries => s.source.retries
  | .marker => s.options.marker
  | .sort => s.options.sort
  | .checkReferences => s.options.checkReferences

def table : Setting → String
  | .url | .language | .timeout | .retries => "source"
  | .marker | .sort | .checkReferences => "generator"

def keys : Setting → List String
  | .url | .language | .timeout | .retries => ["url", "accept_language", "timeout_secs", "retries"]
  | .marker | .sort | .checkReferences => ["unknown_type", "sort_definitions", "check_references"]

def key : Setting → String
  | .url => "url"
  | .language => "accept_language"
  | .timeout => "timeout_secs"
  | .retries => "retries"
  | .marker => "unknown_type"
  | .sort => "sort_definitions"
  | .checkReferences => "check_references"

def decode? : (k : Setting) → Term → Option k.Value
  | .url => fun v => (text? v).map some
  | .language => text?
  | .timeout => natural? UInt64.size
  | .retries => natural? UInt32.size
  | .marker => marker?
  | .sort => boolean?
  | .checkReferences => boolean?

def flag? (wish : Acquisition.Wish) (v : Overrides) : (k : Setting) → Option k.Value
  | .url => wish.url.map some
  | .language => wish.language
  | .marker => v.marker
  | .sort => if v.sort then some true else none
  | .timeout | .retries | .checkReferences => none

/-- The value of a setting with this flag, if it is given, and what this says in the file, if
anything does: that of the flag, or else that of the file, or else the default. -/
def Layered (k : Setting) (flag : Option k.Value) (said : Option Term) (x : k.Value) : Prop :=
  match flag, said with
  | some y, _ => x = y
  | none, some v => k.decode? v = some x
  | none, none => x = k.default

theorem governs_source {k : Setting} (h : k.table = "source") :
    Governs sourceFields k.key (fun s => k.get { source := s }) k.decode? := by
  refine governs_of_mem fun f hf s v s' hset => ?_
  simp only [sourceFields, List.mem_cons, List.not_mem_nil, or_false] at hf
  rcases hf with rfl | rfl | rfl | rfl
  all_goals
    obtain ⟨x, hx, rfl⟩ := Option.map_eq_some_iff.mp hset
    cases k <;> simp_all [key, get, decode?, table] <;> rfl

theorem governs_options {k : Setting} (h : k.table = "generator") :
    Governs optionFields k.key (fun o => k.get { options := o }) k.decode? := by
  refine governs_of_mem fun f hf o v o' hset => ?_
  simp only [optionFields, List.mem_cons, List.not_mem_nil, or_false] at hf
  rcases hf with rfl | rfl | rfl
  all_goals
    obtain ⟨x, hx, rfl⟩ := Option.map_eq_some_iff.mp hset
    cases k <;> simp_all [key, get, decode?, table] <;> rfl

theorem governs_tables :
    Governs fields "source" Settings.source (setTerm sourceFields {}) ∧
      Governs fields "generator" Settings.options (setTerm optionFields {}) := by
  constructor
  all_goals
    refine governs_of_mem fun f hf s v s' hset => ?_
    simp only [fields, List.mem_cons, List.not_mem_nil, or_false] at hf
    rcases hf with rfl | rfl
    all_goals
      obtain ⟨x, hx, rfl⟩ := Option.map_eq_some_iff.mp hset
      simp [hx]

/-- What a settings file says of the setting, under its key or at its place in a list. -/
def said? (k : Setting) (t : Table) : Option Term := Settings.said? k.keys k.table k.key t

theorem layered_none_iff {k : Setting} {said : Option Term} {x : k.Value} :
    k.Layered none said x ↔
      match said with
      | some v => k.decode? v = some x
      | none => x = k.default := by
  cases said <;> rfl

theorem layered_default (k : Setting) : k.Layered none none (k.get {}) := by
  cases k <;> rfl

theorem layered_of_ofText? {text : String} {s : Settings} (h : ofText? text = some s) :
    ∃ t, Table.ofText? text = some t ∧ ∀ k : Setting, k.Layered none (k.said? t) (k.get s) := by
  obtain ⟨t, ht, hset⟩ := Option.bind_eq_some_iff.mp h
  have hdistinct := Table.distinct_of_ofText? ht
  have hsource := governs_tables.1.setAll hdistinct.names hset
  have hoptions := governs_tables.2.setAll hdistinct.names hset
  have hsourceNames : (sourceFields.map Field.name).Nodup := by decide
  have hoptionNames : (optionFields.map Field.name).Nodup := by decide
  refine ⟨t, ht, fun k => layered_none_iff.mpr ?_⟩
  cases k with
  | url => exact (governs_source (k := .url) rfl).said hsourceNames hdistinct hsource
  | language => exact (governs_source (k := .language) rfl).said hsourceNames hdistinct hsource
  | timeout => exact (governs_source (k := .timeout) rfl).said hsourceNames hdistinct hsource
  | retries => exact (governs_source (k := .retries) rfl).said hsourceNames hdistinct hsource
  | marker => exact (governs_options (k := .marker) rfl).said hoptionNames hdistinct hoptions
  | sort => exact (governs_options (k := .sort) rfl).said hoptionNames hdistinct hoptions
  | checkReferences =>
    exact (governs_options (k := .checkReferences) rfl).said hoptionNames hdistinct hoptions

/-- What a settings file says under the key of the setting, if it is in a table. -/
def keyed? (k : Setting) (t : Table) : Option Term :=
  match Entries.get? t k.table with
  | some (.table _ entries) => Entries.get? entries k.key
  | _ => none

theorem said?_eq_keyed? {k : Setting} {t : Table}
    (h : ∀ v, Entries.get? t k.table = some v → ∃ o entries, v = .table o entries) :
    k.said? t = k.keyed? t := by
  rw [said?, Settings.said?, keyed?]
  cases hv : Entries.get? t k.table with
  | none => rfl
  | some v =>
    obtain ⟨o, entries, rfl⟩ := h v hv
    rfl

end Setting

def Settings.under (s : Settings) (wish : Acquisition.Wish) (v : Overrides) : Settings where
  source :=
    { s.source with
      url := wish.address s.source
      language := wish.language.getD s.source.language }
  options := v.apply s.options

theorem Setting.layered_under {k : Setting} {s : Settings} {said : Option Term}
    (h : k.Layered none said (k.get s)) (wish : Acquisition.Wish) (v : Overrides) :
    k.Layered (k.flag? wish v) said (k.get (s.under wish v)) := by
  obtain ⟨marker, sort⟩ := v
  cases k with
  | url =>
    rw [get, Settings.under, Acquisition.Wish.address, flag?]
    cases wish.url with
    | none => exact h
    | some url => rfl
  | language =>
    rw [get, Settings.under, flag?]
    cases wish.language with
    | none => exact h
    | some language => rfl
  | timeout => exact h
  | retries => exact h
  | marker =>
    rw [get, Settings.under, Overrides.apply, flag?]
    cases marker with
    | none => exact h
    | some marker => rfl
  | sort =>
    rw [get, Settings.under, Overrides.apply, flag?]
    cases sort with
    | false =>
      dsimp only
      rw [Bool.or_false]
      exact h
    | true => exact Bool.or_true _
  | checkReferences => exact h

end SchemaTypes
