import SchemaTypes.Toml.Document

/-!
# Tables without repeated names

What is read from a text of TOML has no table with a name twice, at any depth. A reader
of values makes tables of braces one assignment after the other, and an assignment only
takes a new name; the statements of a document only add to tables that are there, or
begin new ones. So a name in a table has one value, and the order of names is of no
account.
-/

set_option autoImplicit false

namespace SchemaTypes

namespace Entries

variable {α : Type}

theorem mem_of_get? {es : List (String × α)} {n : String} {v : α} (h : get? es n = some v) :
    (n, v) ∈ es := by
  induction es with
  | nil => cases h
  | cons e es ih =>
    obtain ⟨m, w⟩ := e
    rw [get?] at h
    split at h
    · subst ‹m = n›
      cases h
      exact List.mem_cons_self
    · exact List.mem_cons_of_mem _ (ih h)

theorem mem_put {es : List (String × α)} {n : String} {v : α} {e : String × α}
    (h : e ∈ put es n v) : e ∈ es ∨ e = (n, v) := by
  induction es with
  | nil => exact .inr (List.mem_singleton.mp h)
  | cons d es ih =>
    obtain ⟨m, w⟩ := d
    rw [put] at h
    split at h
    · subst ‹m = n›
      rcases List.mem_cons.mp h with rfl | h
      · exact .inr rfl
      · exact .inl (List.mem_cons_of_mem _ h)
    · rcases List.mem_cons.mp h with rfl | h
      · exact .inl List.mem_cons_self
      · exact (ih h).imp_left (List.mem_cons_of_mem _)

end Entries

namespace Toml

/-- No table in a term has a name twice. -/
inductive Term.Distinct : Term → Prop
  | text (s : String) : Distinct (.text s)
  | integer (n : Int) : Distinct (.integer n)
  | boolean (b : Bool) : Distinct (.boolean b)
  | other : Distinct .other
  | list {items : List Term} (h : ∀ v ∈ items, Distinct v) : Distinct (.list items)
  | table {o : Origin} {t : Table} (hnames : (Entries.names t).Nodup)
      (h : ∀ e ∈ t, Distinct e.2) : Distinct (.table o t)
  | tables {elements : List Table} (hnames : ∀ t ∈ elements, (Entries.names t).Nodup)
      (h : ∀ t ∈ elements, ∀ e ∈ t, Distinct e.2) : Distinct (.tables elements)

namespace Table

structure Distinct (t : Table) : Prop where
  names : (Entries.names t).Nodup
  values : ∀ e ∈ t, e.2.Distinct

theorem distinct_nil : Distinct [] := ⟨List.nodup_nil, nofun⟩

theorem distinct_table_iff {o : Origin} {t : Table} : (Term.table o t).Distinct ↔ t.Distinct := by
  constructor
  · rintro (_ | _ | _ | _ | _ | ⟨hnames, h⟩)
    exact ⟨hnames, h⟩
  · exact fun h => .table h.names h.values

theorem distinct_tables_iff {elements : List Table} :
    (Term.tables elements).Distinct ↔ ∀ t ∈ elements, t.Distinct := by
  constructor
  · rintro (_ | _ | _ | _ | _ | _ | ⟨hnames, h⟩) t ht
    exact ⟨hnames t ht, h t ht⟩
  · exact fun h => .tables (fun t ht => (h t ht).names) fun t ht => (h t ht).values

variable {t s : Table}

theorem Distinct.put (h : t.Distinct) {v : Term} (hv : v.Distinct) (k : String) :
    Distinct (Entries.put t k v) := by
  refine ⟨Entries.nodup_names_put h.names k v, fun e he => ?_⟩
  rcases Entries.mem_put he with he | rfl
  · exact h.values e he
  · exact hv

theorem Distinct.get? (h : t.Distinct) {k : String} {v : Term} (hv : Entries.get? t k = some v) :
    v.Distinct :=
  h.values _ (Entries.mem_of_get? hv)

/-- A change at the end of a path leaves the tables around it as distinct as it leaves the
table at the end. -/
theorem Distinct.descend {dotted : Bool} {change : Origin → Table → Option Table}
    (hchange : ∀ o t s, Distinct t → change o t = some s → Distinct s) {path : List String}
    {o : Origin} (h : t.Distinct) (hs : descend dotted change path o t = some s) : s.Distinct := by
  induction path generalizing o t s with
  | nil => exact hchange o t s h hs
  | cons k path ih =>
    rw [Table.descend] at hs
    split at hs
    · obtain ⟨inner, hinner, rfl⟩ := Option.map_eq_some_iff.mp hs
      exact h.put (distinct_table_iff.mpr (ih distinct_nil hinner)) k
    · rename_i hget
      split at hs
      · obtain ⟨inner, hinner, rfl⟩ := Option.map_eq_some_iff.mp hs
        have hsub := distinct_table_iff.mp (h.get? hget)
        exact h.put (distinct_table_iff.mpr (ih hsub hinner)) k
      · cases hs
    · rename_i hget
      obtain ⟨inner, hinner, rfl⟩ := Option.map_eq_some_iff.mp hs
      have hsub := distinct_tables_iff.mp (h.get? hget)
      rw [List.forall_mem_cons] at hsub
      refine h.put (distinct_tables_iff.mpr ?_) k
      rw [List.forall_mem_cons]
      exact ⟨ih hsub.1 hinner, hsub.2⟩
    · cases hs

theorem Distinct.assign {path : List String} {k : String} {v : Term} {o : Origin} (h : t.Distinct)
    (hv : v.Distinct) (hs : assign path k v o t = some s) : s.Distinct := by
  refine h.descend (fun o t s h hs => ?_) hs
  split at hs
  · cases hs
  split at hs
  · cases hs
  · cases hs
    exact h.put hv k

theorem Distinct.openTable {path : List String} {k : String} {o : Origin} (h : t.Distinct)
    (hs : openTable path k o t = some s) : s.Distinct := by
  refine h.descend (fun o t s h hs => ?_) hs
  split at hs
  · cases hs
    exact h.put (distinct_table_iff.mpr distinct_nil) k
  · rename_i hget
    cases hs
    exact h.put (distinct_table_iff.mpr (distinct_table_iff.mp (h.get? hget))) k
  · cases hs

theorem Distinct.openElement {path : List String} {k : String} {o : Origin} (h : t.Distinct)
    (hs : openElement path k o t = some s) : s.Distinct := by
  refine h.descend (fun o t s h hs => ?_) hs
  split at hs
  · cases hs
    refine h.put (distinct_tables_iff.mpr ?_) k
    rw [List.forall_mem_singleton]
    exact distinct_nil
  · rename_i hget
    cases hs
    refine h.put (distinct_tables_iff.mpr ?_) k
    rw [List.forall_mem_cons]
    exact ⟨distinct_nil, distinct_tables_iff.mp (h.get? hget)⟩
  · cases hs

end Table

/-- Whatever a reader gives has this property. -/
def Reader.Yields {α : Type} (r : Reader α) (P : α → Prop) : Prop :=
  ∀ cs a cs', r.run cs = some (a, cs') → P a

namespace Reader

variable {α β : Type} {P : α → Prop} {Q : β → Prop}

theorem yields_pure {a : α} (h : P a) : Yields (pure a) P := by
  intro cs b cs' hrun
  cases hrun
  exact h

theorem yields_failure : Yields (failure : Reader α) P := nofun

theorem yields_lift {o : Option α} (h : ∀ a, o = some a → P a) :
    Yields (liftM o : Reader α) P := by
  intro cs a cs' hrun
  cases o with
  | none => cases hrun
  | some b =>
    cases hrun
    exact h _ rfl

theorem Yields.bind {x : Reader α} {f : α → Reader β} (hx : Yields x P)
    (hf : ∀ a, P a → Yields (f a) Q) : Yields (x >>= f) Q := by
  intro cs b cs' hrun
  obtain ⟨⟨a, mid⟩, hmid, hrest⟩ := Option.bind_eq_some_iff.mp hrun
  exact hf a (hx cs a mid hmid) mid b cs' hrest

/-- What a reader gives may not depend on what was read before. -/
theorem yields_bind {x : Reader α} {f : α → Reader β} (hf : ∀ a, Yields (f a) Q) :
    Yields (x >>= f) Q :=
  Yields.bind (P := fun _ => True) (fun _ _ _ _ => trivial) fun a _ => hf a

end Reader

open Reader

theorem Word.distinct_of_term? {cs : List Char} {v : Term} (h : Word.term? cs = some v) :
    v.Distinct := by
  rw [Word.term?] at h
  split at h
  · cases h
    exact .boolean true
  split at h
  · cases h
    exact .boolean false
  split at h
  · cases h
    exact .other
  split at h
  · split at h
    · cases h
      exact .integer _
    · cases h
  · cases h

theorem yields_word : Yields word Term.Distinct := by
  unfold word
  refine yields_bind fun cs => ?_
  split
  · refine yields_bind fun left => ?_
    split
    · split
      · refine yields_bind fun _ => yields_bind fun time => ?_
        split
        · exact yields_pure .other
        · exact yields_failure
      · exact yields_pure .other
    · exact yields_pure .other
  · exact yields_lift fun v => Word.distinct_of_term?

/-- By induction on the fuel, for values, lists and the pairs of a table at once. -/
theorem yields_value (fuel : Nat) :
    (∀ depth, Yields (value fuel depth) Term.Distinct) ∧
    (∀ depth, Yields (items fuel depth) fun vs => ∀ v ∈ vs, v.Distinct) ∧
    ∀ depth t, t.Distinct → Yields (pairs fuel depth t) Table.Distinct := by
  induction fuel with
  | zero =>
    refine ⟨fun depth => ?_, fun depth => ?_, fun depth t ht => ?_⟩
    · exact yields_failure
    · exact yields_failure
    · exact yields_failure
  | succ fuel ih =>
    obtain ⟨ihvalue, ihitems, ihpairs⟩ := ih
    refine ⟨fun depth => ?_, fun depth => ?_, fun depth t ht => ?_⟩
    · unfold value
      refine yields_bind fun c => ?_
      split
      · exact yields_bind fun s => yields_pure (.text s)
      · exact yields_bind fun s => yields_pure (.text s)
      · refine yields_bind fun _ => ?_
        split
        · exact yields_failure
        · exact (ihitems _).bind fun vs hvs => yields_pure (.list hvs)
      · refine yields_bind fun _ => ?_
        split
        · exact yields_failure
        · refine yields_bind fun _ => yields_bind fun closed => ?_
          split
          · exact yields_pure (Table.distinct_table_iff.mpr Table.distinct_nil)
          · exact (ihpairs _ _ Table.distinct_nil).bind fun t ht =>
              yields_pure (Table.distinct_table_iff.mpr ht)
      · exact yields_word
    · unfold items
      refine yields_bind fun _ => yields_bind fun closed => ?_
      split
      · exact yields_pure nofun
      · refine (ihvalue depth).bind fun v hv => yields_bind fun _ => yields_bind fun more => ?_
        split
        · refine (ihitems depth).bind fun vs hvs => yields_pure ?_
          rw [List.forall_mem_cons]
          exact ⟨hv, hvs⟩
        · refine yields_bind fun _ => yields_pure ?_
          rw [List.forall_mem_singleton]
          exact hv
    · unfold pairs
      refine yields_bind fun named => yields_bind fun _ => yields_bind fun _ =>
        yields_bind fun _ => (ihvalue depth).bind fun v hv => yields_bind fun _ => ?_
      split
      · exact yields_failure
      · rename_i hassign
        have hs := ht.assign hv hassign
        refine yields_bind fun more => ?_
        split
        · exact ihpairs depth _ hs
        · exact yields_bind fun _ => yields_pure hs

/-- A statement that assigns a value without repeated names, or no value. -/
def Statement.Distinct : Statement → Prop
  | .assign _ _ v => v.Distinct
  | _ => True

theorem yields_statement (fuel : Nat) : Yields (statement fuel) Statement.Distinct := by
  have hend (s : Statement) (h : s.Distinct) :
      Yields (do endOfLine; return s) Statement.Distinct :=
    yields_bind fun _ => yields_pure h
  unfold statement
  refine yields_bind fun doubled => yields_bind fun single => ?_
  dsimp only
  split
  · exact Yields.bind (yields_bind fun named => yields_bind fun _ => yields_bind fun _ =>
      yields_pure (P := Statement.Distinct) trivial) hend
  split
  · exact Yields.bind (yields_bind fun named => yields_bind fun _ => yields_bind fun _ =>
      yields_pure (P := Statement.Distinct) trivial) hend
  · exact Yields.bind (yields_bind fun named => yields_bind fun _ => yields_bind fun _ =>
      yields_bind fun _ => ((yields_value fuel).1 _).bind fun v hv =>
        yields_pure (P := Statement.Distinct) hv) hend

theorem yields_statements (fuel : Nat) :
    Yields (statements fuel) fun ss => ∀ s ∈ ss, s.Distinct := by
  induction fuel with
  | zero => exact yields_failure
  | succ fuel ih =>
    unfold statements
    refine yields_bind fun _ => yields_bind fun c => ?_
    split
    · exact yields_pure nofun
    · exact yields_bind fun _ => ih
    · refine yields_bind fun blank => ?_
      split
      · exact ih
      · refine (yields_statement _).bind fun s hs => ih.bind fun ss hss => yields_pure ?_
        rw [List.forall_mem_cons]
        exact ⟨hs, hss⟩

theorem Draft.distinct_add {d d' : Draft} {s : Statement} (hd : d.table.Distinct)
    (hs : s.Distinct) (h : d.add s = some d') : d'.table.Distinct := by
  cases s with
  | header path k =>
    obtain ⟨t, ht, rfl⟩ := Option.map_eq_some_iff.mp h
    exact hd.openTable ht
  | element path k =>
    obtain ⟨t, ht, rfl⟩ := Option.map_eq_some_iff.mp h
    exact hd.openElement ht
  | assign path k v =>
    obtain ⟨t, ht, rfl⟩ := Option.map_eq_some_iff.mp h
    exact hd.descend (fun _ _ _ h hassign => h.assign hs hassign) ht

theorem Draft.distinct_foldlM {ss : List Statement} (hss : ∀ s ∈ ss, s.Distinct) {d d' : Draft}
    (hd : d.table.Distinct) (h : ss.foldlM Draft.add d = some d') : d'.table.Distinct := by
  induction ss generalizing d with
  | nil =>
    cases h
    exact hd
  | cons s ss ih =>
    rw [List.forall_mem_cons] at hss
    obtain ⟨next, hnext, hrest⟩ := Option.bind_eq_some_iff.mp h
    exact ih hss.2 (Draft.distinct_add hd hss.1 hnext) hrest

theorem Table.distinct_of_ofText? {text : String} {t : Table} (h : ofText? text = some t) :
    t.Distinct := by
  obtain ⟨⟨ss, rest⟩, hss, h⟩ := Option.bind_eq_some_iff.mp h
  obtain ⟨d, hd, h⟩ := Option.bind_eq_some_iff.mp h
  cases h
  exact Draft.distinct_foldlM (yields_statements _ _ _ _ hss) distinct_nil hd

end Toml

end SchemaTypes
