import SchemaTypes.Json.Reading
import SchemaTypes.Schema.Parsing

/-!
# What a text says

A text of JSON without its places: what both readers of its tree see, as long as
nothing goes wrong. Two texts that say the same are read the same, so what is
proved of forms holds of all texts that have them, with whatever white space.
-/

set_option autoImplicit false

namespace SchemaTypes.Json

variable {α β γ δ : Type}

def cons? : Option α → Option (List α) → Option (List α)
  | some a, some as => some (a :: as)
  | _, _ => none

theorem isSome_cons? (a : Option α) (as : Option (List α)) :
    (cons? a as).isSome = (a.isSome && as.isSome) := by
  cases a <;> cases as <;> rfl

theorem cons?_eq_some_iff {a : Option α} {as : Option (List α)} {bs : List α} :
    cons? a as = some bs ↔ ∃ b cs, a = some b ∧ as = some cs ∧ b :: cs = bs := by
  cases a <;> cases as <;> simp [cons?]

/-- To read a list is to read what it begins with and then the rest. -/
theorem bind_cons? (f : α → β) (g : γ → δ) (read : α → Option γ)
    (readRest readAll : List β → Option (List δ))
    (h : ∀ a as, readAll (f a :: as) = cons? ((read a).map g) (readRest as)) (a : Option α)
    (as : Option (List β)) :
    (cons? (a.map f) as).bind readAll = cons? ((a.bind read).map g) (as.bind readRest) := by
  cases a with
  | none => rfl
  | some a =>
    cases as with
    | none =>
      rw [Option.bind_none, Option.bind_some]
      cases read a <;> rfl
    | some as => exact h a as

theorem toOption_map (f : α → β) (e : Except Failure α) :
    (e.map f).toOption = e.toOption.map f := by
  cases e <;> rfl

/-- What reads something, stops if it fails, and then reads the rest. -/
theorem toOption_cons {f : α → β} {e : Except Failure α} {rest all : Except Failure (List β)}
    (herror : ∀ failure, e = .error failure → all = .error failure)
    (hok : ∀ v, e = .ok v → all = rest.map (f v :: ·)) :
    all.toOption = cons? (e.toOption.map f) rest.toOption := by
  cases he : e with
  | error failure =>
    rw [herror failure he]
    rfl
  | ok v =>
    rw [hok v he]
    cases rest <;> rfl

theorem toOption_settle (p : Nat) (e : Except Failure α) :
    (settle p e).toOption = e.toOption := by
  cases e <;> rfl

theorem toOption_judge (kind : String) (fits : Value → Bool) (e : Except Failure Value) :
    (judge kind fits e).toOption = e.toOption.filter fits := by
  cases e with
  | error failure => rfl
  | ok v =>
    have hok : (Except.ok v : Except Failure Value).toOption = some v := rfl
    rw [judge, hok, Option.filter_some]
    cases fits v <;> rfl

/-- A number, a text or a key has no value if it is well written and out of range. -/
inductive Form
  | null
  | bool (b : Bool)
  | number (value? : Option Number)
  | string (value? : Option String)
  | list (items : List Form)
  | object (entries : List (Option String × Form))

namespace Form

mutual

def beq : Form → Form → Bool
  | .null, .null => true
  | .bool b, .bool c => b = c
  | .number m, .number n => m = n
  | .string s, .string t => s = t
  | .list fs, .list gs => beqItems fs gs
  | .object es, .object fs => beqEntries es fs
  | _, _ => false

def beqItems : List Form → List Form → Bool
  | [], [] => true
  | f :: fs, g :: gs => f.beq g && beqItems fs gs
  | _, _ => false

def beqEntries : List (Option String × Form) → List (Option String × Form) → Bool
  | [], [] => true
  | (n, f) :: es, (m, g) :: fs => n = m && f.beq g && beqEntries es fs
  | _, _ => false

end

mutual

theorem beq_iff : ∀ f g : Form, f.beq g = true ↔ f = g
  | .null, g => by cases g <;> simp [beq]
  | .bool b, g => by cases g <;> simp [beq]
  | .number n, g => by cases g <;> simp [beq]
  | .string s, g => by cases g <;> simp [beq]
  | .list fs, g => by cases g <;> simp [beq, beqItems_iff fs]
  | .object es, g => by cases g <;> simp [beq, beqEntries_iff es]

theorem beqItems_iff : ∀ fs gs : List Form, beqItems fs gs = true ↔ fs = gs
  | [], gs => by cases gs <;> simp [beqItems]
  | f :: fs, gs => by
    cases gs <;> simp [beqItems, beq_iff f, beqItems_iff fs]

theorem beqEntries_iff :
    ∀ es fs : List (Option String × Form), beqEntries es fs = true ↔ es = fs
  | [], fs => by cases fs <;> simp [beqEntries]
  | (n, f) :: es, [] => by simp [beqEntries]
  | (n, f) :: es, (m, g) :: fs => by
    simp [beqEntries, beq_iff f g, beqEntries_iff es fs]

end

instance : DecidableEq Form := fun f g => decidable_of_iff _ (beq_iff f g)

end Form

mutual

def Tree.form? : Tree → Option Form
  | .null _ => some .null
  | .bool b _ => some (.bool b)
  | .number n _ => some (.number n.toOption)
  | .string s _ => some (.string s.toOption)
  | .list _ chain => chain.forms?.map .list
  | .object _ chain => chain.forms?.map .object
  | .broken _ _ => none

def Items.forms? : Items → Option (List Form)
  | .close _ => some []
  | .item _ t _ rest => cons? t.form? rest.forms?
  | .broken _ => none

def Entries.forms? : Entries → Option (List (Option String × Form))
  | .close _ => some []
  | .entry key _ t _ rest => cons? (t.form?.map (key.toOption, ·)) rest.forms?
  | .broken _ => none
  | .badKey _ _ => none

end

/-- What a text says, if it is JSON from its beginning to its end. -/
def form? (text : String) : Option Form :=
  match Tree.ofChars text.toList with
  | (t, none) => t.form?
  | (_, some _) => none

namespace Form

def isNull : Form → Bool
  | .null => true
  | _ => false

mutual

/-- The value, with `depth` levels of brackets allowed. -/
def value? : Form → Nat → Option Value
  | .null, _ => some .null
  | .bool b, _ => some (.bool b)
  | .number n, _ => n.map .number
  | .string s, _ => s.map .string
  | .list _, 0 => none
  | .list items, depth + 1 => (values? items depth).map .list
  | .object _, 0 => none
  | .object entries, depth + 1 => (entryValues? entries depth).map .object

def values? : List Form → Nat → Option (List Value)
  | [], _ => some []
  | f :: fs, depth => cons? (value? f depth) (values? fs depth)

def entryValues? : List (Option String × Form) → Nat → Option (List (Key × Value))
  | [], _ => some []
  | (none, _) :: _, _ => none
  | (some k, f) :: es, depth => cons? ((value? f depth).map (.name k, ·)) (entryValues? es depth)

end

mutual

/-- The value of what has an outline. Of a record only the fields remain. -/
def read? : Form → Nat → Outline → Option Value
  | f, depth, .whole _ fits => (value? f depth).filter fits
  | .object entries, depth + 1, .names _ each => (readNames? entries depth each).map .object
  | .object entries, depth + 1, .record _ _ fields =>
    (readFields? entries depth fields []).map .object
  | .list items, depth + 1, .record _ spare fields =>
    (readItems? items depth spare 0 fields).map .object
  | _, _, _ => none

/-- A field of a record may be null. -/
def readItems? : List Form → Nat → Nat → Nat → List (String × Outline) →
    Option (List (Key × Value))
  | [], _, spare, index, fields =>
    if max index spare < index + fields.length then none else some []
  | _ :: _, _, _, _, [] => none
  | f :: fs, depth, spare, index, (name, o) :: fields =>
    cons? ((if f.isNull then some .null else read? f depth o).map (.name name, ·))
      (readItems? fs depth spare (index + 1) fields)

def readFields? : List (Option String × Form) → Nat → List (String × Outline) → List String →
    Option (List (Key × Value))
  | [], _, _, _ => some []
  | (none, _) :: _, _, _, _ => none
  | (some name, f) :: es, depth, fields, seen =>
    match Outline.field? fields name with
    | none => readFields? es depth fields seen
    | some o =>
      if seen.contains name then none
      else
        cons? ((if f.isNull then some .null else read? f depth o).map (.name name, ·))
          (readFields? es depth fields (name :: seen))

def readNames? : List (Option String × Form) → Nat → Outline → Option (List (Key × Value))
  | [], _, _ => some []
  | (none, _) :: _, _, _ => none
  | (some name, f) :: es, depth, each =>
    cons? ((read? f depth each).map (.name name, ·)) (readNames? es depth each)

end

def field? (f : Form) (depth : Nat) (o : Outline) : Option Value :=
  if f.isNull then some .null else f.read? depth o

section Fields

variable {name : String} {f : Form} {es : List (Option String × Form)} {depth : Nat}
  {fields : List (String × Outline)} {seen : List String} {o : Outline}

/-- What belongs to no field is passed over. -/
theorem readFields?_of_unknown (ho : Outline.field? fields name = none) :
    readFields? ((some name, f) :: es) depth fields seen = readFields? es depth fields seen := by
  rw [readFields?, ho]

theorem readFields?_of_seen (ho : Outline.field? fields name = some o)
    (hseen : seen.contains name = true) :
    readFields? ((some name, f) :: es) depth fields seen = none := by
  rw [readFields?, ho]
  exact if_pos hseen

theorem readFields?_of_fresh (ho : Outline.field? fields name = some o)
    (hseen : ¬seen.contains name = true) :
    readFields? ((some name, f) :: es) depth fields seen =
      cons? ((f.field? depth o).map (Key.name name, ·))
        (readFields? es depth fields (name :: seen)) := by
  rw [readFields?, ho]
  exact if_neg hseen

end Fields

/-- The document that is read. A text that says no more than null is an empty one. -/
def document? (f : Form) : Option Schema.Document :=
  (if f.isNull then some .null else f.read? depthLimit Schema.Document.outline).bind
    Schema.Document.ofValue?

end Form

mutual

theorem Tree.toOption_value? (t : Tree) (depth : Nat) :
    (t.value? depth).toOption = t.form?.bind (·.value? depth) := by
  cases t with
  | null stop => rfl
  | bool b stop => rfl
  | number n stop => exact toOption_map _ _
  | string s stop => exact toOption_map _ _
  | broken careful careless => rfl
  | list start chain =>
    cases depth with
    | zero =>
      rw [Tree.form?]
      cases chain.forms? <;> rfl
    | succ depth =>
      rw [Tree.value?, toOption_map, Items.toOption_values?, Tree.form?]
      cases chain.forms? <;> rfl
  | object start chain =>
    cases depth with
    | zero =>
      rw [Tree.form?]
      cases chain.forms? <;> rfl
    | succ depth =>
      rw [Tree.value?, toOption_map, Entries.toOption_values?, Tree.form?]
      cases chain.forms? <;> rfl

theorem Items.toOption_values? (chain : Items) (depth : Nat) :
    (chain.values? depth).toOption = chain.forms?.bind (Form.values? · depth) := by
  cases chain with
  | close stop => rfl
  | broken b => rfl
  | item start t after rest =>
    have hforms := bind_cons? id id (Form.value? · depth) (Form.values? · depth)
      (Form.values? · depth) (fun f fs => by rw [Option.map_id_apply]; rfl) t.form? rest.forms?
    rw [Option.map_id_apply] at hforms
    rw [Items.forms?, hforms, ← Tree.toOption_value?, ← Items.toOption_values?]
    exact toOption_cons (fun _ h => by rw [Items.values?, h])
      (fun _ h => by rw [Items.values?, h]; rfl)

theorem Entries.toOption_values? (chain : Entries) (depth : Nat) :
    (chain.values? depth).toOption = chain.forms?.bind (Form.entryValues? · depth) := by
  cases chain with
  | close stop => rfl
  | broken b => rfl
  | badKey careful careless => rfl
  | entry key afterKey t after rest =>
    rw [Entries.forms?]
    cases key with
    | error failure => cases t.form? <;> cases rest.forms? <;> rfl
    | ok k =>
      rw [bind_cons? _ (Key.name k, ·) (Form.value? · depth) (Form.entryValues? · depth) _
        (fun _ _ => rfl), ← Tree.toOption_value?, ← Entries.toOption_values?]
      exact toOption_cons (fun _ h => by rw [Entries.values?, h])
        (fun _ h => by rw [Entries.values?, h])

end

mutual

/-- What is not looked at is still JSON. -/
theorem Tree.isSome_form? (t : Tree) : t.form?.isSome = t.skim.isOk := by
  cases t with
  | list start chain => rw [Tree.form?, Option.isSome_map, Items.isSome_forms?, Tree.skim]
  | object start chain => rw [Tree.form?, Option.isSome_map, Entries.isSome_forms?, Tree.skim]
  | _ => rfl

theorem Items.isSome_forms? (chain : Items) : chain.forms?.isSome = chain.skim.isOk := by
  cases chain with
  | item start t after rest =>
    rw [Items.forms?, isSome_cons?, Tree.isSome_form?, Items.isSome_forms?, Items.skim]
    cases t.skim <;> rfl
  | _ => rfl

theorem Entries.isSome_forms? (chain : Entries) : chain.forms?.isSome = chain.skim.isOk := by
  cases chain with
  | entry key afterKey t after rest =>
    rw [Entries.forms?, isSome_cons?, Option.isSome_map, Tree.isSome_form?, Entries.isSome_forms?,
      Entries.skim]
    cases t.skim <;> rfl
  | _ => rfl

end

theorem Tree.skim_of_form {t : Tree} {f : Form} (h : t.form? = some f) : t.skim = .ok () := by
  have hskim := Tree.isSome_form? t
  rw [h] at hskim
  cases hs : t.skim with
  | ok _ => rfl
  | error failure =>
    rw [hs] at hskim
    cases hskim

theorem Tree.skim_of_no_form {t : Tree} (h : t.form? = none) :
    ∃ failure, t.skim = .error failure := by
  have hskim := Tree.isSome_form? t
  rw [h] at hskim
  cases hs : t.skim with
  | error failure => exact ⟨failure, rfl⟩
  | ok _ =>
    rw [hs] at hskim
    cases hskim

theorem Tree.toOption_mismatch (o : Outline) (t : Tree) :
    (t.mismatch o : Except Failure Value).toOption = none := by
  cases t with
  | number n stop => cases n <;> rfl
  | string s stop => cases s <;> rfl
  | _ => rfl

theorem Tree.isNull_form {t : Tree} {f : Form} (h : t.form? = some f) : f.isNull = t.isNull := by
  cases t with
  | list start chain =>
    obtain ⟨fs, _, rfl⟩ := Option.map_eq_some_iff.mp h
    rfl
  | object start chain =>
    obtain ⟨es, _, rfl⟩ := Option.map_eq_some_iff.mp h
    rfl
  | broken careful careless => cases h
  | _ =>
    cases h
    rfl

mutual

theorem Tree.toOption_read (t : Tree) (depth : Nat) (o : Outline) :
    (t.read depth o).toOption = t.form?.bind (·.read? depth o) := by
  cases o with
  | whole kind fits =>
    rw [Tree.read, toOption_judge, Tree.toOption_value?]
    cases t.form? with
    | none => rfl
    | some f => rw [Option.bind_some, Option.bind_some, Form.read?]
  | names expected each =>
    cases t with
    | object start chain =>
      cases depth with
      | zero =>
        rw [Tree.form?]
        cases chain.forms? <;> rfl
      | succ depth =>
        rw [Tree.read, toOption_map, Entries.toOption_readNames, Tree.form?]
        cases chain.forms? <;> rfl
    | list start chain =>
      rw [Tree.form?]
      cases chain.forms? with
      | none => exact Tree.toOption_mismatch _ (.list start chain)
      | some fs => exact Tree.toOption_mismatch _ (.list start chain)
    | number n stop => exact Tree.toOption_mismatch _ (.number n stop)
    | string s stop => exact Tree.toOption_mismatch _ (.string s stop)
    | _ => rfl
  | record title spare fields =>
    cases t with
    | object start chain =>
      cases depth with
      | zero =>
        rw [Tree.form?]
        cases chain.forms? <;> rfl
      | succ depth =>
        rw [Tree.read, toOption_map, Entries.toOption_readFields, Tree.form?]
        cases chain.forms? <;> rfl
    | list start chain =>
      cases depth with
      | zero =>
        rw [Tree.form?]
        cases chain.forms? <;> rfl
      | succ depth =>
        rw [Tree.read, toOption_map, Items.toOption_readFields, Tree.form?]
        cases chain.forms? <;> rfl
    | number n stop => exact Tree.toOption_mismatch _ (.number n stop)
    | string s stop => exact Tree.toOption_mismatch _ (.string s stop)
    | _ => rfl

/-- A field of a record, which may be null. -/
theorem Tree.toOption_field (after : Nat) (t : Tree) (depth : Nat) (o : Outline) :
    (if t.isNull then .ok .null else settle after (t.read depth o) :
      Except Failure Value).toOption = t.form?.bind (·.field? depth o) := by
  have hread := Tree.toOption_read t depth o
  cases hnull : t.isNull with
  | true =>
    cases t with
    | null stop => rfl
    | _ => cases hnull
  | false =>
    rw [if_neg Bool.false_ne_true, toOption_settle, hread]
    apply Option.bind_congr
    intro f hf
    rw [Form.field?, Tree.isNull_form hf, hnull, if_neg Bool.false_ne_true]

theorem Items.toOption_readFields (chain : Items) (depth : Nat) (title : String)
    (spare index : Nat) (fields : List (String × Outline)) :
    (chain.readFields depth title spare index fields).toOption =
      chain.forms?.bind (Form.readItems? · depth spare index fields) := by
  cases chain with
  | close stop =>
    rw [Items.readFields, endOfFields, Items.forms?, Option.bind_some, Form.readItems?]
    split <;> rfl
  | broken b => cases fields <;> rfl
  | item start t after rest =>
    cases fields with
    | nil =>
      rw [Items.forms?]
      cases t.form? <;> cases rest.forms? <;> rfl
    | cons field fields =>
      obtain ⟨name, o⟩ := field
      have hforms := bind_cons? id (Key.name name, ·) (·.field? depth o)
        (Form.readItems? · depth spare (index + 1) fields)
        (Form.readItems? · depth spare index ((name, o) :: fields)) (fun _ _ => rfl)
        t.form? rest.forms?
      rw [Option.map_id_apply] at hforms
      rw [Items.forms?, hforms, ← Tree.toOption_field after t depth o,
        ← Items.toOption_readFields rest]
      exact toOption_cons (fun _ h => by rw [Items.readFields, h])
        (fun _ h => by rw [Items.readFields, h])

theorem Entries.toOption_readFields (chain : Entries) (depth : Nat)
    (fields : List (String × Outline)) (seen : List String) :
    (chain.readFields depth fields seen).toOption =
      chain.forms?.bind (Form.readFields? · depth fields seen) := by
  cases chain with
  | close stop => rfl
  | broken b => rfl
  | badKey careful careless => rfl
  | entry key afterKey t after rest =>
    rw [Entries.forms?]
    cases key with
    | error failure => cases t.form? <;> cases rest.forms? <;> rfl
    | ok name =>
      have hkey : (Except.ok name : Except Failure String).toOption = some name := rfl
      rw [hkey]
      cases ho : Outline.field? fields name with
      | none =>
        rw [Entries.readFields]
        simp only [ho]
        cases hf : t.form? with
        | none =>
          obtain ⟨failure, hskim⟩ := Tree.skim_of_no_form hf
          rw [hskim]
          rfl
        | some f =>
          rw [Tree.skim_of_form hf]
          dsimp only
          rw [Entries.toOption_readFields rest]
          cases rest.forms? with
          | none => rfl
          | some es => exact (Form.readFields?_of_unknown ho).symm
      | some o =>
        by_cases hseen : seen.contains name = true
        · rw [Entries.readFields]
          simp only [ho, if_pos hseen]
          cases t.form? with
          | none => rfl
          | some f =>
            cases rest.forms? with
            | none => rfl
            | some es => exact (Form.readFields?_of_seen ho hseen).symm
        · rw [bind_cons? _ (Key.name name, ·) (·.field? depth o)
            (Form.readFields? · depth fields (name :: seen)) _
            (fun _ _ => Form.readFields?_of_fresh ho hseen), ← Tree.toOption_field after t depth o,
            ← Entries.toOption_readFields rest]
          refine toOption_cons (fun _ h => ?_) (fun _ h => ?_)
          all_goals
            rw [Entries.readFields]
            simp only [ho, if_neg hseen, h]

theorem Entries.toOption_readNames (chain : Entries) (depth : Nat) (each : Outline) :
    (chain.readNames depth each).toOption =
      chain.forms?.bind (Form.readNames? · depth each) := by
  cases chain with
  | close stop => rfl
  | broken b => rfl
  | badKey careful careless => rfl
  | entry key afterKey t after rest =>
    rw [Entries.forms?]
    cases key with
    | error failure => cases t.form? <;> cases rest.forms? <;> rfl
    | ok name =>
      rw [bind_cons? _ (Key.name name, ·) (Form.read? · depth each) (Form.readNames? · depth each) _
        (fun _ _ => rfl), ← Tree.toOption_read, ← Entries.toOption_readNames,
        ← toOption_settle after (t.read depth each)]
      exact toOption_cons (fun _ h => by rw [Entries.readNames, h])
        (fun _ h => by rw [Entries.readNames, h])

end

theorem toOption_read (orNull : Bool) (o : Outline) (text : String) :
    (read orNull o text).toOption = (form? text).bind fun f =>
      if orNull && f.isNull then some .null else f.read? depthLimit o := by
  rw [read, form?]
  obtain ⟨t, tail⟩ := Tree.ofChars text.toList
  have hvalue : (if orNull && t.isNull then .ok .null else t.read depthLimit o :
      Except Failure Value).toOption = t.form?.bind fun f =>
        if orNull && f.isNull then some .null else f.read? depthLimit o := by
    cases hnull : orNull && t.isNull with
    | true =>
      obtain ⟨rfl, ht⟩ := Bool.and_eq_true_iff.mp hnull
      cases t with
      | null stop => rfl
      | _ => cases ht
    | false =>
      rw [if_neg Bool.false_ne_true, Tree.toOption_read]
      apply Option.bind_congr
      intro f hf
      rw [Tree.isNull_form hf, hnull, if_neg Bool.false_ne_true]
  dsimp only
  cases hv : (if orNull && t.isNull then .ok .null else t.read depthLimit o :
      Except Failure Value) with
  | error failure =>
    rw [hv] at hvalue
    cases tail with
    | none => exact hvalue
    | some p => rfl
  | ok v =>
    rw [hv] at hvalue
    cases tail with
    | none => exact hvalue
    | some p => rfl

/-- A text is the document that its form says. -/
theorem toOption_parse (text : String) :
    (Schema.Document.parse .json text).toOption = (form? text).bind Form.document? := by
  have hread := toOption_read true Schema.Document.outline text
  have hform : (form? text).bind Form.document? =
      (read true Schema.Document.outline text).toOption.bind Schema.Document.ofValue? := by
    rw [hread, Option.bind_assoc]
    rfl
  rw [hform, Schema.Document.parse, Schema.parseAs]
  cases read true Schema.Document.outline text with
  | error failure => rfl
  | ok v =>
    dsimp only
    have hok : (Except.ok v : Except Failure Value).toOption = some v := rfl
    rw [hok, Option.bind_some]
    cases Schema.Document.ofValue? v <;> rfl

end SchemaTypes.Json
