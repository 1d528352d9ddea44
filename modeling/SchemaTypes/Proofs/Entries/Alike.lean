import Mathlib.Data.List.Forall2
import SchemaTypes.Entries

/-!
# Entries of the same names

Two lists of entries with the same names in the same order, whose values are
related name by name. What is done to both of them, entry by entry or as a whole,
keeps them so.
-/

set_option autoImplicit false

namespace SchemaTypes.Entries

variable {α β γ δ : Type}

def Alike (R : String → α → β → Prop) (es : List (String × α)) (fs : List (String × β)) : Prop :=
  List.Forall₂ (fun e f => e.1 = f.1 ∧ R e.1 e.2 f.2) es fs

namespace Alike

variable {R : String → α → β → Prop} {S : String → γ → δ → Prop} {es : List (String × α)}
  {fs : List (String × β)}

theorem refl {R : String → α → α → Prop} (h : ∀ n v, R n v v) (es : List (String × α)) :
    Alike R es es :=
  List.forall₂_same.mpr fun e _ => ⟨rfl, h e.1 e.2⟩

theorem names_eq (h : Alike R es fs) : names es = names fs := by
  induction h with
  | nil => rfl
  | cons he _ ih => rw [names_cons, names_cons, he.1, ih]

theorem mono {R' : String → α → β → Prop} (h : Alike R es fs)
    (hR : ∀ n v w, R n v w → R' n v w) : Alike R' es fs :=
  List.Forall₂.imp (fun _ _ he => ⟨he.1, hR _ _ _ he.2⟩) h

theorem mapValues (h : Alike R es fs) {f : α → γ} {g : β → δ}
    (hfg : ∀ n v w, R n v w → S n (f v) (g w)) :
    Alike S (mapValues f es) (mapValues g fs) := by
  induction h with
  | nil => exact .nil
  | @cons e _ _ _ he _ ih => exact .cons ⟨he.1, hfg e.1 _ _ he.2⟩ ih

theorem put (h : Alike R es fs) {n : String} {v : α} {w : β} (hv : R n v w) :
    Alike R (put es n v) (put fs n w) := by
  induction h with
  | nil => exact .cons ⟨rfl, hv⟩ .nil
  | @cons e f es fs he hrest ih =>
    obtain ⟨m, a⟩ := e
    obtain ⟨m', b⟩ := f
    obtain ⟨rfl, hab⟩ : m = m' ∧ R m a b := he
    by_cases hm : m = n
    · subst hm
      simp only [Entries.put, if_true]
      exact .cons ⟨rfl, hv⟩ hrest
    · simp only [Entries.put, if_neg hm]
      exact .cons ⟨rfl, hab⟩ ih

theorem putAll {fs' : List (String × β)} {es' : List (String × α)} (h : Alike R es fs)
    (h' : Alike R es' fs') : Alike R (putAll es es') (putAll fs fs') := by
  induction h' generalizing es fs with
  | nil => exact h
  | @cons e f _ _ he _ ih =>
    obtain ⟨n, v⟩ := e
    obtain ⟨n', w⟩ := f
    obtain ⟨rfl, hv⟩ : n = n' ∧ R n v w := he
    exact ih (h.put hv)

theorem ofList (h : Alike R es fs) : Alike R (ofList es) (ofList fs) :=
  putAll .nil h

/-- The order of names does not look at values. -/
theorem sorted (h : Alike R es fs) : Alike R (sorted es) (sorted fs) := by
  let le (p q : (String × α) × (String × β)) : Bool := decide (p.1.1 ≤ q.1.1)
  obtain ⟨hlength, hzip⟩ := List.forall₂_iff_zip.mp h
  have hfst : (es.zip fs).map Prod.fst = es := List.map_fst_zip (Nat.le_of_eq hlength)
  have hsnd : (es.zip fs).map Prod.snd = fs := List.map_snd_zip (Nat.le_of_eq hlength.symm)
  have hes : ((es.zip fs).mergeSort le).map Prod.fst = Entries.sorted es := by
    have hmap := List.map_mergeSort (r := le) (f := Prod.fst) (l := es.zip fs)
      (s := fun a b => decide (a.1 ≤ b.1)) fun _ _ _ _ => rfl
    rwa [hfst] at hmap
  have hfs : ((es.zip fs).mergeSort le).map Prod.snd = Entries.sorted fs := by
    have hmap := List.map_mergeSort (r := le) (f := Prod.snd) (l := es.zip fs)
      (s := fun a b => decide (a.1 ≤ b.1)) fun p hp q hq => by
        simp only [le, (hzip hp).1, (hzip hq).1]
    rwa [hsnd] at hmap
  rw [← hes, ← hfs, Alike, List.forall₂_map_left_iff, List.forall₂_map_right_iff, List.forall₂_same]
  intro p hp
  exact hzip ((List.mergeSort_perm _ _).mem_iff.mp hp)

/-- What the values of other names have in common with those that are equal. -/
theorem filter_ne {R : String → α → α → Prop} {es fs : List (String × α)} {n : String}
    (h : Alike R es fs) (hR : ∀ m v w, R m v w → m ≠ n → v = w) :
    es.filter (·.1 ≠ n) = fs.filter (·.1 ≠ n) := by
  induction h with
  | nil => rfl
  | @cons e f es fs he _ ih =>
    obtain ⟨m, v⟩ := e
    obtain ⟨m', w⟩ := f
    obtain ⟨rfl, hv⟩ : m = m' ∧ R m v w := he
    by_cases hm : m = n
    · rw [List.filter_cons_of_neg (by simpa using hm), List.filter_cons_of_neg (by simpa using hm),
        ih]
    · rw [List.filter_cons_of_pos (by simpa using hm), List.filter_cons_of_pos (by simpa using hm),
        ih, hR m v w hv hm]

end Alike

/-- Entries that differ in the value of one of them, which has this key. -/
inductive Replaced {κ : Type} (R : α → α → Prop) (k : κ) :
    List (κ × α) → List (κ × α) → Prop
  | here {v w : α} {es : List (κ × α)} : R v w → Replaced R k ((k, v) :: es) ((k, w) :: es)
  | there {e : κ × α} {es fs : List (κ × α)} : Replaced R k es fs → Replaced R k (e :: es) (e :: fs)

theorem Replaced.alike {R : α → α → Prop} {n : String} {es fs : List (String × α)}
    (h : Replaced R n es fs) : Alike (fun m v w => v = w ∨ m = n ∧ R v w) es fs := by
  induction h with
  | @here v w es hv =>
    have hrest : Alike (fun m v w => v = w ∨ m = n ∧ R v w) es es := by
      apply Alike.refl
      intro m v
      exact .inl rfl
    exact .cons ⟨rfl, .inr ⟨rfl, hv⟩⟩ hrest
  | there _ ih => exact .cons ⟨rfl, .inl rfl⟩ ih

end SchemaTypes.Entries
