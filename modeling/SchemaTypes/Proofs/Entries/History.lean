import Mathlib.Data.List.Induction
import SchemaTypes.Entries

/-!
# Histories of entries

Entries that come one after another, names again and again. Collected, every name
stands where it first came with the value that came last, and a name is noted each
time it comes again.
-/

set_option autoImplicit false

namespace SchemaTypes

theorem eraseDups_concat (ns : List String) (n : String) :
    (ns ++ [n]).eraseDups = if n ∈ ns then ns.eraseDups else ns.eraseDups ++ [n] := by
  rw [List.eraseDups_append, List.removeAll]
  by_cases h : n ∈ ns <;> simp [h, List.eraseDups_cons]

theorem eraseDups_filter (p : String → Bool) (ns : List String) :
    (ns.filter p).eraseDups = ns.eraseDups.filter p := by
  induction ns using List.reverseRecOn with
  | nil => rfl
  | append_singleton ns n ih =>
    rw [List.filter_append, eraseDups_concat]
    by_cases hp : p n = true
    · rw [List.filter_cons_of_pos hp, List.filter_nil, eraseDups_concat, ih]
      by_cases hn : n ∈ ns <;> simp [hn, hp]
    · rw [List.filter_cons_of_neg hp, List.filter_nil, List.append_nil, ih]
      by_cases hn : n ∈ ns <;> simp [hn, hp]

theorem eraseDups_of_nodup {ns : List String} (h : ns.Nodup) : ns.eraseDups = ns := by
  induction ns using List.reverseRecOn with
  | nil => rfl
  | append_singleton ns n ih =>
    rw [List.nodup_append] at h
    have hn : n ∉ ns := fun hn => h.2.2 n hn n (by simp) rfl
    rw [eraseDups_concat, if_neg hn, ih h.1]

theorem nodup_eraseDups (ns : List String) : ns.eraseDups.Nodup := by
  induction ns using List.reverseRecOn with
  | nil => exact List.nodup_nil
  | append_singleton ns n ih =>
    rw [eraseDups_concat]
    split
    · exact ih
    · rename_i hn
      rw [List.nodup_append]
      refine ⟨ih, by simp, ?_⟩
      intro a ha b hb hab
      rw [List.mem_singleton.mp hb] at hab
      rw [hab, List.mem_eraseDups] at ha
      exact hn ha

namespace Entries

variable {α β : Type}

theorem get?_append (es fs : List (String × α)) (n : String) :
    get? (es ++ fs) n = (get? es n).or (get? fs n) := by
  induction es with
  | nil => rfl
  | cons e es ih =>
    obtain ⟨m, w⟩ := e
    by_cases h : m = n
    · simp [get?, h]
    · simp [get?, h, ih]

theorem get?_eq_none_iff {es : List (String × α)} {n : String} :
    get? es n = none ↔ n ∉ names es := by
  induction es with
  | nil => simp [get?]
  | cons e es ih =>
    obtain ⟨m, w⟩ := e
    by_cases h : m = n
    · simp [get?, h]
    · simp [get?, h, ih, Ne.symm h]

theorem get?_mapValues (f : α → β) (es : List (String × α)) (n : String) :
    get? (mapValues f es) n = (get? es n).map f := by
  induction es with
  | nil => rfl
  | cons e es ih =>
    obtain ⟨m, w⟩ := e
    rw [mapValues, List.map_cons, ← mapValues, get?, get?, ih]
    split <;> rfl

theorem get?_reverse {es : List (String × α)} (h : (names es).Nodup) (n : String) :
    get? es.reverse n = get? es n := by
  induction es with
  | nil => rfl
  | cons e es ih =>
    obtain ⟨m, w⟩ := e
    rw [names_cons, List.nodup_cons] at h
    rw [List.reverse_cons, get?_append, ih h.2]
    by_cases hm : m = n
    · have hnone : get? es n = none := get?_eq_none_iff.mpr (hm ▸ h.1)
      simp [hnone, get?, hm]
    · simp [get?, hm]

theorem put_of_not_mem {es : List (String × α)} {n : String} (h : n ∉ names es) (v : α) :
    put es n v = es ++ [(n, v)] := by
  induction es with
  | nil => rfl
  | cons e es ih =>
    rw [names_cons, List.mem_cons, not_or] at h
    rw [put, if_neg (Ne.symm h.1), ih h.2, List.cons_append]

theorem put_of_get? {es : List (String × α)} {n : String} {v : α} (h : get? es n = some v) :
    put es n v = es := by
  induction es with
  | nil => cases h
  | cons e es ih =>
    rw [get?] at h
    rw [put]
    split
    · rename_i hm
      rw [if_pos hm, Option.some.injEq] at h
      rw [← h]
    · rename_i hm
      rw [if_neg hm] at h
      rw [ih h]

theorem putAll_of_nodup {es fs : List (String × α)} (h : (names (es ++ fs)).Nodup) :
    putAll es fs = es ++ fs := by
  induction fs generalizing es with
  | nil => rw [putAll, List.append_nil]
  | cons f fs ih =>
    have hnames : names (es ++ f :: fs) = names es ++ f.1 :: names fs := List.map_append
    have hnew : f.1 ∉ names es := by
      intro hf
      rw [hnames, List.nodup_append] at h
      exact h.2.2 f.1 hf f.1 (by simp) rfl
    have hsplit : es ++ f :: fs = es ++ [f] ++ fs := by simp
    rw [putAll, put_of_not_mem hnew, hsplit]
    rw [hsplit] at h
    exact ih h

theorem putAll_of_get? {es fs : List (String × α)} (h : ∀ f ∈ fs, get? es f.1 = some f.2) :
    putAll es fs = es := by
  induction fs with
  | nil => rfl
  | cons f fs ih =>
    rw [putAll, put_of_get? (h f (by simp)), ih fun g hg => h g (List.mem_cons_of_mem _ hg)]

/-- Entries as they are left by a history: the names in the order in which they
first came, each with the value that came last. -/
structure Collects (es history : List (String × α)) : Prop where
  order : names es = (names history).eraseDups
  last : ∀ n, get? es n = get? history.reverse n

namespace Collects

variable {es fs history more : List (String × α)}

theorem nil : Collects ([] : List (String × α)) [] := ⟨rfl, fun _ => rfl⟩

theorem mem_names (h : Collects es history) {n : String} : n ∈ names es ↔ n ∈ names history := by
  rw [h.order, List.mem_eraseDups]

theorem put (h : Collects es history) (n : String) (v : α) :
    Collects (put es n v) (history ++ [(n, v)]) := by
  constructor
  · have hnames : names (history ++ [(n, v)]) = names history ++ [n] := List.map_append
    rw [names_put, hnames, eraseDups_concat, h.order]
    simp only [List.mem_eraseDups]
  · intro m
    rw [List.reverse_append, List.reverse_singleton, get?_append, ← h.last m]
    by_cases hm : n = m
    · subst hm
      rw [get?_put_self]
      simp [get?]
    · rw [get?_put_of_ne es v hm]
      simp [get?, hm]

theorem putAll (h : Collects es history) (fs : List (String × α)) :
    Collects (putAll es fs) (history ++ fs) := by
  induction fs generalizing es history with
  | nil => rwa [List.append_nil]
  | cons f fs ih =>
    have hrest := ih (h.put f.1 f.2)
    rwa [List.append_assoc] at hrest

theorem ofList (history : List (String × α)) : Collects (ofList history) history :=
  nil.putAll history

theorem mapValues (h : Collects es history) (f : α → β) :
    Collects (mapValues f es) (mapValues f history) := by
  constructor
  · rw [names_mapValues, names_mapValues, h.order]
  · intro n
    have hreverse : (Entries.mapValues f history).reverse = Entries.mapValues f history.reverse :=
      List.map_reverse.symm
    rw [hreverse, get?_mapValues, get?_mapValues, h.last]

theorem putAll_collected (h : Collects es history) (hf : Collects fs more)
    (distinct : (names fs).Nodup) : Collects (Entries.putAll es fs) (history ++ more) := by
  have hput := h.putAll fs
  constructor
  · have hnames : ∀ gs, names (history ++ gs) = names history ++ names gs := fun _ =>
      List.map_append
    have hmore : (names more).eraseDups = (names fs).eraseDups := by
      rw [eraseDups_of_nodup distinct, hf.order]
    rw [hput.order, hnames, hnames, List.eraseDups_append, List.eraseDups_append, List.removeAll,
      List.removeAll, eraseDups_filter, eraseDups_filter, hmore]
  · intro n
    rw [hput.last, List.reverse_append, List.reverse_append, get?_append, get?_append,
      get?_reverse distinct, hf.last]

end Collects

/-- The names of a list that have come before, those in hand and those in the
list, in order and once for each time. -/
def repeatedFrom (seen : List String) : List String → List String
  | [] => []
  | n :: ns => if n ∈ seen then n :: repeatedFrom seen ns else repeatedFrom (seen ++ [n]) ns

theorem note_repeatedFrom (notes seen : List String) (n : String) (ns : List String) :
    (if n ∈ seen then notes ++ [n] else notes) ++
      repeatedFrom (if n ∈ seen then seen else seen ++ [n]) ns =
      notes ++ repeatedFrom seen (n :: ns) := by
  rw [repeatedFrom]
  split
  · rw [List.append_assoc, List.singleton_append]
  · rfl

theorem repeatedFrom_of_nodup (seen : List String) {ns : List String} (h : ns.Nodup) :
    repeatedFrom seen ns = ns.filter fun n => seen.contains n := by
  induction ns generalizing seen with
  | nil => rfl
  | cons n ns ih =>
    rw [List.nodup_cons] at h
    rw [repeatedFrom]
    split
    · rename_i hn
      rw [ih seen h.2, List.filter_cons_of_pos (by simpa using hn)]
    · rename_i hn
      have hsame : ∀ m ∈ ns, (seen ++ [n]).contains m = seen.contains m := by
        intro m hm
        have hne : m ≠ n := fun hmn => h.1 (hmn ▸ hm)
        simp [hne]
      rw [ih (seen ++ [n]) h.2, List.filter_cons_of_neg (by simpa using hn),
        List.filter_congr hsame]

theorem repeatedFrom_of_seen {seen ns : List String} (h : ∀ n ∈ ns, n ∈ seen) :
    repeatedFrom seen ns = ns := by
  induction ns with
  | nil => rfl
  | cons n ns ih =>
    rw [repeatedFrom, if_pos (h n (by simp)), ih fun m hm => h m (List.mem_cons_of_mem _ hm)]

/-- A name is noted as often as it comes, but for the first time. -/
theorem count_repeatedFrom (seen ns : List String) (n : String) :
    (repeatedFrom seen ns).count n + (if n ∈ seen ++ ns then 1 else 0) =
      ns.count n + if n ∈ seen then 1 else 0 := by
  induction ns generalizing seen with
  | nil => simp [repeatedFrom]
  | cons m ns ih =>
    rw [repeatedFrom]
    split
    · have hrest := ih seen
      grind
    · have hrest := ih (seen ++ [m])
      grind

end Entries

end SchemaTypes
