/-!
# Entries in order

A list of named entries in which a name keeps the place where it first came and
the value that it got last. The names of `put entries n v` are those of
`entries`, followed by `n` if it is new.
-/

set_option autoImplicit false

namespace SchemaTypes.Entries

variable {α β : Type}

/-- Replaces the value of a name where it stands, or appends the new name. -/
def put : List (String × α) → String → α → List (String × α)
  | [], n, v => [(n, v)]
  | (m, w) :: es, n, v => if m = n then (m, v) :: es else (m, w) :: put es n v

def putAll (es : List (String × α)) : List (String × α) → List (String × α)
  | [] => es
  | (n, v) :: rest => putAll (put es n v) rest

def ofList (es : List (String × α)) : List (String × α) := putAll [] es

def get? : List (String × α) → String → Option α
  | [], _ => none
  | (m, w) :: es, n => if m = n then some w else get? es n

def names (es : List (String × α)) : List String := es.map Prod.fst

def has (es : List (String × α)) (n : String) : Bool := (names es).contains n

def mapValues (f : α → β) (es : List (String × α)) : List (String × β) :=
  es.map fun e => (e.1, f e.2)

def sorted (es : List (String × α)) : List (String × α) :=
  es.mergeSort fun a b => decide (a.1 ≤ b.1)

@[simp] theorem names_nil : names ([] : List (String × α)) = [] := rfl

@[simp] theorem names_cons (e : String × α) (es : List (String × α)) :
    names (e :: es) = e.1 :: names es := rfl

theorem names_put (es : List (String × α)) (n : String) (v : α) :
    names (put es n v) = if n ∈ names es then names es else names es ++ [n] := by
  induction es with
  | nil => simp [put]
  | cons e es ih =>
    obtain ⟨m, w⟩ := e
    by_cases h : m = n
    · subst h
      simp [put]
    · simp only [put, if_neg h, names_cons, ih]
      by_cases hn : n ∈ names es <;> simp [hn, Ne.symm h]

theorem mem_names_put (es : List (String × α)) (m n : String) (v : α) :
    m ∈ names (put es n v) ↔ m ∈ names es ∨ m = n := by
  rw [names_put]
  split
  · rename_i hn
    exact ⟨Or.inl, fun h => h.elim id fun hmn => hmn ▸ hn⟩
  · simp

theorem get?_put_self (es : List (String × α)) (n : String) (v : α) :
    get? (put es n v) n = some v := by
  induction es with
  | nil => simp [put, get?]
  | cons e es ih =>
    obtain ⟨m, w⟩ := e
    by_cases h : m = n <;> simp [put, get?, h, ih]

theorem get?_put_of_ne (es : List (String × α)) {m n : String} (v : α) (h : m ≠ n) :
    get? (put es m v) n = get? es n := by
  induction es with
  | nil => simp [put, get?, h]
  | cons e es ih =>
    obtain ⟨k, w⟩ := e
    by_cases hk : k = m
    · subst hk
      simp [put, get?, h]
    · simp only [put, if_neg hk, get?, ih]

theorem nodup_names_put {es : List (String × α)} (h : (names es).Nodup) (n : String) (v : α) :
    (names (put es n v)).Nodup := by
  rw [names_put]
  split
  · exact h
  · rename_i hn
    rw [List.nodup_append]
    refine ⟨h, by simp, ?_⟩
    intro a ha b hb hab
    rw [List.mem_singleton.mp hb] at hab
    exact hn (hab ▸ ha)

theorem nodup_names_putAll {es : List (String × α)} (h : (names es).Nodup)
    (fs : List (String × α)) : (names (putAll es fs)).Nodup := by
  induction fs generalizing es with
  | nil => exact h
  | cons f fs ih => exact ih (nodup_names_put h f.1 f.2)

@[simp] theorem nodup_names_ofList (es : List (String × α)) : (names (ofList es)).Nodup :=
  nodup_names_putAll (by simp) es

theorem names_mapValues (f : α → β) (es : List (String × α)) :
    names (mapValues f es) = names es := by
  simp [names, mapValues]

end SchemaTypes.Entries
