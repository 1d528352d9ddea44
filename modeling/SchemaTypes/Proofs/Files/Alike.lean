import SchemaTypes.Proofs.Files.Place

/-!
# Trees that differ in one file

Two trees with a file at the same place, each its own, and the same at every other
place. A path leads to one place in both or fails in both for one reason, and what is
made or written comes to one place. So they keep to differ in that file only, and only
who reads it can tell one from the other.
-/

set_option autoImplicit false

namespace SchemaTypes.Files

/-- Two results that fail in the same way, or else are related. -/
inductive Agree {ε α : Type} (R : α → α → Prop) : Except ε α → Except ε α → Prop
  | error (e : ε) : Agree R (.error e) (.error e)
  | ok {a a' : α} : R a a' → Agree R (.ok a) (.ok a')

namespace Agree

variable {ε α β : Type} {R : α → α → Prop} {S : β → β → Prop}

theorem bind {x x' : Except ε α} {f f' : α → Except ε β} (h : Agree R x x')
    (hf : ∀ a a', R a a' → Agree S (f a) (f' a')) : Agree S (x >>= f) (x' >>= f') := by
  cases h with
  | error e => exact .error e
  | ok hR => exact hf _ _ hR

theorem refl (x : Except ε α) : Agree (· = ·) x x := by
  cases x with
  | error e => exact .error e
  | ok a => exact .ok rfl

theorem self (x : Except ε α) : Agree (fun a a' => a = a' ∧ x = .ok a) x x := by
  cases x with
  | error e => exact .error e
  | ok a => exact .ok ⟨rfl, rfl⟩

theorem eq {x x' : Except ε α} (h : Agree (· = ·) x x') : x = x' := by
  cases h with
  | error e => rfl
  | ok heq => rw [heq]

end Agree

namespace Tree

variable {t t' : Tree} {p q : List String} {directory : List String} {path : String}

section Congruence

variable (h : ∀ q, (t'.item? q).map Item.emptied = (t.item? q).map Item.emptied)
include h

theorem move_congr (p : List String) (n : String) : t'.move p n = t.move p n := by
  rw [move, move, ← Move.between_emptied, h, h, Move.between_emptied]

theorem reach_congr (p ns : List String) : t'.reach p ns = t.reach p ns := by
  induction ns generalizing p with
  | nil => rfl
  | cons n ns ih =>
    rw [reach, reach, move_congr h]
    cases t.move p n with
    | error f => rfl
    | ok m =>
      cases m with
      | onward next => exact ih next
      | _ => rfl

theorem follow_congr (links : Nat) (p ns : List String) :
    t'.follow links p ns = t.follow links p ns := by
  induction links generalizing p ns with
  | zero => rw [follow, follow, reach_congr h]
  | succ links ih =>
    rw [follow, follow, reach_congr h]
    cases t.reach p ns with
    | error f => rfl
    | ok stretch =>
      cases stretch with
      | ends s => rfl
      | turns next names => exact ih next names

theorem walk_congr (p ns : List String) : t'.walk p ns = t.walk p ns := by
  rw [walk, walk, follow_congr h]

end Congruence

/-- Trees with a file at this place, and the same at every other place. Who may do what
with the file is the same, too. -/
structure AlikeBut (p : List String) (t t' : Tree) : Prop where
  file : ∃ c c' access, t.item? p = some (.file c access) ∧ t'.item? p = some (.file c' access)
  rest : ∀ q, q ≠ p → t'.item? q = t.item? q

namespace AlikeBut

theorem emptied (h : AlikeBut p t t') (q : List String) :
    (t'.item? q).map Item.emptied = (t.item? q).map Item.emptied := by
  by_cases hq : q = p
  · obtain ⟨c, c', access, hc, hc'⟩ := h.file
    rw [hq, hc, hc']
    rfl
  · rw [h.rest q hq]

theorem follow (h : AlikeBut p t t') (links : Nat) (place ns : List String) :
    t'.follow links place ns = t.follow links place ns := follow_congr h.emptied links place ns

theorem walk (h : AlikeBut p t t') (place ns : List String) :
    t'.walk place ns = t.walk place ns := walk_congr h.emptied place ns

theorem item?_cases (h : AlikeBut p t t') (q : List String) :
    t'.item? q = t.item? q ∨ q = p ∧ ∃ c c' access,
      t.item? q = some (.file c access) ∧ t'.item? q = some (.file c' access) := by
  by_cases hq : q = p
  · exact .inr ⟨hq, hq ▸ h.file⟩
  · exact .inl (h.rest q hq)

theorem get?_cases (h : AlikeBut p t t') (q : List String) :
    (t.get? q = none ∧ t'.get? q = none) ∨
      ∃ u u', t.get? q = some u ∧ t'.get? q = some u' ∧ u'.item.emptied = u.item.emptied ∧
        (q ≠ p → u'.item = u.item) := by
  have hemptied := h.emptied q
  have hrest := h.rest q
  rw [item?, item?] at hemptied hrest
  cases hu : t.get? q with
  | none =>
    rw [hu, Option.map_none, Option.map_none, Option.map_eq_none_iff, Option.map_eq_none_iff]
      at hemptied
    exact .inl ⟨rfl, hemptied⟩
  | some u =>
    rw [hu, Option.map_some] at hemptied hrest
    obtain ⟨i, hi, hemptied⟩ := Option.map_eq_some_iff.mp hemptied
    obtain ⟨u', hu', rfl⟩ := Option.map_eq_some_iff.mp hi
    refine .inr ⟨u, u', rfl, hu', hemptied, fun hq => ?_⟩
    have hsame := hrest hq
    rw [hu'] at hsame
    exact Option.some.inj hsame

end AlikeBut

/-- The same kind of thing, of which only the bytes may differ. -/
theorem kind_of_emptied {u u' : Tree} (h : u'.item.emptied = u.item.emptied) :
    u'.isDirectory = u.isDirectory ∧ u'.isFile = u.isFile := by
  cases u <;> cases u' <;> first | exact ⟨rfl, rfl⟩ | cases h

theorem bytes_of_item {u u' : Tree} (h : u'.item = u.item) : u'.bytes = u.bytes := by
  cases u <;> cases u' <;> cases h <;> rfl

namespace AlikeBut

/-- A path leads to the same kind of thing in both, and to the same unless it is the file. -/
theorem find (h : AlikeBut p t t') (directory : List String) (path : String) :
    Agree (fun u u' => u'.item.emptied = u.item.emptied ∧
      (t.walk (start directory path) (names path) ≠ .ok p → u'.item = u.item))
      (t.find directory path) (t'.find directory path) := by
  apply (Agree.refl (checkPath path)).bind
  rintro _ _ -
  rw [h.walk]
  apply (Agree.self _).bind
  rintro place _ ⟨rfl, hwalk⟩
  rcases h.get?_cases place with ⟨hnone, hnone'⟩ | ⟨u, u', hu, hu', hemptied, hsame⟩
  · rw [hnone, hnone']
    exact .error _
  · rw [hu, hu']
    dsimp only
    rw [(kind_of_emptied hemptied).1]
    split
    · exact .error _
    · exact .ok ⟨hemptied, fun hne => hsame fun heq => hne (hwalk.trans (congrArg Except.ok heq))⟩

theorem read (h : AlikeBut p t t')
    (hne : t.walk (start directory path) (names path) ≠ .ok p) :
    t'.read directory path = t.read directory path := by
  symm
  apply Agree.eq
  apply (h.find directory path).bind
  rintro u u' ⟨-, hsame⟩
  rw [bytes_of_item (hsame hne)]
  exact .refl _

/-- What is put where nothing is in either leaves them alike. -/
theorem put_free {links : Nat} {s ns place : List String} {n : String} {x : Tree}
    (h : AlikeBut p t t') (hfree : t.follow links s ns = .ok (.free place n))
    (hx : ∀ m r, x.item? (m :: r) = none) :
    AlikeBut p (t.put (place ++ [n]) x) (t'.put (place ++ [n]) x) := by
  have hfree' := (h.follow links s ns).trans hfree
  obtain ⟨hself, helsewhere⟩ := item?_put_free hfree hx
  obtain ⟨hself', helsewhere'⟩ := item?_put_free hfree' hx
  have hp : p ≠ place ++ [n] := by
    rintro rfl
    obtain ⟨c, _, _, hc, _⟩ := h.file
    rw [(item?_of_free hfree).2] at hc
    cases hc
  constructor
  · rw [helsewhere p hp, helsewhere' p hp]
    exact h.file
  · intro q hq
    by_cases hnew : q = place ++ [n]
    · rw [hnew, hself, hself']
    · rw [helsewhere q hnew, helsewhere' q hnew]
      exact h.rest q hq

/-- A file that gets the same bytes in both leaves them alike; it may be the one that differs. -/
theorem put_file {c c' : ByteArray} {access : Access} (h : AlikeBut p t t')
    (hc : t.item? q = some (.file c access)) (hc' : t'.item? q = some (.file c' access))
    (content : ByteArray) :
    AlikeBut p (t.put q (.file content access)) (t'.put q (.file content access)) := by
  obtain ⟨hself, helsewhere⟩ := item?_put_file hc content
  obtain ⟨hself', helsewhere'⟩ := item?_put_file hc' content
  constructor
  · by_cases hp : p = q
    · subst hp
      exact ⟨content, content, access, hself, hself'⟩
    · rw [helsewhere p hp, helsewhere' p hp]
      exact h.file
  · intro r hr
    by_cases hq : r = q
    · rw [hq, hself, hself']
    · rw [helsewhere r hq, helsewhere' r hq]
      exact h.rest r hr

theorem add {links : Nat} {s ns place : List String} {n : String} {x : Tree}
    (h : AlikeBut p t t') (hfree : t.follow links s ns = .ok (.free place n))
    (hx : ∀ m r, x.item? (m :: r) = none) :
    Agree (AlikeBut p) (t.add place n x) (t'.add place n x) := by
  rw [Tree.add, Tree.add]
  rcases h.item?_cases place with heq | ⟨-, c, c', access, hc, hc'⟩
  · rw [heq]
    split
    · exact .error _
    · exact .ok (h.put_free hfree hx)
  · rw [hc, hc']
    exact .ok (h.put_free hfree hx)

theorem makeDirectory (h : AlikeBut p t t') (directory : List String) (path : String) :
    Agree (AlikeBut p) (t.makeDirectory directory path) (t'.makeDirectory directory path) := by
  apply (Agree.refl (checkPath path)).bind
  rintro _ _ -
  rw [h.walk]
  apply (Agree.self _).bind
  rintro place _ ⟨rfl, hwalk⟩
  split
  · exact .error _
  · rename_i n hlast
    rw [move_congr h.emptied]
    apply (Agree.self _).bind
    rintro m _ ⟨rfl, hm⟩
    cases m with
    | nowhere => exact h.add (follow_free_of_walk hwalk hlast hm) fun _ _ => rfl
    | _ => exact .error _

theorem overwrite (h : AlikeBut p t t') (place : List String) (content : ByteArray) :
    Agree (AlikeBut p) (t.overwrite place content) (t'.overwrite place content) := by
  rw [Tree.overwrite, Tree.overwrite]
  rcases h.item?_cases place with heq | ⟨-, c, c', access, hc, hc'⟩
  · rw [heq]
    cases hi : t.item? place with
    | none => exact .error _
    | some i =>
      cases i with
      | file c access =>
        dsimp only
        split
        · exact .error _
        · exact .ok (h.put_file hi (heq.trans hi) content)
      | _ => exact .error _
  · rw [hc, hc']
    dsimp only
    split
    · exact .error _
    · exact .ok (h.put_file hc hc' content)

theorem write (h : AlikeBut p t t') (directory : List String) (path text : String) :
    Agree (AlikeBut p) (t.write directory path text) (t'.write directory path text) := by
  apply (Agree.refl (checkPath path)).bind
  rintro _ _ -
  split
  · rw [h.walk]
    apply (Agree.refl _).bind
    rintro place _ rfl
    rw [move_congr h.emptied]
    apply (Agree.refl (t.move place ".")).bind
    intros
    exact .error _
  · rw [h.follow]
    apply (Agree.self _).bind
    rintro s _ ⟨rfl, hfollow⟩
    cases s with
    | taken place => exact h.overwrite place _
    | free place n => exact h.add hfollow fun _ _ => rfl

end AlikeBut

def rewritten (t : Tree) (p : List String) (content : ByteArray) : Tree :=
  match t.item? p with
  | some (.file _ access) => t.put p (.file content access)
  | _ => t

theorem AlikeBut.of_rewritten {old : ByteArray} {access : Access}
    (h : t.get? p = some (.file old access)) (content : ByteArray) :
    AlikeBut p t (t.rewritten p content) := by
  have hp := item?_eq_file.mpr h
  obtain ⟨hself, helsewhere⟩ := item?_put_file hp content
  rw [rewritten, hp]
  exact ⟨⟨old, content, access, hp, hself⟩, helsewhere⟩

end Tree

end SchemaTypes.Files
