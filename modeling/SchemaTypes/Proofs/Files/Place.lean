import Mathlib.Data.List.Infix
import SchemaTypes.Files.Tree

/-!
# What is at a place

A tree of files as what is at each place, and how the operations on paths change
it: a directory is made where nothing was, a file is written where a file or
nothing was, and everything else stays what it is. So a path that has led
somewhere still leads there.
-/

set_option autoImplicit false

namespace SchemaTypes.Files

theorem exists_of_bind_eq_ok {ε α β : Type} {x : Except ε α} {f : α → Except ε β} {b : β}
    (h : x >>= f = .ok b) : ∃ a, x = .ok a ∧ f a = .ok b := by
  cases x with
  | error e => cases h
  | ok a => exact ⟨a, rfl, h⟩

/-- What is there, but for the bytes of a file. -/
def Item.emptied : Item → Item
  | .file _ access => .file .empty access
  | .directory access => .directory access
  | .link target => .link target
  | .special content closed => .special content closed

/-- The bytes of files do not show where a path leads. -/
theorem Move.between_emptied (p : List String) (n : String) (here there : Option Item) :
    Move.between p n (here.map Item.emptied) (there.map Item.emptied) =
      Move.between p n here there := by
  rcases here with _ | ⟨_ | _ | _ | _⟩ <;> rcases there with _ | ⟨_ | _ | _ | _⟩ <;> rfl

theorem Move.between_ok {p : List String} {n : String} {here there : Option Item} {m : Move}
    (h : Move.between p n here there = .ok m) : ∃ access, here = some (.directory access) := by
  rcases here with _ | ⟨_ | access | _ | _⟩
  case some.directory => exact ⟨access, rfl⟩
  all_goals cases h

/-- From a directory, a name leads the same way whatever has it, or else as what has it says. -/
theorem Move.between_directory (p : List String) (n : String) (access : Access) :
    (∃ r, r ≠ .ok .nowhere ∧ ∀ there, Move.between p n (some (.directory access)) there = r) ∨
      ∀ there, Move.between p n (some (.directory access)) there = .ok (.named p n there) := by
  dsimp only [Move.between]
  split
  · exact .inl ⟨.ok (.onward p), nofun, fun _ => rfl⟩
  split
  · exact .inl ⟨.error _, nofun, fun _ => rfl⟩
  split
  · exact .inl ⟨.ok (.onward p), nofun, fun _ => rfl⟩
  split
  · exact .inl ⟨.ok (.onward p.dropLast), nofun, fun _ => rfl⟩
  split
  · exact .inl ⟨.error .nameTooLong, nofun, fun _ => rfl⟩
  · exact .inr fun _ => rfl

theorem Move.named_of_not_link {i : Item} (h : ∀ target, i ≠ .link target) (p : List String)
    (n : String) : Move.named p n (some i) = .onward (p ++ [n]) := by
  cases i with
  | link target => exact absurd rfl (h target)
  | _ => rfl

/-- Where nothing has a name, it leads to whatever gets it, unless that is a link. -/
theorem Move.between_nowhere {p : List String} {n : String} {here there : Option Item}
    (h : Move.between p n here there = .ok .nowhere) :
    there = none ∧ ∀ i, (∀ target, i ≠ .link target) →
      Move.between p n here (some i) = .ok (.onward (p ++ [n])) := by
  obtain ⟨access, rfl⟩ := Move.between_ok h
  rcases Move.between_directory p n access with ⟨r, hr, hall⟩ | hall
  · exact absurd ((hall there).symm.trans h) hr
  · rw [hall] at h
    refine ⟨?_, fun i hi => ?_⟩
    · rcases there with _ | ⟨_ | _ | _ | _⟩ <;> first | rfl | cases h
    · rw [hall, Move.named_of_not_link hi]

namespace Tree

variable {t t' : Tree} {p q : List String} {n : String} {es : List (String × Tree)}
  {access : Access}

theorem get?_nil (t : Tree) : t.get? [] = some t := by
  cases t <;> rfl

theorem get?_append (t : Tree) (p q : List String) :
    t.get? (p ++ q) = (t.get? p).bind (·.get? q) := by
  induction p generalizing t with
  | nil => rw [get?_nil]; rfl
  | cons n p ih =>
    cases t with
    | directory es access =>
      rw [List.cons_append, get?, get?]
      cases Entries.get? es n with
      | none => rfl
      | some t => exact ih t
    | _ => rfl

theorem item?_eq_none : t.item? p = none ↔ t.get? p = none := Option.map_eq_none_iff

theorem item?_append (h : t.item? p = none) (q : List String) : t.item? (p ++ q) = none := by
  rw [item?, get?_append, item?_eq_none.mp h]
  rfl

theorem item?_inside {i : Item} (h : t.item? p = some i) (hi : ∀ access, i ≠ .directory access)
    (n : String) (q : List String) : t.item? (p ++ n :: q) = none := by
  obtain ⟨u, hu, rfl⟩ := Option.map_eq_some_iff.mp h
  rw [item?, get?_append, hu]
  cases u with
  | directory es access => exact absurd rfl (hi access)
  | _ => rfl

theorem item?_eq_directory :
    t.item? p = some (.directory access) ↔ ∃ es, t.get? p = some (.directory es access) := by
  rw [item?, Option.map_eq_some_iff]
  constructor
  · rintro ⟨u, hu, hitem⟩
    cases u with
    | directory es access =>
      cases hitem
      exact ⟨es, hu⟩
    | _ => cases hitem
  · rintro ⟨es, hes⟩
    exact ⟨_, hes, rfl⟩

theorem item?_eq_file {content : ByteArray} :
    t.item? p = some (.file content access) ↔ t.get? p = some (.file content access) := by
  rw [item?, Option.map_eq_some_iff]
  constructor
  · rintro ⟨u, hu, hitem⟩
    cases u with
    | file c a =>
      cases hitem
      exact hu
    | _ => cases hitem
  · intro h
    exact ⟨_, h, rfl⟩

theorem get?_put (h : t.get? p = some (.directory es access)) (n : String) (x : Tree)
    (q : List String) : (t.put (p ++ [n]) x).get? (p ++ n :: q) = x.get? q := by
  induction p generalizing t with
  | nil =>
    rw [get?_nil] at h
    cases h
    rw [List.nil_append, put, List.nil_append, get?, Entries.get?_put_self]
    cases (Entries.get? es n).getD (.directory []) <;> rfl
  | cons m p ih =>
    cases t with
    | directory fs access =>
      rw [get?] at h
      cases hm : Entries.get? fs m with
      | none =>
        rw [hm] at h
        cases h
      | some u =>
        rw [hm] at h
        rw [List.cons_append, put, List.cons_append, get?, Entries.get?_put_self, hm]
        exact ih h
    | _ => cases h

theorem item?_put_self (h : t.item? p = some (.directory access)) (n : String) (x : Tree)
    (q : List String) : (t.put (p ++ [n]) x).item? (p ++ n :: q) = x.item? q := by
  obtain ⟨es, hes⟩ := item?_eq_directory.mp h
  rw [item?, item?, get?_put hes]

theorem item?_put_elsewhere (h : t.item? p = some (.directory access)) (x : Tree)
    (hq : ¬p ++ [n] <+: q) : (t.put (p ++ [n]) x).item? q = t.item? q := by
  obtain ⟨es, h⟩ := item?_eq_directory.mp h
  clear * - h hq
  induction p generalizing t q with
  | nil =>
    rw [get?_nil] at h
    cases h
    cases q with
    | nil => rfl
    | cons m q =>
      have hne : n ≠ m := by
        rintro rfl
        exact hq (List.prefix_append [n] q)
      rw [List.nil_append, put, item?, item?, get?, get?, Entries.get?_put_of_ne _ _ hne]
  | cons m p ih =>
    cases t with
    | directory fs access =>
      rw [get?] at h
      cases hm : Entries.get? fs m with
      | none =>
        rw [hm] at h
        cases h
      | some u =>
        rw [hm] at h
        rw [List.cons_append, put, hm]
        cases q with
        | nil => rfl
        | cons k q =>
          rw [item?, item?, get?, get?]
          by_cases hk : m = k
          · subst hk
            have hq' : ¬p ++ [n] <+: q := fun hpre => hq (List.cons_prefix_cons.mpr ⟨rfl, hpre⟩)
            rw [Entries.get?_put_self, hm]
            exact ih hq' h
          · rw [Entries.get?_put_of_ne _ _ hk]
    | _ => cases h

theorem item?_put_file {old : ByteArray} (h : t.item? p = some (.file old access))
    (content : ByteArray) :
    (t.put p (.file content access)).item? p = some (.file content access) ∧
      ∀ q, q ≠ p → (t.put p (.file content access)).item? q = t.item? q := by
  rcases List.eq_nil_or_concat' p with rfl | ⟨place, n, rfl⟩
  · have hroot := item?_eq_file.mp h
    rw [get?_nil] at hroot
    cases hroot
    refine ⟨rfl, fun q hq => ?_⟩
    cases q with
    | nil => exact absurd rfl hq
    | cons m q => rfl
  · obtain ⟨a, hplace⟩ : ∃ a, t.item? place = some (.directory a) := by
      cases hi : t.item? place with
      | none =>
        rw [item?_append hi] at h
        cases h
      | some i =>
        cases i with
        | directory a => exact ⟨a, rfl⟩
        | _ =>
          rw [item?_inside hi nofun] at h
          cases h
    refine ⟨item?_put_self hplace n _ [], fun q hq => ?_⟩
    by_cases hp : place ++ [n] <+: q
    · -- Inside a file there is nothing, neither before nor after.
      obtain ⟨r, rfl⟩ := hp
      cases r with
      | nil => exact absurd (List.append_nil _) hq
      | cons m r =>
        rw [item?_inside h nofun, List.append_assoc, List.singleton_append,
          item?_put_self hplace]
        rfl
    · exact item?_put_elsewhere hplace _ hp

/-- Nothing has gone, and everything is what it was, but for the bytes of files. -/
def Grows (t t' : Tree) : Prop :=
  ∀ p i, t.item? p = some i → ∃ i', t'.item? p = some i' ∧ i'.emptied = i.emptied

theorem Grows.directory (h : t.Grows t') (hp : t.item? p = some (.directory access)) :
    t'.item? p = some (.directory access) := by
  obtain ⟨i, hi, hemptied⟩ := h p _ hp
  cases i with
  | directory a =>
    cases hemptied
    exact hi
  | _ => cases hemptied

theorem grows_put_new (hp : t.item? p = some (.directory access))
    (hn : t.item? (p ++ [n]) = none) (x : Tree) : t.Grows (t.put (p ++ [n]) x) := by
  intro q i hi
  by_cases hq : p ++ [n] <+: q
  · obtain ⟨r, rfl⟩ := hq
    rw [item?_append hn] at hi
    cases hi
  · exact ⟨i, (item?_put_elsewhere hp x hq).trans hi, rfl⟩

theorem grows_put_file {old : ByteArray} (h : t.item? p = some (.file old access))
    (content : ByteArray) : t.Grows (t.put p (.file content access)) := by
  obtain ⟨hself, helsewhere⟩ := item?_put_file h content
  intro q i hi
  by_cases hq : q = p
  · subst hq
    cases h.symm.trans hi
    exact ⟨_, hself, rfl⟩
  · exact ⟨i, (helsewhere q hq).trans hi, rfl⟩

theorem Grows.move (h : t.Grows t') {m : Move} (hm : t.move p n = .ok m) (hne : m ≠ .nowhere) :
    t'.move p n = .ok m := by
  rw [Tree.move] at hm ⊢
  obtain ⟨access, hp⟩ := Move.between_ok hm
  rw [hp] at hm
  rw [h.directory hp]
  cases hn : t.item? (p ++ [n]) with
  | none =>
    rw [hn] at hm
    rcases Move.between_directory p n access with ⟨r, -, hall⟩ | hall
    · rw [hall] at hm ⊢
      exact hm
    · rw [hall] at hm
      exact absurd (Except.ok.inj hm).symm hne
  | some i =>
    obtain ⟨i', hi', hemptied⟩ := h _ _ hn
    rw [hn, ← Move.between_emptied, Option.map_some (a := i), ← hemptied] at hm
    rw [hi', ← Move.between_emptied]
    exact hm

theorem reach_nil (t : Tree) (p : List String) : t.reach p [] = .ok (.ends (.taken p)) := rfl

theorem reach_of_onward {ns : List String} (h : t.move p n = .ok (.onward q)) :
    t.reach p (n :: ns) = t.reach q ns := by
  rw [reach, h]
  rfl

theorem reach_of_along {ns : List String} {target : String}
    (h : t.move p n = .ok (.along target)) :
    t.reach p (n :: ns) = .ok (.turns (start p target) (linkNames target ++ ns)) := by
  rw [reach, h]
  rfl

theorem reach_of_nowhere {ns : List String} (h : t.move p n = .ok .nowhere) :
    t.reach p (n :: ns) = if ns = [] then .ok (.ends (.free p n)) else .error .missing := by
  rw [reach, h]
  rfl

/-- What the first name does, if names lead somewhere. -/
theorem reach_cons {ns : List String} {s : Stretch} (h : t.reach p (n :: ns) = .ok s) :
    (∃ q, t.move p n = .ok (.onward q) ∧ t.reach q ns = .ok s) ∨
      (∃ target, t.move p n = .ok (.along target) ∧
        s = .turns (start p target) (linkNames target ++ ns)) ∨
      t.move p n = .ok .nowhere ∧ ns = [] ∧ s = .ends (.free p n) := by
  obtain ⟨m, hm, -⟩ := exists_of_bind_eq_ok h
  cases m with
  | onward q =>
    rw [reach_of_onward hm] at h
    exact .inl ⟨q, hm, h⟩
  | along target =>
    rw [reach_of_along hm] at h
    exact .inr (.inl ⟨target, hm, (Except.ok.inj h).symm⟩)
  | nowhere =>
    rw [reach_of_nowhere hm] at h
    split at h
    · exact .inr (.inr ⟨hm, ‹_›, (Except.ok.inj h).symm⟩)
    · cases h

theorem Grows.reach (h : t.Grows t') {ns : List String} {s : Stretch}
    (hr : t.reach p ns = .ok s) (hs : ∀ q n, s ≠ .ends (.free q n)) : t'.reach p ns = .ok s := by
  induction ns generalizing p with
  | nil => exact hr
  | cons n ns ih =>
    obtain ⟨q, hm, hr⟩ | ⟨target, hm, rfl⟩ | ⟨-, -, rfl⟩ := reach_cons hr
    · rw [reach_of_onward (h.move hm nofun)]
      exact ih hr
    · exact reach_of_along (h.move hm nofun)
    · exact absurd rfl (hs p n)

theorem follow_of_ends {s : Spot} {ns : List String} (h : t.reach p ns = .ok (.ends s))
    (links : Nat) : t.follow links p ns = .ok s := by
  cases links <;> rw [follow, h] <;> rfl

theorem follow_of_turns {ns ms : List String} (h : t.reach p ns = .ok (.turns q ms))
    (links : Nat) : t.follow (links + 1) p ns = t.follow links q ms := by
  rw [follow, h]
  rfl

/-- Names that lead somewhere do so without a link, or with one link less than there may be. -/
theorem reach_of_follow {links : Nat} {ns : List String} {s : Spot}
    (h : t.follow links p ns = .ok s) :
    t.reach p ns = .ok (.ends s) ∨
      ∃ k q ms, links = k + 1 ∧ t.reach p ns = .ok (.turns q ms) ∧ t.follow k q ms = .ok s := by
  cases hr : t.reach p ns with
  | error f =>
    cases links <;> rw [follow, hr] at h <;> cases h
  | ok stretch =>
    cases stretch with
    | ends s' =>
      rw [follow_of_ends hr] at h
      cases h
      exact .inl rfl
    | turns q ms =>
      cases links with
      | zero =>
        rw [follow, hr] at h
        cases h
      | succ k =>
        rw [follow_of_turns hr] at h
        exact .inr ⟨k, q, ms, rfl, rfl, h⟩

/-- By induction on the links: what holds where no link is left to follow, and before a link
if it holds behind it, holds wherever names lead to this spot. -/
@[elab_as_elim]
theorem follow_rec {s : Spot} {motive : Nat → List String → List String → Prop}
    (ends : ∀ {links p ns}, t.reach p ns = .ok (.ends s) → motive links p ns)
    (turns : ∀ {links p ns q ms}, t.reach p ns = .ok (.turns q ms) → motive links q ms →
      motive (links + 1) p ns)
    {links : Nat} {ns : List String} (h : t.follow links p ns = .ok s) : motive links p ns := by
  induction links generalizing p ns with
  | zero =>
    obtain hr | ⟨_, _, _, hk, _⟩ := reach_of_follow h
    · exact ends hr
    · cases hk
  | succ links ih =>
    obtain hr | ⟨_, q, ms, hk, hr, hf⟩ := reach_of_follow h
    · exact ends hr
    · cases hk
      exact turns hr (ih hf)

theorem Grows.follow (h : t.Grows t') {links : Nat} {ns : List String}
    (hf : t.follow links p ns = .ok (.taken q)) : t'.follow links p ns = .ok (.taken q) := by
  refine follow_rec (fun hr => ?_) (fun hr ih => ?_) hf
  · exact follow_of_ends (h.reach hr nofun) _
  · rw [follow_of_turns (h.reach hr nofun)]
    exact ih

theorem walk_eq_ok_iff {ns : List String} :
    t.walk p ns = .ok q ↔ t.follow maxLinks p ns = .ok (.taken q) := by
  rw [walk]
  rcases t.follow maxLinks p ns with f | ⟨r | ⟨r, n⟩⟩
  · exact iff_of_false nofun nofun
  · exact ⟨fun h => by cases h; rfl, fun h => by cases h; rfl⟩
  · exact iff_of_false nofun nofun

theorem Grows.walk (h : t.Grows t') {ns : List String} (hw : t.walk p ns = .ok q) :
    t'.walk p ns = .ok q :=
  walk_eq_ok_iff.mpr (h.follow (walk_eq_ok_iff.mp hw))

theorem reach_append {ns : List String} (h : t.reach p ns = .ok (.ends (.taken q)))
    (ms : List String) : t.reach p (ns ++ ms) = t.reach q ms := by
  induction ns generalizing p with
  | nil =>
    cases h
    rfl
  | cons n ns ih =>
    obtain ⟨r, hm, h⟩ | ⟨_, _, hs⟩ | ⟨_, _, hs⟩ := reach_cons h
    · rw [List.cons_append, reach_of_onward hm]
      exact ih h
    · cases hs
    · cases hs

theorem reach_append_of_turns {ns ls : List String} (h : t.reach p ns = .ok (.turns q ls))
    (ms : List String) : t.reach p (ns ++ ms) = .ok (.turns q (ls ++ ms)) := by
  induction ns generalizing p with
  | nil => cases h
  | cons n ns ih =>
    obtain ⟨r, hm, h⟩ | ⟨target, hm, hs⟩ | ⟨_, _, hs⟩ := reach_cons h
    · rw [List.cons_append, reach_of_onward hm]
      exact ih h
    · cases hs
      rw [List.cons_append, reach_of_along hm, List.append_assoc]
    · cases hs

/-- More names are followed with the links that are left. -/
theorem follow_append {links : Nat} {ns : List String}
    (h : t.follow links p ns = .ok (.taken q)) :
    ∃ k, ∀ ms, t.follow links p (ns ++ ms) = t.follow k q ms := by
  refine follow_rec (fun {links p ns} hr => ⟨links, fun ms => ?_⟩) (fun hr ih => ?_) h
  · cases links <;> rw [follow, follow, reach_append hr]
  · obtain ⟨k, hk⟩ := ih
    refine ⟨k, fun ms => ?_⟩
    rw [follow_of_turns (reach_append_of_turns hr ms)]
    exact hk ms

/-- Nothing has the name at which names end freely, and they lead to what gets it. -/
theorem reach_free {ns : List String} (h : t.reach p ns = .ok (.ends (.free q n))) :
    t.move q n = .ok .nowhere ∧ ∀ t' r, t.Grows t' → t'.move q n = .ok (.onward r) →
      t'.reach p ns = .ok (.ends (.taken r)) := by
  induction ns generalizing p with
  | nil => cases h
  | cons n' ns ih =>
    obtain ⟨place, hm, h⟩ | ⟨_, _, hs⟩ | ⟨hm, rfl, hs⟩ := reach_cons h
    · obtain ⟨hmove, hall⟩ := ih h
      refine ⟨hmove, fun t' r hgrows hr => ?_⟩
      rw [reach_of_onward (hgrows.move hm nofun)]
      exact hall t' r hgrows hr
    · cases hs
    · cases hs
      refine ⟨hm, fun t' r _ hr => ?_⟩
      rw [reach_of_onward hr, reach_nil]

theorem follow_free {links : Nat} {ns : List String}
    (h : t.follow links p ns = .ok (.free q n)) :
    t.move q n = .ok .nowhere ∧ ∀ t' r, t.Grows t' → t'.move q n = .ok (.onward r) →
      t'.follow links p ns = .ok (.taken r) := by
  refine follow_rec (fun hr => ?_) (fun hr ih => ?_) h
  · obtain ⟨hmove, hall⟩ := reach_free hr
    exact ⟨hmove, fun t' r hgrows hr' => follow_of_ends (hall t' r hgrows hr') _⟩
  · obtain ⟨hmove, hall⟩ := ih
    refine ⟨hmove, fun t' r hgrows hr' => ?_⟩
    rw [follow_of_turns (hgrows.reach hr nofun)]
    exact hall t' r hgrows hr'

section Free

variable {links : Nat} {s : List String} {ns : List String} {x : Tree}

theorem item?_of_free (h : t.follow links s ns = .ok (.free p n)) :
    (∃ access, t.item? p = some (.directory access)) ∧ t.item? (p ++ [n]) = none := by
  have hmove := (follow_free h).1
  exact ⟨Move.between_ok hmove, (Move.between_nowhere hmove).1⟩

theorem grows_put_free (h : t.follow links s ns = .ok (.free p n)) (x : Tree) :
    t.Grows (t.put (p ++ [n]) x) := by
  obtain ⟨⟨access, hp⟩, hn⟩ := item?_of_free h
  exact grows_put_new hp hn x

/-- What is put where nothing was is there, and if nothing is in it, all else stays. -/
theorem item?_put_free (h : t.follow links s ns = .ok (.free p n))
    (hx : ∀ m r, x.item? (m :: r) = none) :
    (t.put (p ++ [n]) x).item? (p ++ [n]) = some x.item ∧
      ∀ q, q ≠ p ++ [n] → (t.put (p ++ [n]) x).item? q = t.item? q := by
  obtain ⟨⟨access, hp⟩, hn⟩ := item?_of_free h
  refine ⟨?_, fun q hne => ?_⟩
  · rw [item?_put_self hp, item?, get?_nil]
    rfl
  · by_cases hq : p ++ [n] <+: q
    · obtain ⟨r, rfl⟩ := hq
      cases r with
      | nil => exact absurd (List.append_nil _) hne
      | cons m r =>
        rw [item?_append hn, List.append_assoc, List.singleton_append, item?_put_self hp]
        exact hx m r
    · exact item?_put_elsewhere hp x hq

theorem follow_put_free (h : t.follow links s ns = .ok (.free p n))
    (hx : ∀ m r, x.item? (m :: r) = none) (hlink : ∀ target, x.item ≠ .link target) :
    (t.put (p ++ [n]) x).follow links s ns = .ok (.taken (p ++ [n])) := by
  obtain ⟨hmove, hall⟩ := follow_free h
  have hgrows := grows_put_free h x
  obtain ⟨access, hp⟩ := (item?_of_free h).1
  refine hall _ _ hgrows ?_
  rw [Tree.move, hgrows.directory hp, (item?_put_free h hx).1, ← hp]
  exact (Move.between_nowhere hmove).2 _ hlink

end Free

section Changes

variable {directory : List String} {path : String}

theorem add_ok {x : Tree} (h : t.add p n x = .ok t') : t' = t.put (p ++ [n]) x := by
  rw [add] at h
  split at h
  · cases h
  · exact (Except.ok.inj h).symm

theorem follow_free_of_walk {s ns : List String} (hwalk : t.walk s ns.dropLast = .ok p)
    (hlast : ns.getLast? = some n) (hmove : t.move p n = .ok .nowhere) :
    t.follow maxLinks s ns = .ok (.free p n) := by
  obtain ⟨k, hk⟩ := follow_append (walk_eq_ok_iff.mp hwalk)
  rw [← List.dropLast_append_getLast? _ hlast, hk]
  apply follow_of_ends
  rw [reach_of_nowhere hmove, if_pos rfl]

theorem makeDirectory_ok (h : t.makeDirectory directory path = .ok t') :
    ∃ p n, t.follow maxLinks (start directory path) (names path) = .ok (.free p n) ∧
      t' = t.put (p ++ [n]) (.directory []) := by
  obtain ⟨⟨⟩, -, h⟩ := exists_of_bind_eq_ok h
  obtain ⟨p, hwalk, h⟩ := exists_of_bind_eq_ok h
  split at h
  · cases h
  · rename_i n hlast
    obtain ⟨m, hm, h⟩ := exists_of_bind_eq_ok h
    cases m with
    | nowhere => exact ⟨p, n, follow_free_of_walk hwalk hlast hm, add_ok h⟩
    | _ => cases h

theorem overwrite_ok {content : ByteArray} (h : t.overwrite p content = .ok t') :
    ∃ old access, t.item? p = some (.file old access) ∧
      t' = t.put p (.file content access) := by
  rw [overwrite] at h
  split at h
  · cases h
  · rename_i old access hp
    split at h
    · cases h
    · exact ⟨old, access, hp, (Except.ok.inj h).symm⟩
  all_goals cases h

/-- A text is written to a new file where the path ends freely, or to the file there. -/
theorem write_ok {text : String} (h : t.write directory path text = .ok t') :
    checkPath path = .ok () ∧ endsInSlash path = false ∧
      ((∃ p n, t.follow maxLinks (start directory path) (names path) = .ok (.free p n) ∧
          t' = t.put (p ++ [n]) (.file text.toUTF8)) ∨
        ∃ p old access,
          t.follow maxLinks (start directory path) (names path) = .ok (.taken p) ∧
          t.item? p = some (.file old access) ∧ t' = t.put p (.file text.toUTF8 access)) := by
  obtain ⟨⟨⟩, hcheck, h⟩ := exists_of_bind_eq_ok h
  split at h
  · obtain ⟨_, _, h⟩ := exists_of_bind_eq_ok h
    obtain ⟨_, _, h⟩ := exists_of_bind_eq_ok h
    cases h
  · rename_i hslash
    refine ⟨hcheck, Bool.eq_false_iff.mpr hslash, ?_⟩
    obtain ⟨s, hfollow, h⟩ := exists_of_bind_eq_ok h
    cases s with
    | taken p =>
      obtain ⟨old, access, hp, rfl⟩ := overwrite_ok h
      exact .inr ⟨p, old, access, hfollow, hp, rfl⟩
    | free p n => exact .inl ⟨p, n, hfollow, add_ok h⟩

/-- Directories have been made where nothing was, each where some first names of the
path lead. -/
def MakesWay (directory : List String) (path : String) (t t' : Tree) : Prop :=
  ∀ q, t'.item? q = t.item? q ∨
    t.item? q = none ∧ t'.item? q = some (.directory {}) ∧
      ∃ ns, ns <+: names path ∧ t'.walk (start directory path) ns = .ok q

theorem MakesWay.refl (t : Tree) : MakesWay directory path t t := fun _ => .inl rfl

theorem MakesWay.grows (h : MakesWay directory path t t') : t.Grows t' := by
  intro q i hi
  rcases h q with heq | ⟨hnone, _⟩
  · exact ⟨i, heq.trans hi, rfl⟩
  · rw [hnone] at hi
    cases hi

theorem MakesWay.trans {t'' : Tree} (h : MakesWay directory path t t')
    (h' : MakesWay directory path t' t'') : MakesWay directory path t t'' := by
  intro q
  rcases h' q with heq' | ⟨hnone', hnew', hway'⟩
  · rcases h q with heq | ⟨hnone, hnew, ns, hns, hwalk⟩
    · exact .inl (heq'.trans heq)
    · exact .inr ⟨hnone, heq'.trans hnew, ns, hns, h'.grows.walk hwalk⟩
  · rcases h q with heq | ⟨_, hnew, _⟩
    · exact .inr ⟨heq.symm.trans hnone', hnew', hway'⟩
    · rw [hnew] at hnone'
      cases hnone'

theorem MakesWay.of_prefix {inner : String} (h : MakesWay directory path t t')
    (hnames : names path <+: names inner) (hstart : start directory path = start directory inner) :
    MakesWay directory inner t t' := by
  intro q
  rcases h q with heq | ⟨hnone, hnew, ns, hns, hwalk⟩
  · exact .inl heq
  · exact .inr ⟨hnone, hnew, ns, hns.trans hnames, hstart ▸ hwalk⟩

theorem makesWay_of_makeDirectory (h : t.makeDirectory directory path = .ok t') :
    MakesWay directory path t t' := by
  obtain ⟨p, n, hfree, rfl⟩ := makeDirectory_ok h
  have hempty : ∀ m r, (Tree.directory []).item? (m :: r) = none := fun _ _ => rfl
  obtain ⟨hself, helsewhere⟩ := item?_put_free hfree hempty
  intro q
  by_cases hq : q = p ++ [n]
  · subst hq
    have hwalk := walk_eq_ok_iff.mpr (follow_put_free hfree hempty nofun)
    exact .inr ⟨(item?_of_free hfree).2, hself, names path, List.prefix_rfl, hwalk⟩
  · exact .inl (helsewhere q hq)

/-- A path that leads to a file with the bytes of a text can be read as that text, if
nothing stands in the way. -/
theorem read_of_walk {text : String} {access : Access} (hcheck : checkPath path = .ok ())
    (hslash : endsInSlash path = false)
    (hwalk : t.walk (start directory path) (names path) = .ok p)
    (hp : t.item? p = some (.file text.toUTF8 access)) (haccess : access.read = none) :
    t.read directory path = .ok text := by
  have hfind : t.find directory path = .ok (.file text.toUTF8 access) := by
    rw [find, hcheck]
    dsimp only [bind, Except.bind]
    rw [hwalk]
    dsimp only
    rw [item?_eq_file.mp hp]
    dsimp only
    rw [hslash]
    rfl
  have htext : String.fromUTF8? text.toUTF8 = some text := by
    have hvalid : text.toUTF8.IsValidUTF8 := text.isValidUTF8
    rw [String.fromUTF8?, dif_pos hvalid]
    rfl
  rw [read, hfind]
  dsimp only [bind, Except.bind, bytes]
  rw [haccess]
  dsimp only
  rw [htext]

/-- The text that is written is there to be read, unless the file may not be read, and
nothing else has changed. A file that was there keeps its access. -/
theorem write_spec {text : String} (h : t.write directory path text = .ok t') :
    t.Grows t' ∧ ∃ place access, t'.walk (start directory path) (names path) = .ok place ∧
      t'.item? place = some (.file text.toUTF8 access) ∧
      (t.item? place = none ∧ access = {} ∨ ∃ old, t.item? place = some (.file old access)) ∧
      (access.read = none → t'.read directory path = .ok text) ∧
      ∀ q, q ≠ place → t'.item? q = t.item? q := by
  obtain ⟨hcheck, hslash, ⟨p, n, hfree, rfl⟩ | ⟨p, old, access, htaken, hp, rfl⟩⟩ := write_ok h
  · have hempty : ∀ m r, (Tree.file text.toUTF8).item? (m :: r) = none := fun _ _ => rfl
    obtain ⟨hself, helsewhere⟩ := item?_put_free hfree hempty
    have hwalk := walk_eq_ok_iff.mpr (follow_put_free hfree hempty nofun)
    exact ⟨grows_put_free hfree _, p ++ [n], {}, hwalk, hself,
      .inl ⟨(item?_of_free hfree).2, rfl⟩, read_of_walk hcheck hslash hwalk hself, helsewhere⟩
  · obtain ⟨hself, helsewhere⟩ := item?_put_file hp text.toUTF8
    have hgrows := grows_put_file hp text.toUTF8
    have hwalk := hgrows.walk (walk_eq_ok_iff.mpr htaken)
    exact ⟨hgrows, p, access, hwalk, hself, .inr ⟨old, hp⟩,
      read_of_walk hcheck hslash hwalk hself, helsewhere⟩

/-- A text that is written to a link to nothing makes what the link leads to. -/
example :
    (Tree.directory [("out.ts", .link "made.ts")]).write [] "/out.ts" "" =
      .ok (.directory [("out.ts", .link "made.ts"), ("made.ts", .file "".toUTF8)]) := rfl

end Changes

end Tree

end SchemaTypes.Files
