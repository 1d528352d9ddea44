import SchemaTypes.Proofs.TypeScript.Emission

/-!
# Precedence

The brackets of an array bind tighter than the bars of a union. A type is read
back from its text alternative by alternative: its own alternatives, with unions
within unions opened, unless an array stands over a union of one member that has
several alternatives after all. No parentheses are written there, and the brackets
belong to the last alternative alone.
-/

set_option autoImplicit false

namespace SchemaTypes.TypeScript

def readType? (text : String) : Option TypeExpr :=
  (lexemes? text.toList).bind fun ls =>
    ((tokensOf ls).foldlM TypeState.step {}).bind TypeState.result?

namespace TypeExpr

mutual

/-- The alternatives of an expression, with unions within unions opened. -/
def alternatives : TypeExpr → List TypeExpr
  | .keyword k => [.keyword k]
  | .array element => [.array (unionOf element.alternatives)]
  | .union members => alternativesAll members
  | .literal value => [.literal value]
  | .name target => [.name target]

def alternativesAll : List TypeExpr → List TypeExpr
  | [] => []
  | t :: ts => t.alternatives ++ alternativesAll ts

end

def flattened (t : TypeExpr) : TypeExpr := unionOf t.alternatives

def bracketLast : List TypeExpr → List TypeExpr
  | [] => []
  | [t] => [.array t]
  | t :: u :: ts => t :: bracketLast (u :: ts)

mutual

/-- The alternatives that the text of an expression shows. -/
def written : TypeExpr → List TypeExpr
  | .keyword k => [.keyword k]
  | .array element =>
    if element.isWide then [.array (unionOf element.written)] else bracketLast element.written
  | .union members => writtenAll members
  | .literal value => [.literal value]
  | .name target => [.name target]

def writtenAll : List TypeExpr → List TypeExpr
  | [] => []
  | t :: ts => t.written ++ writtenAll ts

end

mutual

/-- Whether every array has parentheses around its element or needs none. -/
def isGuarded : TypeExpr → Bool
  | .keyword _ => true
  | .array element => (element.isWide || element.alternatives.length == 1) && element.isGuarded
  | .union members => allGuarded members
  | .literal _ => true
  | .name _ => true

def allGuarded : List TypeExpr → Bool
  | [] => true
  | t :: ts => t.isGuarded && allGuarded ts

end

/-- Expressions whose names can be declared and whose unions have a member. -/
inductive Proper : TypeExpr → Prop
  | keyword (k : Keyword) : Proper (.keyword k)
  | array {element : TypeExpr} (h : Proper element) : Proper (.array element)
  | union (members : List TypeExpr) (nonempty : members ≠ []) (h : ∀ t ∈ members, Proper t) :
      Proper (.union members)
  | literal (value : String) : Proper (.literal value)
  | name (target : String) (h : isTypeName target = true) : Proper (.name target)

theorem alternativesAll_eq_flatMap (ts : List TypeExpr) :
    alternativesAll ts = ts.flatMap alternatives := by
  induction ts with
  | nil => rfl
  | cons t ts ih => rw [alternativesAll, ih, List.flatMap_cons]

theorem writtenAll_eq_flatMap (ts : List TypeExpr) : writtenAll ts = ts.flatMap written := by
  induction ts with
  | nil => rfl
  | cons t ts ih => rw [writtenAll, ih, List.flatMap_cons]

theorem targetsAll_eq_flatMap (ts : List TypeExpr) : targetsAll ts = ts.flatMap targets := by
  induction ts with
  | nil => rfl
  | cons t ts ih => rw [targetsAll, ih, List.flatMap_cons]

theorem allGuarded_eq_all (ts : List TypeExpr) : allGuarded ts = ts.all isGuarded := by
  induction ts with
  | nil => rfl
  | cons t ts ih => rw [allGuarded, ih, List.all_cons]

theorem length_flatMap_le {f g : TypeExpr → List TypeExpr} {ts : List TypeExpr}
    (h : ∀ t ∈ ts, (f t).length ≤ (g t).length) :
    (ts.flatMap f).length ≤ (ts.flatMap g).length := by
  induction ts with
  | nil => simp
  | cons t ts ih =>
    rw [List.forall_mem_cons] at h
    have hrest := ih h.2
    simp only [List.flatMap_cons, List.length_append]
    omega

theorem flatMap_eq_iff {f g : TypeExpr → List TypeExpr} {ts : List TypeExpr}
    (h : ∀ t ∈ ts, (f t).length ≤ (g t).length) :
    ts.flatMap g = ts.flatMap f ↔ ∀ t ∈ ts, g t = f t := by
  induction ts with
  | nil => simp
  | cons t ts ih =>
    rw [List.forall_mem_cons] at h ⊢
    rw [← ih h.2, List.flatMap_cons, List.flatMap_cons]
    constructor
    · intro heq
      have hrest := length_flatMap_le h.2
      have hlength := congrArg List.length heq
      simp only [List.length_append] at hlength
      exact List.append_inj heq (by omega)
    · rintro ⟨ht, hts⟩
      rw [ht, hts]

theorem bracketLast_concat (ts : List TypeExpr) (t : TypeExpr) :
    bracketLast (ts ++ [t]) = ts ++ [.array t] := by
  induction ts with
  | nil => rfl
  | cons u ts ih =>
    cases ts with
    | nil => rfl
    | cons v ts => simpa [bracketLast] using ih

theorem length_bracketLast (ts : List TypeExpr) : (bracketLast ts).length = ts.length := by
  fun_induction bracketLast ts with
  | case1 => rfl
  | case2 t => rfl
  | case3 t u ts ih => simp [ih]

theorem alternatives_unionOf (ts : List TypeExpr) :
    (unionOf ts).alternatives = ts.flatMap alternatives := by
  unfold unionOf
  split
  · simp
  · rw [alternatives, alternativesAll_eq_flatMap]

def Atomic (t : TypeExpr) : Prop := t.alternatives = [t]

theorem alternatives_unionOf_of_atomic {ts : List TypeExpr} (h : ∀ t ∈ ts, t.Atomic) :
    (unionOf ts).alternatives = ts := by
  rw [alternatives_unionOf]
  induction ts with
  | nil => rfl
  | cons t ts ih =>
    have ht : t.alternatives = [t] := h t (by simp)
    rw [List.flatMap_cons, ht, ih fun u hu => h u (List.mem_cons_of_mem _ hu)]
    rfl

theorem flattened_unionOf {ts : List TypeExpr} (h : ∀ t ∈ ts, t.Atomic) :
    (unionOf ts).flattened = unionOf ts := by
  rw [flattened, alternatives_unionOf_of_atomic h]

theorem unionOf_inj {ts us : List TypeExpr} (ht : ∀ t ∈ ts, t.Atomic) (hu : ∀ u ∈ us, u.Atomic) :
    unionOf ts = unionOf us ↔ ts = us := by
  constructor
  · intro h
    rw [← alternatives_unionOf_of_atomic ht, h, alternatives_unionOf_of_atomic hu]
  · rintro rfl
    rfl

theorem atomic_array {ts : List TypeExpr} (h : ∀ t ∈ ts, t.Atomic) :
    (TypeExpr.array (unionOf ts)).Atomic := by
  rw [Atomic, alternatives, alternatives_unionOf_of_atomic h]

theorem atomic_bracketLast {ts : List TypeExpr} (h : ∀ t ∈ ts, t.Atomic) :
    ∀ t ∈ bracketLast ts, t.Atomic := by
  fun_induction bracketLast ts with
  | case1 => simp
  | case2 t =>
    have ht : (TypeExpr.array t).Atomic := @atomic_array [t] h
    simpa using ht
  | case3 t u ts ih =>
    rw [List.forall_mem_cons] at h ⊢
    exact ⟨h.1, ih h.2⟩

namespace Proper

variable {t : TypeExpr}

theorem isIdentifier_of_mem (h : t.Proper) : ∀ n ∈ t.targets, isIdentifier n = true := by
  induction h with
  | keyword k => simp [targets]
  | array _ ih => exact ih
  | union members _ _ ih =>
    intro n hn
    rw [targets, targetsAll_eq_flatMap, List.mem_flatMap] at hn
    obtain ⟨m, hm, hn⟩ := hn
    exact ih m hm n hn
  | literal value => simp [targets]
  | name target h =>
    intro n hn
    rw [targets, List.mem_singleton] at hn
    rw [hn]
    exact isIdentifier_of_isTypeName h

theorem alternatives_atomic (h : t.Proper) : ∀ a ∈ t.alternatives, a.Atomic := by
  induction h with
  | keyword k => simp [alternatives, Atomic]
  | array _ ih =>
    have ha := atomic_array ih
    simpa [alternatives] using ha
  | union members _ _ ih =>
    intro a ha
    rw [alternatives, alternativesAll_eq_flatMap, List.mem_flatMap] at ha
    obtain ⟨m, hm, ha⟩ := ha
    exact ih m hm a ha
  | literal value => simp [alternatives, Atomic]
  | name target _ => simp [alternatives, Atomic]

theorem written_atomic (h : t.Proper) : ∀ a ∈ t.written, a.Atomic := by
  induction h with
  | keyword k => simp [written, alternatives, Atomic]
  | array _ ih =>
    rw [written]
    split
    · have ha := atomic_array ih
      simpa using ha
    · exact atomic_bracketLast ih
  | union members _ _ ih =>
    intro a ha
    rw [written, writtenAll_eq_flatMap, List.mem_flatMap] at ha
    obtain ⟨m, hm, ha⟩ := ha
    exact ih m hm a ha
  | literal value => simp [written, alternatives, Atomic]
  | name target _ => simp [written, alternatives, Atomic]

theorem alternatives_pos (h : t.Proper) : 0 < t.alternatives.length := by
  induction h with
  | keyword k => simp [alternatives]
  | array _ _ => simp [alternatives]
  | union members nonempty _ ih =>
    cases members with
    | nil => exact absurd rfl nonempty
    | cons m ms =>
      have hm := ih m (by simp)
      rw [alternatives, alternativesAll, List.length_append]
      omega
  | literal value => simp [alternatives]
  | name target _ => simp [alternatives]

theorem length_alternatives_le (h : t.Proper) : t.alternatives.length ≤ t.written.length := by
  induction h with
  | keyword k => simp [alternatives, written]
  | @array element he ih =>
    have hpos := he.alternatives_pos
    rw [alternatives, written]
    split
    · simp
    · rw [length_bracketLast]
      simp only [List.length_singleton]
      omega
  | union members _ _ ih =>
    rw [alternatives, written, alternativesAll_eq_flatMap, writtenAll_eq_flatMap]
    exact length_flatMap_le ih
  | literal value => simp [alternatives, written]
  | name target _ => simp [alternatives, written]

theorem bracketLast_eq_iff {element : TypeExpr} (h : element.Proper) :
    bracketLast element.written = [.array (unionOf element.alternatives)] ↔
      element.alternatives.length = 1 ∧ element.written = element.alternatives := by
  have hle := h.length_alternatives_le
  have hpos := h.alternatives_pos
  constructor
  · intro heq
    have hlength : element.written.length = 1 := by
      rw [← length_bracketLast, heq, List.length_singleton]
    obtain ⟨w, hw⟩ := List.length_eq_one_iff.mp hlength
    obtain ⟨a, ha⟩ := List.length_eq_one_iff.mp (by omega : element.alternatives.length = 1)
    rw [hw, ha] at heq
    have hwa : w = a := by simpa [bracketLast, unionOf] using heq
    exact ⟨by rw [ha, List.length_singleton], by rw [hw, ha, hwa]⟩
  · rintro ⟨hone, heq⟩
    obtain ⟨a, ha⟩ := List.length_eq_one_iff.mp hone
    rw [heq, ha]
    rfl

/-- The text shows the alternatives that there are if every array is guarded, and
only then. -/
theorem written_eq_iff (h : t.Proper) : t.written = t.alternatives ↔ t.isGuarded = true := by
  induction h with
  | keyword k => simp [written, alternatives, isGuarded]
  | @array element he ih =>
    rw [written, alternatives, isGuarded, Bool.and_eq_true, ← ih, Bool.or_eq_true, beq_iff_eq]
    -- in parentheses the element keeps its alternatives, without them only a single one
    by_cases hw : element.isWide = true
    · have hunion := unionOf_inj he.written_atomic he.alternatives_atomic
      rw [if_pos hw, List.singleton_inj, TypeExpr.array.injEq, hunion]
      simp [hw]
    · rw [if_neg hw, he.bracketLast_eq_iff]
      simp [hw]
  | union members _ hm ih =>
    -- no member shows fewer alternatives than it has, so that none can make up for another
    have hle : ∀ m ∈ members, m.alternatives.length ≤ m.written.length :=
      fun m hmem => (hm m hmem).length_alternatives_le
    rw [written, alternatives, isGuarded, alternativesAll_eq_flatMap, writtenAll_eq_flatMap,
      allGuarded_eq_all, flatMap_eq_iff hle, List.all_eq_true]
    exact forall₂_congr ih
  | literal value => simp [written, alternatives, isGuarded]
  | name target _ => simp [written, alternatives, isGuarded]

end Proper

end TypeExpr

open TypeExpr (unionOf bracketLast bracketLast_concat written writtenAll tokensAll)

/-- Tokens that are these operands with bars between them. -/
def Spells (ts : List Token) (es : List TypeExpr) : Prop :=
  ∃ parts : List (List Token × TypeExpr), (∀ p ∈ parts, IsOperand p.1 p.2) ∧
    barred (parts.map Prod.fst) = ts ∧ parts.map Prod.snd = es

theorem barred_append {ps qs : List (List Token)} (hp : ps ≠ []) (hq : qs ≠ []) :
    barred (ps ++ qs) = barred ps ++ .sign '|' :: barred qs := by
  induction ps with
  | nil => exact absurd rfl hp
  | cons p ps ih =>
    cases ps with
    | nil =>
      cases qs with
      | nil => exact absurd rfl hq
      | cons q qs => rfl
    | cons r ps =>
      have hrest := ih (List.cons_ne_nil r ps)
      rw [List.cons_append, List.cons_append, barred, ← List.cons_append, hrest, barred,
        List.append_assoc, List.cons_append]

namespace Spells

variable {ts us : List Token} {es fs : List TypeExpr}

theorem operand {t : TypeExpr} (h : IsOperand ts t) : Spells ts [t] :=
  ⟨[(ts, t)], by simpa using h, rfl, rfl⟩

theorem isType (h : Spells ts es) (nonempty : es ≠ []) : IsType ts (unionOf es) := by
  obtain ⟨parts, hparts, rfl, rfl⟩ := h
  exact ⟨parts, by simpa using nonempty, hparts, rfl, rfl⟩

theorem bar (h : Spells ts es) (hf : Spells us fs) (he : es ≠ []) (hfs : fs ≠ []) :
    Spells (ts ++ .sign '|' :: us) (es ++ fs) := by
  obtain ⟨parts, hparts, rfl, rfl⟩ := h
  obtain ⟨others, hothers, rfl, rfl⟩ := hf
  refine ⟨parts ++ others, ?_, ?_, List.map_append⟩
  · intro p hp
    rcases List.mem_append.mp hp with hp | hp
    · exact hparts p hp
    · exact hothers p hp
  · rw [List.map_append, barred_append (by simpa using he) (by simpa using hfs)]

theorem brackets (h : Spells ts es) (nonempty : es ≠ []) :
    Spells (ts ++ [.sign '[', .sign ']']) (bracketLast es) := by
  obtain ⟨parts, hparts, rfl, rfl⟩ := h
  have hne : parts ≠ [] := by simpa using nonempty
  obtain ⟨init, p, rfl⟩ := (List.eq_nil_or_concat parts).resolve_left hne
  rw [List.concat_eq_append] at hparts ⊢
  refine ⟨init ++ [(p.1 ++ [.sign '[', .sign ']'], .array p.2)], ?_, ?_, ?_⟩
  · have hinit : ∀ q ∈ init, IsOperand q.1 q.2 := fun q hq => hparts q (by simp [hq])
    exact operands_concat hinit (hparts p (by simp)).array
  · simp [barred_concat]
  · simp [bracketLast_concat]

end Spells

theorem spells_tokensAll {members : List TypeExpr} (nonempty : members ≠ [])
    (h : ∀ t ∈ members, t.written ≠ [] ∧ Spells t.tokens t.written) :
    Spells (barred (tokensAll members)) (writtenAll members) := by
  induction members with
  | nil => exact absurd rfl nonempty
  | cons t members ih =>
    rw [List.forall_mem_cons] at h
    obtain ⟨⟨hne, ht⟩, hrest⟩ := h
    cases members with
    | nil => simpa [tokensAll, writtenAll, barred] using ht
    | cons u members =>
      have hu : writtenAll (u :: members) ≠ [] := by
        rw [writtenAll]
        exact List.append_ne_nil_of_left_ne_nil (hrest u (by simp)).1 _
      exact ht.bar (ih (List.cons_ne_nil u members) hrest) hne hu

namespace TypeExpr

variable {t : TypeExpr}

theorem Proper.written_ne_nil (h : t.Proper) : t.written ≠ [] := by
  have hpos := h.alternatives_pos
  have hle := h.length_alternatives_le
  rw [← List.length_pos_iff]
  omega

theorem Proper.spells (h : t.Proper) : Spells t.tokens t.written := by
  induction h with
  | keyword k => exact .operand (.keyword k)
  | @array element he ih =>
    have hne := he.written_ne_nil
    rw [tokens, written]
    split
    · have hgroup := (ih.isType hne).group.array
      simpa using Spells.operand hgroup
    · exact ih.brackets hne
  | union members nonempty hm ih =>
    exact spells_tokensAll nonempty fun m hmem => ⟨(hm m hmem).written_ne_nil, ih m hmem⟩
  | literal value => exact .operand (.literal value)
  | name target h => exact .operand (.name target h)

theorem Proper.lexemes?_text (h : t.Proper) :
    lexemes? t.text.toList = some (t.tokens.map .token) := by
  have hbreaks : Breaks [] := by
    intro c hc
    cases hc
  have htext := lexesBefore_type t h.isIdentifier_of_mem [] hbreaks
  simpa using htext

theorem Proper.readType?_text (h : t.Proper) : readType? t.text = some (unionOf t.written) := by
  obtain ⟨s, hrun, hresult⟩ := TypeState.run_isType (h.spells.isType h.written_ne_nil)
  rw [readType?, h.lexemes?_text, Option.bind_some, tokensOf_map_token, hrun, Option.bind_some,
    hresult]

/-- The text of an expression is read as the alternatives that it shows, and this is
the expression itself, up to nested unions and unions of one member, if and only if
every array is guarded. -/
theorem read_text_iff_guarded (h : t.Proper) :
    readType? t.text = some (unionOf t.written) ∧
      ((unionOf t.written).flattened = t.flattened ↔ t.isGuarded = true) := by
  refine ⟨h.readType?_text, ?_⟩
  rw [flattened_unionOf h.written_atomic, flattened,
    unionOf_inj h.written_atomic h.alternatives_atomic]
  exact h.written_eq_iff

theorem read_text_iff_guarded_nested : ∃ t : TypeExpr, t.Proper ∧ t.isGuarded = true ∧
    t.text = "((\x22a\x22 | Pet)[] | string[] | \x22b\x22 | \x22c\x22)[]" ∧
    ∃ r, readType? t.text = some r ∧ r.flattened = t.flattened := by
  let t : TypeExpr := .array (.union [.array (.union [.literal "a", .name "Pet"]),
    .array (.union [.keyword .string]), .union [.literal "b", .literal "c"]])
  have ht : t.Proper := by
    refine .array (.union _ (by simp) ?_)
    simp only [List.forall_mem_cons, List.not_mem_nil, false_imp_iff, implies_true, and_true]
    refine ⟨.array (.union _ (by simp) ?_), .array (.union _ (by simp) ?_), .union _ (by simp) ?_⟩
    · simpa using ⟨Proper.literal "a", Proper.name "Pet" (by decide)⟩
    · simpa using Proper.keyword .string
    · simpa using ⟨Proper.literal "b", Proper.literal "c"⟩
  have hguarded : t.isGuarded = true := by decide
  have hread := read_text_iff_guarded ht
  exact ⟨t, ht, hguarded, by decide, _, hread.1, hread.2.mpr hguarded⟩

/-- A union of one member that is a union of two is written without parentheses
under an array, so that the brackets belong to its last member alone. -/
theorem read_text_of_nested_union : ∃ t : TypeExpr, t.Proper ∧
    t = .array (.union [.union [.literal "a", .literal "b"]]) ∧
    t.text = "\x22a\x22 | \x22b\x22[]" ∧
    readType? t.text = some (.union [.literal "a", .array (.literal "b")]) ∧
    ¬ ∃ r, readType? t.text = some r ∧ r.flattened = t.flattened := by
  let t : TypeExpr := .array (.union [.union [.literal "a", .literal "b"]])
  have ht : t.Proper := by
    refine .array (.union _ (by simp) ?_)
    simp only [List.forall_mem_singleton]
    refine .union _ (by simp) ?_
    simpa using ⟨Proper.literal "a", Proper.literal "b"⟩
  have hread : readType? t.text = some (.union [.literal "a", .array (.literal "b")]) :=
    ht.readType?_text
  refine ⟨t, ht, rfl, by decide, hread, ?_⟩
  rintro ⟨r, hr, hflat⟩
  rw [hread] at hr
  cases hr
  simp [t, flattened, alternatives, alternativesAll, unionOf] at hflat

end TypeExpr

end SchemaTypes.TypeScript
