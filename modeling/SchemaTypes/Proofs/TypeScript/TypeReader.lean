import SchemaTypes.Proofs.TypeScript.Grammar

/-!
# A reader of types

A machine that takes the tokens of a type one after another and keeps the
alternatives of every group that is open. It reads exactly the types of the
grammar: every state stands for the tokens that lead to it, and an operand is
read without regard to what is open around it.
-/

set_option autoImplicit false

namespace SchemaTypes.TypeScript

open TypeExpr (unionOf)

/-- What has come of the operand: nothing yet, an operand, or an operand and an
opening bracket of an array. -/
inductive Phase
  | wanting
  | having (t : TypeExpr)
  | opened (t : TypeExpr)

/-- The alternatives before the operand in the innermost group, last first, and
those of the groups around it. -/
structure TypeState where
  before : List TypeExpr := []
  outer : List (List TypeExpr) := []
  phase : Phase := .wanting

def operand? : Token → Option TypeExpr
  | .word w =>
    match Keyword.ofWord? w with
    | some k => some (.keyword k)
    | none => if isTypeName w then some (.name w) else none
  | .literal value => some (.literal value)
  | .sign _ => none

namespace TypeState

def step (s : TypeState) (t : Token) : Option TypeState :=
  match s.phase with
  | .wanting =>
    if t = .sign '(' then some ⟨[], s.before :: s.outer, .wanting⟩
    else (operand? t).map fun e => { s with phase := .having e }
  | .having e =>
    if t = .sign '[' then some { s with phase := .opened e }
    else if t = .sign '|' then some { s with before := e :: s.before, phase := .wanting }
    else if t = .sign ')' then
      match s.outer with
      | g :: gs => some ⟨g, gs, .having (unionOf (e :: s.before).reverse)⟩
      | [] => none
    else none
  | .opened e =>
    if t = .sign ']' then some { s with phase := .having (.array e) } else none

def result? (s : TypeState) : Option TypeExpr :=
  match s.phase, s.outer with
  | .having e, [] => some (unionOf (e :: s.before).reverse)
  | _, _ => none

theorem step_semicolon (s : TypeState) : s.step (.sign ';') = none := by
  obtain ⟨before, outer, phase⟩ := s
  cases phase <;> simp [step, operand?]

/-- Bars between operands become alternatives of the group that is open. -/
theorem run_barred (before : List TypeExpr) (outer : List (List TypeExpr))
    (parts : List (List Token × TypeExpr)) (nonempty : parts ≠ [])
    (h : ∀ p ∈ parts, ∀ before outer,
      p.1.foldlM step ⟨before, outer, .wanting⟩ = some ⟨before, outer, .having p.2⟩) :
    ∃ e es, (barred (parts.map Prod.fst)).foldlM step ⟨before, outer, .wanting⟩ =
      some ⟨es, outer, .having e⟩ ∧
      (e :: es).reverse = before.reverse ++ parts.map Prod.snd := by
  induction parts generalizing before with
  | nil => exact absurd rfl nonempty
  | cons p parts ih =>
    have hp := h p (by simp) before outer
    cases parts with
    | nil => exact ⟨p.2, before, hp, by simp⟩
    | cons q parts =>
      have hq : ∀ r ∈ q :: parts, ∀ before outer,
          r.1.foldlM step ⟨before, outer, .wanting⟩ = some ⟨before, outer, .having r.2⟩ :=
        fun r hr => h r (List.mem_cons_of_mem _ hr)
      obtain ⟨e, es, hrun, hes⟩ := ih (p.2 :: before) (by simp) hq
      refine ⟨e, es, ?_, by simpa using hes⟩
      rw [List.map_cons, List.map_cons, barred, List.foldlM_append, hp]
      exact hrun

/-- An operand is read without regard to what is open around it. -/
theorem run_operand {ts : List Token} {t : TypeExpr} (h : IsOperand ts t) :
    ∀ before outer,
      ts.foldlM step ⟨before, outer, .wanting⟩ = some ⟨before, outer, .having t⟩ := by
  induction h with
  | keyword k =>
    intro before outer
    simp [step, operand?, Keyword.ofWord?_text]
  | name n h =>
    intro before outer
    simp [step, operand?, Keyword.ofWord?_typeName h, h]
  | literal value =>
    intro before outer
    simp [step, operand?]
  | array _ ih =>
    intro before outer
    rw [List.foldlM_append, ih before outer]
    simp [step]
  | group parts nonempty _ ih =>
    intro before outer
    -- the alternatives are read above an empty list, and the closing bracket unites them
    obtain ⟨e, es, hrun, hes⟩ := run_barred [] (before :: outer) parts nonempty ih
    have hopen : step ⟨before, outer, .wanting⟩ (.sign '(') =
        some ⟨[], before :: outer, .wanting⟩ := rfl
    rw [List.reverse_nil, List.nil_append] at hes
    rw [List.foldlM_cons, hopen, Option.bind_eq_bind, Option.bind_some, List.foldlM_append, hrun]
    simp only [Option.bind_eq_bind, Option.bind_some, List.foldlM_cons, List.foldlM_nil,
      Option.pure_def, step, hes, if_false, if_true, Token.sign.injEq, Char.reduceEq]

theorem run_isType {ts : List Token} {t : TypeExpr} (h : IsType ts t) :
    ∃ s, ts.foldlM step {} = some s ∧ s.result? = some t := by
  obtain ⟨parts, nonempty, hparts, rfl, rfl⟩ := h
  obtain ⟨e, es, hrun, hes⟩ :=
    run_barred [] [] parts nonempty fun p hp => run_operand (hparts p hp)
  exact ⟨_, hrun, by simp only [result?, hes, List.reverse_nil, List.nil_append]⟩

/-- The tokens behind which these groups are open, the innermost first. -/
inductive Opened : List TypeExpr → List (List TypeExpr) → List Token → Prop
  | outermost (parts : List (List Token × TypeExpr)) (h : ∀ p ∈ parts, IsOperand p.1 p.2) :
      Opened (parts.map Prod.snd).reverse [] (bars (parts.map Prod.fst))
  | group {before : List TypeExpr} {outer : List (List TypeExpr)} {ts : List Token}
      (around : Opened before outer ts) (parts : List (List Token × TypeExpr))
      (h : ∀ p ∈ parts, IsOperand p.1 p.2) :
      Opened (parts.map Prod.snd).reverse (before :: outer)
        (ts ++ .sign '(' :: bars (parts.map Prod.fst))

inductive PhaseReads : Phase → List Token → Prop
  | wanting : PhaseReads .wanting []
  | having {ts : List Token} {t : TypeExpr} (h : IsOperand ts t) : PhaseReads (.having t) ts
  | opened {ts : List Token} {t : TypeExpr} (h : IsOperand ts t) :
      PhaseReads (.opened t) (ts ++ [.sign '['])

/-- A state stands for the tokens that lead to it. -/
def Reads (s : TypeState) (ts : List Token) : Prop :=
  ∃ us vs, Opened s.before s.outer us ∧ PhaseReads s.phase vs ∧ ts = us ++ vs

theorem Opened.bar {before : List TypeExpr} {outer : List (List TypeExpr)} {ts us : List Token}
    {t : TypeExpr} (h : Opened before outer ts) (ht : IsOperand us t) :
    Opened (t :: before) outer (ts ++ (us ++ [.sign '|'])) := by
  cases h with
  | outermost parts hp => simpa [bars] using Opened.outermost _ (operands_concat hp ht)
  | group around parts hp => simpa [bars] using Opened.group around _ (operands_concat hp ht)

theorem operand_of_operand? {t : Token} {e : TypeExpr} (h : operand? t = some e) :
    IsOperand [t] e := by
  cases t with
  | word w =>
    rw [operand?] at h
    split at h
    · rename_i k hk
      cases h
      rw [← Keyword.text_of_ofWord? hk]
      exact .keyword k
    · split at h
      · rename_i hn
        cases h
        exact .name w hn
      · cases h
  | literal value =>
    cases h
    exact .literal value
  | sign c => cases h

theorem Opened.close {before : List TypeExpr} {g : List TypeExpr} {outer : List (List TypeExpr)}
    {ts us : List Token} {t : TypeExpr} (h : Opened before (g :: outer) ts) (ht : IsOperand us t) :
    ∃ vs ws, Opened g outer vs ∧ IsOperand ws (unionOf (t :: before).reverse) ∧
      ts ++ us ++ [.sign ')'] = vs ++ ws := by
  cases h with
  | @group _ _ vs around parts hp =>
    have hg := IsOperand.group (parts ++ [(us, t)]) (by simp) (operands_concat hp ht)
    refine ⟨vs, .sign '(' :: (barred ((parts ++ [(us, t)]).map Prod.fst) ++ [.sign ')']), around,
      ?_, ?_⟩
    · simpa using hg
    · simp [barred_concat]

theorem step_reads {s s' : TypeState} {ts : List Token} {t : Token} (h : s.Reads ts)
    (hs : s.step t = some s') : s'.Reads (ts ++ [t]) := by
  obtain ⟨us, vs, hus, hvs, rfl⟩ := h
  obtain ⟨before, outer, phase⟩ := s
  cases hvs with
  | wanting =>
    rw [List.append_nil]
    simp only [step] at hs
    split at hs
    · rename_i ht
      cases hs
      rw [ht]
      exact ⟨us ++ .sign '(' :: bars [], [], .group hus [] (by simp), .wanting, by simp [bars]⟩
    · obtain ⟨e, he, rfl⟩ := Option.map_eq_some_iff.mp hs
      exact ⟨us, [t], hus, .having (operand_of_operand? he), rfl⟩
  | @having _ e he =>
    simp only [step] at hs
    split at hs
    · rename_i ht
      cases hs
      rw [ht]
      exact ⟨us, vs ++ [.sign '['], hus, .opened he, by simp⟩
    split at hs
    · rename_i ht
      cases hs
      rw [ht]
      exact ⟨us ++ (vs ++ [.sign '|']), [], hus.bar he, .wanting, by simp⟩
    split at hs
    · rename_i ht
      rw [ht]
      split at hs
      · cases hs
        obtain ⟨xs, ys, hxs, hys, heq⟩ := hus.close he
        exact ⟨xs, ys, hxs, .having hys, heq⟩
      · cases hs
    · cases hs
  | @opened ws e he =>
    simp only [step] at hs
    split at hs
    · rename_i ht
      cases hs
      rw [ht]
      exact ⟨us, ws ++ [.sign '[', .sign ']'], hus, .having he.array, by simp⟩
    · cases hs

theorem isType_of_result? {s : TypeState} {ts : List Token} {t : TypeExpr} (h : s.Reads ts)
    (hr : s.result? = some t) : IsType ts t := by
  obtain ⟨us, vs, hus, hvs, rfl⟩ := h
  obtain ⟨before, outer, phase⟩ := s
  unfold result? at hr
  split at hr
  · rename_i e hphase houter
    cases hr
    simp only at hphase houter hus hvs
    subst hphase houter
    cases hvs with
    | having he =>
      cases hus with
      | outermost parts hp =>
        exact ⟨parts ++ [(vs, e)], by simp, operands_concat hp he, by simp [barred_concat],
          by simp⟩
  · cases hr

end TypeState

end SchemaTypes.TypeScript
