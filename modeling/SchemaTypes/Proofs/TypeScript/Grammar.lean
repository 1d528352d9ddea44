import SchemaTypes.Proofs.TypeScript.Lexeme
import SchemaTypes.Proofs.TypeScript.Expression

/-!
# The grammar of interfaces

Which tokens are a type, a member, an interface, and a file of interfaces. The
brackets of an array belong to the operand before them, bars stand between
operands, and a union of one operand is that operand. Only a name that can be
declared is the name of a type; a key may be any word. Comments have no part in
the grammar, so that its members are without description.
-/

set_option autoImplicit false

namespace SchemaTypes.TypeScript

open TypeExpr (unionOf)

def Keyword.ofWord? (w : String) : Option Keyword :=
  [Keyword.string, .number, .boolean, .any, .unknown].find? fun k => k.text = w

theorem Keyword.ofWord?_text (k : Keyword) : Keyword.ofWord? k.text = some k := by
  cases k <;> decide

theorem Keyword.text_of_ofWord? {w : String} {k : Keyword} (h : Keyword.ofWord? w = some k) :
    k.text = w := by
  simpa using List.find?_some h

theorem Keyword.ofWord?_typeName {n : String} (h : isTypeName n = true) :
    Keyword.ofWord? n = none := by
  cases hk : Keyword.ofWord? n with
  | none => rfl
  | some k =>
    rw [← Keyword.text_of_ofWord? hk] at h
    revert h
    cases k <;> decide

def barred : List (List Token) → List Token
  | [] => []
  | [p] => p
  | p :: q :: ps => p ++ .sign '|' :: barred (q :: ps)

inductive IsOperand : List Token → TypeExpr → Prop
  | keyword (k : Keyword) : IsOperand [.word k.text] (.keyword k)
  | name (n : String) (h : isTypeName n = true) : IsOperand [.word n] (.name n)
  | literal (value : String) : IsOperand [.literal value] (.literal value)
  | array {ts : List Token} {t : TypeExpr} (h : IsOperand ts t) :
      IsOperand (ts ++ [.sign '[', .sign ']']) (.array t)
  | group (parts : List (List Token × TypeExpr)) (nonempty : parts ≠ [])
      (h : ∀ p ∈ parts, IsOperand p.1 p.2) :
      IsOperand (.sign '(' :: (barred (parts.map Prod.fst) ++ [.sign ')']))
        (unionOf (parts.map Prod.snd))

def IsType (ts : List Token) (t : TypeExpr) : Prop :=
  ∃ parts : List (List Token × TypeExpr), parts ≠ [] ∧ (∀ p ∈ parts, IsOperand p.1 p.2) ∧
    barred (parts.map Prod.fst) = ts ∧ unionOf (parts.map Prod.snd) = t

theorem IsOperand.isType {ts : List Token} {t : TypeExpr} (h : IsOperand ts t) : IsType ts t :=
  ⟨[(ts, t)], by simp, by simpa using h, rfl, rfl⟩

theorem IsType.group {ts : List Token} {t : TypeExpr} (h : IsType ts t) :
    IsOperand (.sign '(' :: (ts ++ [.sign ')'])) t := by
  obtain ⟨parts, nonempty, hparts, rfl, rfl⟩ := h
  exact .group parts nonempty hparts

theorem operands_concat {parts : List (List Token × TypeExpr)} {ts : List Token} {t : TypeExpr}
    (h : ∀ p ∈ parts, IsOperand p.1 p.2) (ht : IsOperand ts t) :
    ∀ p ∈ parts ++ [(ts, t)], IsOperand p.1 p.2 := by
  intro p hp
  rcases List.mem_append.mp hp with hp | hp
  · exact h p hp
  · rw [List.mem_singleton.mp hp]
    exact ht

def keyOf? : Token → Option String
  | .word w => some w
  | .literal value => some value
  | .sign _ => none

def mark (optional : Bool) : List Token := if optional then [.sign '?'] else []

def IsMember (ts : List Token) (m : Member) : Prop :=
  ∃ k us, keyOf? k = some m.name ∧ IsType us m.type ∧ m.doc = none ∧
    ts = k :: (mark m.optional ++ .sign ':' :: (us ++ [.sign ';']))

inductive Spelled {α : Type} (P : List Token → α → Prop) : List Token → List α → Prop
  | nil : Spelled P [] []
  | cons {ts us : List Token} {a : α} {as : List α} (head : P ts a) (tail : Spelled P us as) :
      Spelled P (ts ++ us) (a :: as)

theorem Spelled.concat {α : Type} {P : List Token → α → Prop} {ts us : List Token} {a : α}
    {as : List α} (h : Spelled P ts as) (ha : P us a) : Spelled P (ts ++ us) (as ++ [a]) := by
  induction h with
  | nil =>
    rw [List.nil_append, ← List.append_nil us]
    exact .cons ha .nil
  | cons head _ ih =>
    rw [List.append_assoc]
    exact .cons head ih

def header (name : String) : List Token :=
  [.word "export", .word "interface", .word name, .sign '\x7b']

def IsInterface (ts : List Token) (i : Interface) : Prop :=
  isTypeName i.name = true ∧
    ∃ us, Spelled IsMember us i.members ∧ ts = header i.name ++ (us ++ [.sign '\x7d'])

/-- A file that declares these interfaces in this order, and nothing else. -/
def IsModule : List Token → List Interface → Prop := Spelled IsInterface

/-- The parts with a bar behind each of them. -/
def bars (parts : List (List Token)) : List Token := parts.flatMap (· ++ [.sign '|'])

theorem barred_concat (parts : List (List Token)) (p : List Token) :
    barred (parts ++ [p]) = bars parts ++ p := by
  induction parts with
  | nil => rfl
  | cons q parts ih =>
    cases parts with
    | nil => simp [barred, bars]
    | cons r parts =>
      rw [List.cons_append, List.cons_append, barred, ← List.cons_append, ih]
      simp [bars]

end SchemaTypes.TypeScript
