import SchemaTypes.TypeScript.Interface

/-!
# Type expressions

The names that occur in an expression, the form in which a union of one member
is that member, and the plain expressions: those in which only texts are united.
Under arrays the text of an expression has parentheses if it unites several texts.
-/

set_option autoImplicit false

namespace SchemaTypes.TypeScript

def brackets : Nat → String
  | 0 => ""
  | depth + 1 => brackets depth ++ "[]"

/-- The text of so many arrays over a union of these texts. -/
def layered (depth : Nat) (base : List String) : String :=
  (if 0 < depth ∧ 1 < base.length then "(" ++ " | ".intercalate base ++ ")"
    else " | ".intercalate base) ++ brackets depth

namespace TypeExpr

mutual

/-- The names in the places of types, from left to right. -/
def targets : TypeExpr → List String
  | .keyword _ => []
  | .array element => element.targets
  | .union members => targetsAll members
  | .literal _ => []
  | .name target => [target]

def targetsAll : List TypeExpr → List String
  | [] => []
  | t :: ts => t.targets ++ targetsAll ts

end

def unionOf : List TypeExpr → TypeExpr
  | [t] => t
  | ts => .union ts

mutual

/-- The expression with every union of one member replaced by that member. -/
def collapsed : TypeExpr → TypeExpr
  | .keyword k => .keyword k
  | .array element => .array element.collapsed
  | .union members => unionOf (collapsedAll members)
  | .literal value => .literal value
  | .name target => .name target

def collapsedAll : List TypeExpr → List TypeExpr
  | [] => []
  | t :: ts => t.collapsed :: collapsedAll ts

end

theorem targets_unionOf (ts : List TypeExpr) : (unionOf ts).targets = targetsAll ts := by
  unfold unionOf
  split
  · simp [targetsAll]
  · rfl

mutual

theorem targets_collapsed : ∀ t : TypeExpr, t.collapsed.targets = t.targets
  | .keyword _ => rfl
  | .array element => targets_collapsed element
  | .union members => by
    rw [collapsed, targets_unionOf, targetsAll_collapsedAll members, targets]
  | .literal _ => rfl
  | .name _ => rfl

theorem targetsAll_collapsedAll : ∀ ts : List TypeExpr,
    targetsAll (collapsedAll ts) = targetsAll ts
  | [] => rfl
  | t :: ts => by
    rw [collapsedAll, targetsAll, targetsAll, targets_collapsed t, targetsAll_collapsedAll ts]

end

/-- Expressions whose unions are unions of texts, and whose names can be declared. -/
inductive Plain : TypeExpr → Prop
  | keyword (k : Keyword) : Plain (.keyword k)
  | array {element : TypeExpr} (h : Plain element) : Plain (.array element)
  | texts (values : List String) (nonempty : values ≠ []) : Plain (.union (values.map .literal))
  | name (target : String) (h : isTypeName target = true) : Plain (.name target)

theorem targetsAll_literals (values : List String) : targetsAll (values.map .literal) = [] := by
  induction values with
  | nil => rfl
  | cons v values ih =>
    rw [List.map_cons, targetsAll, ih]
    rfl

theorem collapsedAll_literals (values : List String) :
    collapsedAll (values.map .literal) = values.map .literal := by
  induction values with
  | nil => rfl
  | cons v values ih =>
    rw [List.map_cons, collapsedAll, ih]
    rfl

theorem Plain.isTypeName_of_mem {t : TypeExpr} (h : t.Plain) :
    ∀ n ∈ t.targets, isTypeName n = true := by
  induction h with
  | keyword k => simp [targets]
  | array _ ih => exact ih
  | texts values _ => simp [targets, targetsAll_literals]
  | name target h => simpa [targets] using h

def arrays : Nat → TypeExpr → TypeExpr
  | 0, t => t
  | depth + 1, t => .array (arrays depth t)

/-- The texts that a type unites. -/
def choices : TypeExpr → List String
  | .union members => texts members
  | t => [t.text]

theorem text_eq_intercalate (t : TypeExpr) : t.text = " | ".intercalate t.choices := by
  cases t <;> rfl

theorem isWide_iff (t : TypeExpr) : t.isWide = true ↔ 1 < t.choices.length := by
  cases t with
  | union members =>
    rw [choices, texts_eq_map, List.length_map]
    match members with
    | [] => simp [isWide]
    | [m] => simp [isWide]
    | m :: n :: ms => simp [isWide]
  | keyword k => simp [isWide, choices]
  | array element => simp [isWide, choices]
  | literal value => simp [isWide, choices]
  | name target => simp [isWide, choices]

/-- Only the innermost array can have an element that needs parentheses. -/
theorem text_arrays (depth : Nat) (t : TypeExpr) :
    (arrays depth t).text = layered depth t.choices := by
  induction depth with
  | zero => simp [arrays, layered, brackets, text_eq_intercalate]
  | succ depth ih =>
    have harray : (arrays (depth + 1) t).text =
        (if (arrays depth t).isWide then "(" ++ (arrays depth t).text ++ ")[]"
          else (arrays depth t).text ++ "[]") := rfl
    rw [harray, ih]
    cases depth with
    | zero =>
      by_cases hw : 1 < t.choices.length
      · simp [arrays, layered, brackets, t.isWide_iff.mpr hw, hw, String.append_assoc]
      · have hn : t.isWide = false := by rwa [← t.isWide_iff, Bool.not_eq_true] at hw
        simp [arrays, layered, brackets, hn, hw]
    | succ depth => simp [arrays, layered, brackets, isWide, String.append_assoc]

end TypeExpr

end SchemaTypes.TypeScript
