import SchemaTypes.TypeScript.Name

/-!
# Interfaces of TypeScript and their text

Type expressions, members and interface declarations, and the text of each.
Only an array asks for brackets around its element, and only if the element is
a union of two or more members, since the postfix brackets bind tighter.
-/

set_option autoImplicit false

namespace SchemaTypes.TypeScript

inductive Keyword
  | string
  | number
  | boolean
  | any
  | unknown
deriving DecidableEq, Repr

def Keyword.text : Keyword → String
  | .string => "string"
  | .number => "number"
  | .boolean => "boolean"
  | .any => "any"
  | .unknown => "unknown"

inductive TypeExpr
  | keyword (k : Keyword)
  | array (element : TypeExpr)
  | union (members : List TypeExpr)
  | literal (value : String)
  | name (target : String)
deriving Repr

def TypeExpr.isWide : TypeExpr → Bool
  | .union (_ :: _ :: _) => true
  | _ => false

mutual

def TypeExpr.text : TypeExpr → String
  | .keyword k => k.text
  | .array element =>
    if element.isWide then "(" ++ element.text ++ ")[]" else element.text ++ "[]"
  | .union members => " | ".intercalate (TypeExpr.texts members)
  | .literal value => TypeScript.literal value
  | .name target => target

def TypeExpr.texts : List TypeExpr → List String
  | [] => []
  | t :: ts => t.text :: TypeExpr.texts ts

end

theorem TypeExpr.texts_eq_map (ts : List TypeExpr) : TypeExpr.texts ts = ts.map TypeExpr.text := by
  induction ts with
  | nil => rfl
  | cons t ts ih => simp [TypeExpr.texts, ih]

structure Member where
  name : String
  type : TypeExpr
  optional : Bool
  doc : Option String
deriving Repr

/-- The comment line above a member, nothing if the member has no description. -/
def docText : Option String → String
  | none => ""
  | some doc => "  /** " ++ doc ++ " */\n"

def Member.line (m : Member) : String :=
  "  " ++ key m.name ++ (if m.optional then "?" else "") ++ ": " ++ m.type.text ++ ";"

def Member.text (m : Member) : String := docText m.doc ++ m.line

structure Interface where
  name : String
  members : List Member
deriving Repr

/-- The declaration: one line if there are no members, else a line or more for
each member between the line of the name and the closing brace. -/
def Interface.text (i : Interface) : String :=
  match i.members with
  | [] => "export interface " ++ i.name ++ " \x7b\x7d"
  | m :: ms =>
    "export interface " ++ i.name ++ " \x7b\n" ++ "\n".intercalate ((m :: ms).map Member.text) ++
      "\n\x7d"

theorem intercalate_append (separator s : String) (texts : List String) :
    separator.intercalate (s :: texts) ++ separator =
      String.join ((s :: texts).map (· ++ separator)) := by
  induction texts generalizing s with
  | nil => simp
  | cons t texts ih =>
    rw [String.intercalate_cons_cons, String.append_assoc, ih]
    simp only [List.map_cons, String.join_cons]

/-- Between the braces stand the members, each on a line or more of its own. -/
theorem Interface.text_eq (i : Interface) :
    i.text = "export interface " ++ i.name ++ " \x7b" ++ (if i.members.isEmpty then "" else "\n") ++
      String.join (i.members.map fun m => m.text ++ "\n") ++ "\x7d" := by
  obtain ⟨name, members⟩ := i
  cases members with
  | nil => simp [Interface.text, String.append_assoc]
  | cons m ms =>
    have hopen : " \x7b\n" = " \x7b" ++ "\n" := rfl
    have hclose : "\n\x7d" = "\n" ++ "\x7d" := rfl
    have hlines : "\n".intercalate ((m :: ms).map Member.text) ++ ("\n" ++ "\x7d") =
        String.join ((m :: ms).map fun m => m.text ++ "\n") ++ "\x7d" := by
      rw [← String.append_assoc, List.map_cons, intercalate_append, ← List.map_cons, List.map_map]
      rfl
    rw [Interface.text, hopen, hclose]
    simp only [String.append_assoc, hlines]
    rfl

end SchemaTypes.TypeScript
