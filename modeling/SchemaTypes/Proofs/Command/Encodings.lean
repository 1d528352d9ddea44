import SchemaTypes.Command
import SchemaTypes.Proofs.Json.Printed
import SchemaTypes.Proofs.Schema.Acceptance

/-!
# Two encodings of the same declarations

The list in JSON and the file of declarations carry the same blocks. The list is one value,
and what it is read as gives the names and codes of all blocks, so also the file.
-/

set_option autoImplicit false

namespace SchemaTypes

open Json.Tree (Prints entryChars commaSeparated)

def Block.value (b : Block) : Value :=
  .object [(.name "name", .string b.name), (.name "code", .string b.code)]

def codeOf? : Value → Option String
  | .object es =>
    match es.lookup (.name "code") with
    | some (.string code) => some code
    | _ => none
  | _ => none

/-- The file of declarations for a list in which every object has a code: nothing for an empty
list, else the codes with a blank line between any two and a line break at the end. -/
def fileOf? : Value → Option String
  | .list [] => some ""
  | .list vs => (vs.mapM codeOf?).map fun codes => "\n\n".intercalate codes ++ "\n"
  | _ => none

def lineStart (indent : Nat) : List Char := '\n' :: List.replicate indent ' '

theorem isSpace_lineStart (indent : Nat) :
    ∀ c ∈ lineStart indent, Json.Tree.isSpace c = true := by
  rw [lineStart, List.forall_mem_cons]
  refine ⟨rfl, fun c hc => ?_⟩
  rw [List.eq_of_mem_replicate hc]
  rfl

theorem toList_append_append (s t u : String) :
    (s ++ t ++ u).toList = s.toList ++ (t.toList ++ u.toList) := by
  rw [String.toList_append, String.toList_append, List.append_assoc]

namespace Block

def form (b : Block) : Json.Form :=
  .object [(some "name", .string (some b.name)), (some "code", .string (some b.code))]

/-- The block in a list, without the blanks before its first bracket. -/
def jsonChars (b : Block) : List Char :=
  '\x7b' :: (lineStart 4 ++ '\x22' ::
    (entryChars (lineStart 4) [' '] ("name", Value.quotedChars b.name.toList)
      [("code", Value.quotedChars b.code.toList)] ++ (lineStart 2 ++ ['\x7d'])))

theorem toList_json (b : Block) : b.json.toList = ' ' :: ' ' :: b.jsonChars := by
  have hquoted (s : String) : (Value.quoted s).toList = Value.quotedChars s.toList :=
    String.toList_ofList
  have hname : "name".toList.flatMap Value.escapeChar = ['n', 'a', 'm', 'e'] := by decide
  have hcode : "code".toList.flatMap Value.escapeChar = ['c', 'o', 'd', 'e'] := by decide
  have hopen : "  \x7b\n    \x22name\x22: ".toList =
      ' ' :: ' ' :: '\x7b' ::
        (lineStart 4 ++ ['\x22', 'n', 'a', 'm', 'e', '\x22', ':', ' ']) := by decide
  have hcomma : ",\n    \x22code\x22: ".toList =
      ',' :: (lineStart 4 ++ ['\x22', 'c', 'o', 'd', 'e', '\x22', ':', ' ']) := by decide
  have hclose : "\n  \x7d".toList = lineStart 2 ++ ['\x7d'] := by decide
  unfold json
  rw [toList_append_append, toList_append_append, hquoted, hquoted, hopen, hcomma, hclose,
    jsonChars, entryChars, entryChars, hname, hcode]
  simp only [List.append_assoc, List.cons_append, List.nil_append]

theorem prints_jsonChars (b : Block) : Prints 4 b.jsonChars b.form :=
  Json.Tree.prints_object (isSpace_lineStart 4) (isSpace_lineStart 2)
    (List.forall_mem_singleton.mpr rfl)
    (.of_prints _ (Json.Tree.prints_quoted b.name))
    (.cons (.of_prints _ (Json.Tree.prints_quoted b.code)) .nil)

theorem toList_intercalate_json (b : Block) (bs : List Block) :
    (",\n".intercalate ((b :: bs).map json)).toList =
      ' ' :: ' ' :: commaSeparated (lineStart 2) (b.jsonChars :: bs.map jsonChars) := by
  induction bs generalizing b with
  | nil => exact toList_json b
  | cons next bs ih =>
    have hcomma : ",\n".toList = [',', '\n'] := by decide
    rw [List.map_cons, List.map_cons, String.intercalate_cons_cons, ← List.map_cons, toList_append_append,
      toList_json, ih, List.map_cons, Json.Tree.commaSeparated_cons, hcomma]
    rfl

end Block

/-- What a list of blocks has between its brackets. -/
def innerChars : List Block → List Char
  | [] => []
  | b :: bs =>
    lineStart 2 ++ (commaSeparated (lineStart 2)
      (b.jsonChars :: bs.map Block.jsonChars) ++ lineStart 0)

def listChars (bs : List Block) : List Char := '[' :: (innerChars bs ++ [']'])

theorem toList_jsonText (bs : List Block) : (jsonText bs).toList = listChars bs ++ ['\n'] := by
  cases bs with
  | nil => decide
  | cons b bs =>
    have hopen : "[\n".toList = ['[', '\n'] := by decide
    have hclose : "\n]\n".toList = ['\n', ']', '\n'] := by decide
    rw [jsonText, toList_append_append, hopen, hclose, Block.toList_intercalate_json, listChars,
      innerChars]
    · simp only [lineStart, List.replicate, List.append_assoc, List.cons_append, List.nil_append]
    · rintro ⟨⟩

theorem prints_listChars (bs : List Block) :
    Prints (6 + bs.length) (listChars bs) (.list (bs.map Block.form)) := by
  cases bs with
  | nil =>
    intro more rest p
    refine ⟨.list p (.close (p + 2)), p + 2, ?_, rfl⟩
    rw [List.length_nil, Nat.add_zero, Nat.add_comm]
    rfl
  | cons b bs =>
    have hrest : List.Forall₂ (Prints 4) (bs.map Block.jsonChars)
        (bs.map Block.form) := by
      rw [List.forall₂_map_left_iff, List.forall₂_map_right_iff, List.forall₂_same]
      exact fun b _ => b.prints_jsonChars
    have hlist := Json.Tree.prints_list (isSpace_lineStart 2) (isSpace_lineStart 0)
      b.prints_jsonChars hrest
    rw [listChars, innerChars, List.append_assoc, List.append_assoc]
    refine hlist.mono ?_
    rw [List.length_map, List.length_cons]
    omega

theorem length_le_listChars (bs : List Block) : bs.length + 2 ≤ (listChars bs).length := by
  cases bs with
  | nil => decide
  | cons b bs =>
    have hcommas := Json.Tree.length_le_commaSeparated (lineStart 2) b.jsonChars
      (bs.map Block.jsonChars)
    have hline : (lineStart 0).length = 1 := rfl
    rw [List.length_map] at hcommas
    simp only [listChars, innerChars, List.length_append, List.length_cons, hline]
    omega

theorem value?_form (bs : List Block) :
    Json.Form.value? (.list (bs.map Block.form)) Json.depthLimit =
      some (.list (bs.map Block.value)) := by
  have hvalues : Json.Form.values? (bs.map Block.form) 126 = some (bs.map Block.value) := by
    induction bs with
    | nil => rfl
    | cons b bs ih =>
      rw [List.map_cons, Json.Form.values?, ih]
      rfl
  rw [Json.depthLimit, Json.Form.value?, hvalues]
  rfl

/-- The list of blocks, with or without the line break at its end, is one value. -/
theorem valueOf?_listChars (bs : List Block) {blank : List Char}
    (hblank : ∀ c ∈ blank, Json.Tree.isSpace c = true) :
    Json.valueOf? (String.ofList (listChars bs ++ blank)) = some (.list (bs.map Block.value)) := by
  have hlength := length_le_listChars bs
  rw [Json.valueOf?_eq, Json.form?_of_prints (prints_listChars bs) hblank (by omega)]
  exact value?_form bs

theorem mapM_codeOf? (bs : List Block) :
    (bs.map Block.value).mapM codeOf? = some (bs.map Block.code) := by
  induction bs with
  | nil => rfl
  | cons b bs ih =>
    rw [List.map_cons, List.mapM_cons, ih]
    rfl

theorem fileOf?_list (bs : List Block) :
    fileOf? (.list (bs.map Block.value)) = some (Encoding.typescript.render bs) := by
  cases bs with
  | nil => rfl
  | cons b bs =>
    rw [fileOf?, mapM_codeOf?, Encoding.render, typescriptText]
    · rfl
    · rintro ⟨⟩
    · rintro ⟨⟩

/-- The list in JSON is one value and a line break. It is read as the names and codes of the
blocks in their order, and from that value the file of declarations can be written. -/
theorem encodings_agree (bs : List Block) :
    ∃ inner, Encoding.json.render bs = "[" ++ inner ++ "]" ++ "\n" ∧
      Json.valueOf? ("[" ++ inner ++ "]") = some (.list (bs.map Block.value)) ∧
      Json.valueOf? (Encoding.json.render bs) = some (.list (bs.map Block.value)) ∧
      fileOf? (.list (bs.map Block.value)) = some (Encoding.typescript.render bs) := by
  have hrender : Encoding.json.render bs = String.ofList (listChars bs ++ ['\n']) := by
    rw [Encoding.render, ← toList_jsonText, String.ofList_toList]
  have htext :
      "[" ++ String.ofList (innerChars bs) ++ "]" = String.ofList (listChars bs ++ []) := by
    rw [listChars, List.append_nil, ← List.singleton_append, String.ofList_append,
      String.ofList_append, String.append_assoc]
  refine ⟨String.ofList (innerChars bs), ?_, ?_, ?_, fileOf?_list bs⟩
  · rw [htext, hrender, List.append_nil, String.ofList_append]
  · rw [htext]
    exact valueOf?_listChars bs nofun
  · rw [hrender]
    exact valueOf?_listChars bs (List.forall_mem_singleton.mpr rfl)

end SchemaTypes
