import SchemaTypes.Proofs.TypeScript.Reader

/-!
# The text of interfaces as lexemes

The text of an interface consists of the lexemes that it is made of, whatever
follows it. The descriptions are comments, and everything else is as the grammar
wants it, so that the interface is read back from its text.
-/

set_option autoImplicit false

namespace SchemaTypes.TypeScript

mutual

def TypeExpr.tokens : TypeExpr → List Token
  | .keyword k => [.word k.text]
  | .array element =>
    if element.isWide then .sign '(' :: (element.tokens ++ [.sign ')', .sign '[', .sign ']'])
    else element.tokens ++ [.sign '[', .sign ']']
  | .union members => barred (TypeExpr.tokensAll members)
  | .literal value => [.literal value]
  | .name target => [.word target]

def TypeExpr.tokensAll : List TypeExpr → List (List Token)
  | [] => []
  | t :: ts => t.tokens :: TypeExpr.tokensAll ts

end

theorem Keyword.isIdentifier_text (k : Keyword) : isIdentifier k.text = true := by
  cases k <;> decide

mutual

/-- A type is its tokens, before anything that does not continue its last name. -/
theorem lexesBefore_type : ∀ t : TypeExpr, (∀ n ∈ t.targets, isIdentifier n = true) →
    LexesBefore t.text.toList (t.tokens.map .token)
  | .keyword k, _ => lexesBefore_word k.isIdentifier_text
  | .array element, h => by
    have helement := lexesBefore_type element h
    rw [TypeExpr.text, TypeExpr.tokens]
    split
    · have hopen : Lexes ['('] [.token (.sign '(')] := lexes_punctuation (by decide)
      have hclose : Lexes [')', '[', ']']
          [.token (.sign ')'), .token (.sign '['), .token (.sign ']')] :=
        lexes_punctuation (by decide)
      have hall := hopen.append (helement.lexes (by decide) hclose)
      simpa using hall.before
    · have hclose : Lexes ['[', ']'] [.token (.sign '['), .token (.sign ']')] :=
        lexes_punctuation (by decide)
      have hall := helement.lexes (by decide) hclose
      simpa using hall.before
  | .union members, h => lexesBefore_types members h
  | .literal value, _ => (lexes_literal value).before
  | .name target, h => lexesBefore_word (h target (by simp [TypeExpr.targets]))

theorem lexesBefore_types : ∀ ts : List TypeExpr,
    (∀ n ∈ TypeExpr.targetsAll ts, isIdentifier n = true) →
    LexesBefore (" | ".intercalate (TypeExpr.texts ts)).toList
      ((barred (TypeExpr.tokensAll ts)).map .token)
  | [], _ => Lexes.nil.before
  | [t], h => lexesBefore_type t fun n hn => h n (by simp [TypeExpr.targetsAll, hn])
  | t :: u :: ts, h => by
    have ht := lexesBefore_type t fun n hn => h n (by simp [TypeExpr.targetsAll, hn])
    have hts := lexesBefore_types (u :: ts) fun n hn => h n (by
      rw [TypeExpr.targetsAll]
      exact List.mem_append_right _ hn)
    have hbar : Lexes [' ', '|', ' '] [.token (.sign '|')] := lexes_punctuation (by decide)
    have hall := ht.append (by decide) (hbar.append_before hts)
    simpa [TypeExpr.texts, TypeExpr.tokensAll, barred] using hall

end

def keyToken (name : String) : Token :=
  if isIdentifier name then .word name else .literal name

theorem keyOf?_keyToken (name : String) : keyOf? (keyToken name) = some name := by
  unfold keyToken
  split <;> rfl

theorem lexesBefore_key (name : String) :
    LexesBefore (key name).toList [.token (keyToken name)] := by
  unfold key keyToken
  split
  · rename_i h
    exact lexesBefore_word h
  · exact (lexes_literal name).before

def Member.tokens (m : Member) : List Token :=
  keyToken m.name :: (mark m.optional ++ .sign ':' :: (m.type.tokens ++ [.sign ';']))

theorem lexes_line (m : Member) (h : ∀ n ∈ m.type.targets, isIdentifier n = true) :
    Lexes m.line.toList (m.tokens.map .token) := by
  have hindent : Lexes [' ', ' '] [] := lexes_punctuation (by decide)
  have hcolon : Lexes [':', ' '] [.token (.sign ':')] := lexes_punctuation (by decide)
  have hend : Lexes [';'] [.token (.sign ';')] := lexes_punctuation (by decide)
  have htype := hcolon.append ((lexesBefore_type m.type h).lexes (by decide) hend)
  have hkey := lexesBefore_key m.name
  unfold Member.line Member.tokens
  cases m.optional with
  | false => simpa [mark] using hindent.append (hkey.lexes (by decide) htype)
  | true =>
    have hmark : Lexes ['?'] [.token (.sign '?')] := lexes_punctuation (by decide)
    simpa [mark] using hindent.append (hkey.lexes (by decide) (hmark.append htype))

def endsComment (s : String) : Bool := Text.occursIn ['*', '/'] s.toList

theorem occursIn_append_blank (cs : List Char) :
    Text.occursIn ['*', '/'] (cs ++ [' ']) = Text.occursIn ['*', '/'] cs := by
  induction cs with
  | nil => decide
  | cons c cs ih =>
    rw [List.cons_append, Text.occursIn, Text.occursIn, ih]
    cases cs with
    | nil => simp [List.isPrefixOf]
    | cons d cs => simp [List.isPrefixOf]

def commentBody (doc : String) : List Char := '*' :: ' ' :: (doc.toList ++ [' '])

theorem occursIn_commentBody {doc : String} (h : endsComment doc = false) :
    Text.occursIn ['*', '/'] (commentBody doc) = false := by
  have hdoc := (occursIn_append_blank doc.toList).trans h
  simp [commentBody, Text.occursIn, List.isPrefixOf, hdoc]

theorem description?_commentBody (doc : String) : description? (commentBody doc) = some doc := by
  simp [description?, commentBody]

def docLexemes : Option String → List Lexeme
  | none => []
  | some doc => [.comment (commentBody doc)]

theorem lexes_docText {doc : Option String} (h : ∀ s ∈ doc, endsComment s = false) :
    Lexes (docText doc).toList (docLexemes doc) := by
  cases doc with
  | none => exact Lexes.nil
  | some doc =>
    have hbody := occursIn_commentBody (h doc rfl)
    have hlast : (commentBody doc).getLast? ≠ some '*' := by
      have hconcat : commentBody doc = ('*' :: ' ' :: doc.toList) ++ [' '] := rfl
      rw [hconcat, List.getLast?_concat]
      decide
    have hindent : Lexes [' ', ' '] [] := lexes_punctuation (by decide)
    have hline : Lexes ['\n'] [] := lexes_punctuation (by decide)
    have hall := hindent.append ((lexes_comment hbody hlast).append hline)
    simpa [docText, docLexemes, commentBody] using hall

def Member.lexemes (m : Member) : List Lexeme := docLexemes m.doc ++ m.tokens.map .token

structure Member.Readable (m : Member) : Prop where
  plain : m.type.Plain
  enclosed : ∀ s ∈ m.doc, endsComment s = false

theorem isIdentifier_of_isTypeName {n : String} (h : isTypeName n = true) :
    isIdentifier n = true := by
  rw [isTypeName, Bool.and_eq_true] at h
  exact h.1

theorem lexes_member {m : Member} (h : m.Readable) : Lexes m.text.toList m.lexemes := by
  have hline := lexes_line m fun n hn =>
    isIdentifier_of_isTypeName (h.plain.isTypeName_of_mem n hn)
  rw [Member.text, String.toList_append]
  exact (lexes_docText h.enclosed).append hline

theorem lexes_intercalate {α : Type} {separator : String} (hs : Lexes separator.toList [])
    (text : α → String) (lexemes : α → List Lexeme) (xs : List α)
    (h : ∀ x ∈ xs, Lexes (text x).toList (lexemes x)) :
    Lexes (separator.intercalate (xs.map text)).toList (xs.flatMap lexemes) := by
  induction xs with
  | nil => exact Lexes.nil
  | cons x xs ih =>
    have hx := h x (by simp)
    cases xs with
    | nil => simpa using hx
    | cons y xs =>
      have hxs := ih fun z hz => h z (List.mem_cons_of_mem _ hz)
      simpa using hx.append (hs.append hxs)

def Interface.lexemes (i : Interface) : List Lexeme :=
  (header i.name).map .token ++ (i.members.flatMap Member.lexemes ++ [.token (.sign '\x7d')])

structure Interface.Readable (i : Interface) : Prop where
  named : isTypeName i.name = true
  members : ∀ m ∈ i.members, m.Readable

theorem lexes_header {name : String} (h : isTypeName name = true) :
    Lexes ("export interface ".toList ++ name.toList ++ [' ', '\x7b'])
      ((header name).map .token) := by
  have hexport := lexesBefore_word (w := "export") (by decide)
  have hinterface := lexesBefore_word (w := "interface") (by decide)
  have hname := lexesBefore_word (isIdentifier_of_isTypeName h)
  have hblank : Lexes [' '] [] := lexes_punctuation (by decide)
  have hopen : Lexes [' ', '\x7b'] [.token (.sign '\x7b')] := lexes_punctuation (by decide)
  have hdeclared := hblank.append (hname.lexes (by decide) hopen)
  have hall := hexport.lexes (by decide) (hblank.append (hinterface.lexes (by decide) hdeclared))
  simpa [header] using hall

theorem lexes_interface {i : Interface} (h : i.Readable) : Lexes i.text.toList i.lexemes := by
  have hheader := lexes_header h.named
  obtain ⟨name, members⟩ := i
  cases members with
  | nil =>
    have hend : Lexes ['\x7d'] [.token (.sign '\x7d')] := lexes_punctuation (by decide)
    simpa [Interface.text, Interface.lexemes] using hheader.append hend
  | cons m ms =>
    have hline : Lexes "\n".toList [] := lexes_punctuation (by decide)
    have hend : Lexes ['\n', '\x7d'] [.token (.sign '\x7d')] := lexes_punctuation (by decide)
    have hmembers := lexes_intercalate hline Member.text Member.lexemes (m :: ms) fun x hx =>
      lexes_member (h.members x hx)
    have hall := hheader.append (hline.append (hmembers.append hend))
    simpa [Interface.text, Interface.lexemes] using hall

theorem spelled_texts (values : List String) (nonempty : values ≠ []) :
    IsType (TypeExpr.union (values.map .literal)).tokens
      (TypeExpr.union (values.map .literal)).collapsed := by
  have htokens : TypeExpr.tokensAll (values.map .literal) =
      (values.map fun v => ([Token.literal v], TypeExpr.literal v)).map Prod.fst := by
    clear nonempty
    induction values with
    | nil => rfl
    | cons v values ih => simp only [List.map_cons, TypeExpr.tokensAll, ih, TypeExpr.tokens]
  refine ⟨values.map fun v => ([.literal v], .literal v), by simpa using nonempty, ?_, ?_, ?_⟩
  · intro p hp
    obtain ⟨v, _, rfl⟩ := List.mem_map.mp hp
    exact .literal v
  · rw [TypeExpr.tokens, htokens]
  · rw [TypeExpr.collapsed, TypeExpr.collapsedAll_literals, List.map_map]
    rfl

/-- A plain expression is written as a type, and as an operand unless it is a
union of two or more texts. -/
theorem spelled_plain {t : TypeExpr} (h : t.Plain) :
    (t.isWide = false → IsOperand t.tokens t.collapsed) ∧ IsType t.tokens t.collapsed := by
  induction h with
  | keyword k => exact ⟨fun _ => .keyword k, (IsOperand.keyword k).isType⟩
  | @array element _ ih =>
    have harray : IsOperand (TypeExpr.array element).tokens (TypeExpr.array element.collapsed) := by
      rw [TypeExpr.tokens]
      split
      · simpa using ih.2.group.array
      · rename_i hw
        exact (ih.1 (by simpa using hw)).array
    exact ⟨fun _ => harray, harray.isType⟩
  | texts values nonempty =>
    refine ⟨?_, spelled_texts values nonempty⟩
    intro hw
    match values, nonempty, hw with
    | [v], _, _ => exact .literal v
  | name target h => exact ⟨fun _ => .name target h, (IsOperand.name target h).isType⟩

/-- The member as a reader has it: with a union of one text as that text. -/
def Member.read (m : Member) : Member := { m with type := m.type.collapsed }

def Interface.read (i : Interface) : Interface := { i with members := i.members.map Member.read }

theorem isMember_tokens {m : Member} (h : m.type.Plain) : IsMember m.tokens m.read.bare :=
  ⟨keyToken m.name, m.type.tokens, keyOf?_keyToken m.name, (spelled_plain h).2, rfl, rfl⟩

namespace Reader

theorem run_member {m : Member} (h : m.type.Plain) (declared : List Interface) (b : Body)
    (hb : b.doc = none) :
    m.lexemes.foldlM read ⟨declared, .inside b⟩ =
      some ⟨declared, .inside { b with members := m.read :: b.members }⟩ := by
  have hdoc : (docLexemes m.doc).foldlM read ⟨declared, .inside b⟩ =
      some ⟨declared, .inside { b with doc := m.doc }⟩ := by
    cases m.doc with
    | none => simp [docLexemes, ← hb]
    | some doc => simp [docLexemes, read, note, description?_commentBody]
  have htokens := run_isMember (isMember_tokens h) declared { b with doc := m.doc }
  rw [Member.lexemes, List.foldlM_append, hdoc, Option.bind_eq_bind, Option.bind_some, htokens]
  simp [Body.add, Member.read, Member.bare, hb]

theorem run_memberLexemes (declared : List Interface) (ms : List Member)
    (h : ∀ m ∈ ms, m.type.Plain) (b : Body) (hb : b.doc = none) :
    (ms.flatMap Member.lexemes).foldlM read ⟨declared, .inside b⟩ =
      some ⟨declared, .inside { b with members := (ms.map Member.read).reverse ++ b.members }⟩ := by
  induction ms generalizing b with
  | nil => rfl
  | cons m ms ih =>
    have hm := run_member (h m (by simp)) declared b hb
    have hms := ih (fun n hn => h n (List.mem_cons_of_mem _ hn))
      { b with members := m.read :: b.members } hb
    rw [List.flatMap_cons, List.foldlM_append, hm, Option.bind_eq_bind, Option.bind_some, hms]
    simp

theorem run_interface {i : Interface} (h : i.Readable) (declared : List Interface) :
    i.lexemes.foldlM read { declared := declared } = some { declared := i.read :: declared } := by
  have hheader := run_header declared h.named
  have hmembers := run_memberLexemes declared i.members (fun m hm => (h.members m hm).plain)
    { name := i.name } rfl
  rw [Interface.lexemes, List.foldlM_append, hheader, Option.bind_eq_bind, Option.bind_some,
    List.foldlM_append, hmembers]
  simp [Reader.read, step, Interface.read]

theorem run_interfaces (is : List Interface) (h : ∀ i ∈ is, i.Readable)
    (declared : List Interface) :
    (is.flatMap Interface.lexemes).foldlM read { declared := declared } =
      some { declared := (is.map Interface.read).reverse ++ declared } := by
  induction is generalizing declared with
  | nil => rfl
  | cons i is ih =>
    have his := ih (fun j hj => h j (List.mem_cons_of_mem _ hj)) (i.read :: declared)
    rw [List.flatMap_cons, List.foldlM_append, run_interface (h i (by simp)) declared,
      Option.bind_eq_bind, Option.bind_some, his]
    simp

end Reader

theorem interfaces?_lexemes (is : List Interface) (h : ∀ i ∈ is, i.Readable) :
    interfaces? (is.flatMap Interface.lexemes) = some (is.map Interface.read) := by
  rw [interfaces?, Reader.run_interfaces is h, Option.bind_some]
  simp [Reader.result?]

end SchemaTypes.TypeScript
