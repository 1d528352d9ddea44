import SchemaTypes.Text.Part
import SchemaTypes.TypeScript.Name

/-!
# Lexemes of TypeScript

The words, literals, signs and comments of a text that declares interfaces. A
text is cut from the left, and always into the longest words. White space and what
follows two slashes on a line are passed over. What is written as a word, a literal,
a sign or a comment is read back as that lexeme, whatever follows it; only a word
asks that what follows does not continue it.
-/

set_option autoImplicit false

namespace SchemaTypes.TypeScript

/-- White space and line ends, which only keep lexemes apart. -/
def isSpace (c : Char) : Bool :=
  let n := c.toNat
  (9 ≤ n && n ≤ 13) || n = 0x20 || n = 0x85 || n = 0xA0 || n = 0x1680 ||
    (0x2000 ≤ n && n ≤ 0x200B) || n = 0x2028 || n = 0x2029 || n = 0x202F || n = 0x205F ||
    n = 0x3000 || n = 0xFEFF

/-- The ends of lines that a literal cannot have in it. -/
def endsLine (c : Char) : Bool := c = '\n' || c = '\r'

def breaksLine (c : Char) : Bool := endsLine c || c = '\u2028' || c = '\u2029'

/-- What is left from the end of the line on. -/
def pastLine (cs : List Char) : List Char := cs.dropWhile fun d => !breaksLine d

def signs : List Char := ['\x7b', '\x7d', '(', ')', '[', ']', '|', ':', ';', '?']

inductive Token
  | word (s : String)
  | literal (value : String)
  | sign (c : Char)
deriving DecidableEq, Repr

inductive Lexeme
  | token (t : Token)
  | comment (body : List Char)
deriving DecidableEq, Repr

/-- The lexemes that say something to a reader who skips comments. -/
def tokensOf : List Lexeme → List Token
  | [] => []
  | .token t :: ls => t :: tokensOf ls
  | .comment _ :: ls => tokensOf ls

theorem tokensOf_append (ls ms : List Lexeme) :
    tokensOf (ls ++ ms) = tokensOf ls ++ tokensOf ms := by
  induction ls with
  | nil => rfl
  | cons l ls ih => cases l <;> simp [tokensOf, ih]

theorem tokensOf_map_token (ts : List Token) : tokensOf (ts.map .token) = ts := by
  induction ts with
  | nil => rfl
  | cons t ts ih => rw [List.map_cons, tokensOf, ih]

def escaped? (c : Char) : Option Char :=
  if c = 'n' then some '\n'
  else if c = 'r' then some '\r'
  else if c = 't' then some '\t'
  else if c = 'b' then some '\x08'
  else if c = 'v' then some '\x0b'
  else if c = 'f' then some '\x0c'
  else if c.isDigit || breaksLine c then none
  else some c

def hexNumber? (cs : List Char) : Option Nat :=
  cs.foldlM (fun n c => (Text.hexValue? c).map (16 * n + ·)) 0

def charOf? (n : Nat) : Option Char := if n.isValidChar then some (Char.ofNat n) else none

def numbered? (digits : Nat) (cs : List Char) : Option (Char × List Char) :=
  if digits ≤ cs.length then
    ((hexNumber? (cs.take digits)).bind charOf?).map fun c => (c, cs.drop digits)
  else none

def escape? : List Char → Option (Char × List Char)
  | [] => none
  | k :: cs =>
    if k = 'u' then numbered? 4 cs
    else if k = 'x' then numbered? 2 cs
    else (escaped? k).map fun c => (c, cs)

theorem numbered?_length {digits : Nat} {cs rest : List Char} {c : Char}
    (h : numbered? digits cs = some (c, rest)) : rest.length ≤ cs.length := by
  unfold numbered? at h
  split at h
  · obtain ⟨d, _, hd⟩ := Option.map_eq_some_iff.mp h
    cases hd
    rw [List.length_drop]
    omega
  · cases h

theorem escape?_length {cs rest : List Char} {c : Char} (h : escape? cs = some (c, rest)) :
    rest.length < cs.length := by
  cases cs with
  | nil => cases h
  | cons k cs =>
    rw [List.length_cons, Nat.lt_succ_iff]
    rw [escape?] at h
    split at h
    · exact numbered?_length h
    split at h
    · exact numbered?_length h
    · obtain ⟨d, _, hd⟩ := Option.map_eq_some_iff.mp h
      cases hd
      exact Nat.le_refl _

/-- The text of a literal behind its opening quote, and what follows the closing one. -/
def quoted? (cs : List Char) : Option (List Char × List Char) :=
  match cs with
  | [] => none
  | c :: cs =>
    if c = '\x22' then some ([], cs)
    else if c = '\\' then
      match _h : escape? cs with
      | some (x, rest) => (quoted? rest).map fun p => (x :: p.1, p.2)
      | none => none
    else if endsLine c then none
    else (quoted? cs).map fun p => (c :: p.1, p.2)
termination_by cs.length
decreasing_by
  · have := escape?_length _h
    simp only [List.length_cons]
    omega
  · simp

theorem quoted?_length {cs value rest : List Char} (h : quoted? cs = some (value, rest)) :
    rest.length < cs.length := by
  fun_induction quoted? cs generalizing value with
  | case1 => cases h
  | case2 cs =>
    cases h
    simp
  | case3 cs x rest' he _ ih =>
    obtain ⟨⟨v, r⟩, hp, hd⟩ := Option.map_eq_some_iff.mp h
    cases hd
    have hl := escape?_length he
    have := ih hp
    rw [List.length_cons]
    omega
  | case4 => cases h
  | case5 => cases h
  | case6 c cs hq hb he ih =>
    obtain ⟨⟨v, r⟩, hp, hd⟩ := Option.map_eq_some_iff.mp h
    cases hd
    have := ih hp
    rw [List.length_cons]
    omega

def comment? : List Char → Option (List Char × List Char)
  | [] => none
  | c :: cs =>
    if c = '*' ∧ cs.head? = some '/' then some ([], cs.tail)
    else (comment? cs).map fun p => (c :: p.1, p.2)

theorem comment?_length {cs body rest : List Char} (h : comment? cs = some (body, rest)) :
    rest.length ≤ cs.length := by
  induction cs generalizing body with
  | nil => cases h
  | cons c cs ih =>
    rw [comment?] at h
    split at h
    · cases h
      simp
      omega
    · obtain ⟨⟨b, r⟩, hp, hd⟩ := Option.map_eq_some_iff.mp h
      cases hd
      have := ih hp
      rw [List.length_cons]
      omega

def lexemes? (cs : List Char) : Option (List Lexeme) :=
  match cs with
  | [] => some []
  | c :: cs =>
    if startsName c then
      (lexemes? (cs.dropWhile continuesName)).map
        (.token (.word (String.ofList (c :: cs.takeWhile continuesName))) :: ·)
    else if isSpace c then lexemes? cs
    else if c = '\x22' then
      match _h : quoted? cs with
      | some (value, rest) => (lexemes? rest).map (.token (.literal (String.ofList value)) :: ·)
      | none => none
    else if c = '/' ∧ cs.head? = some '*' then
      match _h : comment? cs.tail with
      | some (body, rest) => (lexemes? rest).map (.comment body :: ·)
      | none => none
    else if c = '/' ∧ cs.head? = some '/' then lexemes? (pastLine cs)
    else if signs.contains c then (lexemes? cs).map (.token (.sign c) :: ·)
    else none
termination_by cs.length
decreasing_by
  · have := (List.dropWhile_sublist (l := cs) continuesName).length_le
    simp only [List.length_cons]
    omega
  · simp
  · have := quoted?_length _h
    simp only [List.length_cons]
    omega
  · have := comment?_length _h
    simp only [List.length_tail, List.length_cons] at *
    omega
  · have := (List.dropWhile_sublist (l := cs) fun d => !breaksLine d).length_le
    simp only [pastLine, List.length_cons]
    omega
  · simp

@[simp] theorem lexemes?_nil : lexemes? [] = some [] := by
  rw [lexemes?]

/-- Characters that are these lexemes, whatever follows them. -/
def Lexes (cs : List Char) (ls : List Lexeme) : Prop :=
  ∀ rest, lexemes? (cs ++ rest) = (lexemes? rest).map (ls ++ ·)

/-- Whether a word that stands before these characters ends there. -/
def Breaks (cs : List Char) : Prop := ∀ c ∈ cs.head?, continuesName c = false

/-- Characters that are these lexemes if what follows does not continue a word. -/
def LexesBefore (cs : List Char) (ls : List Lexeme) : Prop :=
  ∀ rest, Breaks rest → lexemes? (cs ++ rest) = (lexemes? rest).map (ls ++ ·)

theorem breaks_cons {c : Char} (h : continuesName c = false) (cs : List Char) :
    Breaks (c :: cs) := by
  intro d hd
  cases hd
  exact h

theorem Lexes.before {cs : List Char} {ls : List Lexeme} (h : Lexes cs ls) : LexesBefore cs ls :=
  fun rest _ => h rest

theorem Lexes.nil : Lexes [] [] := by
  intro rest
  simp

theorem Lexes.lexemes? {cs : List Char} {ls : List Lexeme} (h : Lexes cs ls) :
    lexemes? cs = some ls := by
  have hall := h []
  rwa [List.append_nil, lexemes?_nil, Option.map_some, List.append_nil] at hall

theorem map_append_append (ls ms : List Lexeme) (o : Option (List Lexeme)) :
    (o.map (ms ++ ·)).map (ls ++ ·) = o.map (ls ++ ms ++ ·) := by
  rw [Option.map_map]
  congr 1
  funext ns
  simp

theorem Lexes.append {cs ds : List Char} {ls ms : List Lexeme} (h : Lexes cs ls)
    (hd : Lexes ds ms) : Lexes (cs ++ ds) (ls ++ ms) := by
  intro rest
  rw [List.append_assoc, h, hd, map_append_append]

theorem LexesBefore.append {c : Char} {cs ds : List Char} {ls ms : List Lexeme}
    (h : LexesBefore cs ls) (hc : continuesName c = false) (hd : LexesBefore (c :: ds) ms) :
    LexesBefore (cs ++ c :: ds) (ls ++ ms) := by
  intro rest hr
  have hb : Breaks (c :: ds ++ rest) := breaks_cons hc _
  rw [List.append_assoc, h _ hb, hd rest hr, map_append_append]

theorem LexesBefore.lexes {c : Char} {cs ds : List Char} {ls ms : List Lexeme}
    (h : LexesBefore cs ls) (hc : continuesName c = false) (hd : Lexes (c :: ds) ms) :
    Lexes (cs ++ c :: ds) (ls ++ ms) := by
  intro rest
  have hb : Breaks (c :: ds ++ rest) := breaks_cons hc _
  rw [List.append_assoc, h _ hb, hd, map_append_append]

theorem Lexes.append_before {cs ds : List Char} {ls ms : List Lexeme} (h : Lexes cs ls)
    (hd : LexesBefore ds ms) : LexesBefore (cs ++ ds) (ls ++ ms) := by
  intro rest hr
  rw [List.append_assoc, h, hd rest hr, map_append_append]

theorem lexes_space {c : Char} (hn : startsName c = false) (hs : isSpace c = true) :
    Lexes [c] [] := by
  intro rest
  rw [List.singleton_append, lexemes?]
  simp [hn, hs]

theorem lexes_sign {c : Char} (h : c ∈ signs) : Lexes [c] [.token (.sign c)] := by
  intro rest
  have hall : (signs.all fun d =>
      !startsName d && !isSpace d && !decide (d = '\x22') && !decide (d = '/')) = true := by
    decide
  have hplain := List.all_eq_true.mp hall c h
  simp only [Bool.and_eq_true, Bool.not_eq_true', decide_eq_false_iff_not] at hplain
  obtain ⟨⟨⟨hn, hs⟩, hq⟩, hc⟩ := hplain
  rw [List.singleton_append, lexemes?]
  simp [hn, hs, hq, hc, h]

def isPunctuation (c : Char) : Bool := signs.contains c || c = ' ' || c = '\n'

def signLexemes (cs : List Char) : List Lexeme :=
  (cs.filter signs.contains).map fun c => .token (.sign c)

theorem lexes_punctuation {cs : List Char} (h : cs.all isPunctuation = true) :
    Lexes cs (signLexemes cs) := by
  induction cs with
  | nil => exact Lexes.nil
  | cons c cs ih =>
    rw [List.all_cons, Bool.and_eq_true] at h
    have hrest := ih h.2
    by_cases hc : c ∈ signs
    · have hsigns : signLexemes (c :: cs) = [.token (.sign c)] ++ signLexemes cs := by
        simp [signLexemes, hc]
      rw [hsigns]
      exact (lexes_sign hc).append hrest
    · have hsigns : signLexemes (c :: cs) = [] ++ signLexemes cs := by
        simp [signLexemes, hc]
      have hblank : c = ' ' ∨ c = '\n' := by simpa [isPunctuation, hc] using h.1
      rw [hsigns]
      rcases hblank with rfl | rfl
      · exact (lexes_space (by decide) (by decide)).append hrest
      · exact (lexes_space (by decide) (by decide)).append hrest

theorem lexesBefore_word {w : String} (hw : isIdentifier w = true) :
    LexesBefore w.toList [.token (.word w)] := by
  intro rest hr
  unfold isIdentifier at hw
  cases hl : w.toList with
  | nil => simp [hl] at hw
  | cons c cs =>
    rw [hl, Bool.and_eq_true] at hw
    have hall : ∀ d ∈ cs, continuesName d = true := List.all_eq_true.mp hw.2
    have hstop : rest.takeWhile continuesName = [] ∧ rest.dropWhile continuesName = rest := by
      cases rest with
      | nil => exact ⟨rfl, rfl⟩
      | cons d rest =>
        have hd := hr d rfl
        simp [hd]
    have hw' : String.ofList (c :: cs) = w := by rw [← hl, String.ofList_toList]
    rw [List.cons_append, lexemes?, if_pos hw.1, List.takeWhile_append_of_pos hall,
      List.dropWhile_append_of_pos hall, hstop.1, hstop.2, List.append_nil, hw']
    rfl

theorem hexNumber?_hex4 {n : Nat} (h : n < 65536) : hexNumber? (Text.hex4 n) = some n := by
  have digit (m : Nat) : Text.hexValue? (Text.hexDigit (m % 16)) = some (m % 16) :=
    Text.hexValue?_hexDigit (Nat.mod_lt m (by decide))
  have sum : 16 * (16 * (16 * (16 * 0 + n / 4096 % 16) + n / 256 % 16) + n / 16 % 16) + n % 16 =
      n := by
    omega
  simp only [hexNumber?, Text.hex4, List.foldlM_cons, List.foldlM_nil, digit, Option.map_some,
    Option.bind_eq_bind, Option.bind_some, Option.pure_def, sum]

theorem charOf?_toNat (c : Char) : charOf? c.toNat = some c := by
  have hv : c.toNat.isValidChar := c.valid
  rw [charOf?, if_pos hv, Char.ofNat_toNat]

theorem quoted?_escape {cs rest : List Char} {c : Char} (h : escape? cs = some (c, rest)) :
    quoted? ('\\' :: cs) = (quoted? rest).map fun p => (c :: p.1, p.2) := by
  rw [quoted?, if_neg (by decide), if_pos rfl]
  split
  · rename_i x r hx
    rw [h] at hx
    cases hx
    rfl
  · rename_i hx
    rw [h] at hx
    cases hx

theorem escape?_hex4 {c : Char} (h : c.toNat < 65536) (cs : List Char) :
    escape? ('u' :: (Text.hex4 c.toNat ++ cs)) = some (c, cs) := by
  have take : (Text.hex4 c.toNat ++ cs).take 4 = Text.hex4 c.toNat := rfl
  have drop : (Text.hex4 c.toNat ++ cs).drop 4 = cs := rfl
  have long : 4 ≤ (Text.hex4 c.toNat ++ cs).length := by simp [Text.hex4]
  rw [escape?, if_pos rfl, numbered?, if_pos long, take, drop, hexNumber?_hex4 h,
    Option.bind_some, charOf?_toNat, Option.map_some]

theorem toNat_lt_of_escaped {c : Char}
    (h : Text.isControl c || c = '\u2028' || c = '\u2029') : c.toNat < 65536 := by
  simp only [Text.isControl, Bool.or_eq_true, Bool.and_eq_true, decide_eq_true_eq] at h
  rcases h with (h | rfl) | rfl
  · omega
  · decide
  · decide

theorem quoted?_escapeChar (c : Char) (cs : List Char) :
    quoted? (escapeChar c ++ cs) = (quoted? cs).map fun p => (c :: p.1, p.2) := by
  unfold escapeChar
  split
  · subst c
    exact quoted?_escape rfl
  split
  · subst c
    exact quoted?_escape rfl
  split
  · subst c
    exact quoted?_escape rfl
  split
  · subst c
    exact quoted?_escape rfl
  split
  · subst c
    exact quoted?_escape rfl
  split
  · rename_i h
    exact quoted?_escape (escape?_hex4 (toNat_lt_of_escaped h) cs)
  · rename_i hb hq hn hr _ _
    rw [List.singleton_append, quoted?, if_neg hq, if_neg hb, if_neg (by simp [endsLine, hn, hr])]

theorem quoted?_flatMap_escapeChar (value rest : List Char) :
    quoted? (value.flatMap escapeChar ++ '\x22' :: rest) = some (value, rest) := by
  induction value with
  | nil =>
    rw [List.flatMap_nil, List.nil_append, quoted?, if_pos rfl]
  | cons c value ih =>
    rw [List.flatMap_cons, List.append_assoc, quoted?_escapeChar, ih, Option.map_some]

theorem lexes_literal (value : String) :
    Lexes (literal value).toList [.token (.literal value)] := by
  intro rest
  have hl : (literal value).toList ++ rest =
      '\x22' :: (value.toList.flatMap escapeChar ++ '\x22' :: rest) := by
    simp [literal, literalChars]
  rw [hl, lexemes?, if_neg (by decide), if_neg (by decide), if_pos rfl]
  split
  · rename_i v r hq
    rw [quoted?_flatMap_escapeChar] at hq
    cases hq
    rw [String.ofList_toList]
    rfl
  · rename_i hq
    rw [quoted?_flatMap_escapeChar] at hq
    cases hq

theorem comment?_append {body : List Char} (h : Text.occursIn ['*', '/'] body = false)
    (hl : body.getLast? ≠ some '*') (rest : List Char) :
    comment? (body ++ '*' :: '/' :: rest) = some (body, rest) := by
  induction body with
  | nil => simp [comment?]
  | cons c body ih =>
    rw [Text.occursIn, Bool.or_eq_false_iff] at h
    have hc : ¬(c = '*' ∧ (body ++ '*' :: '/' :: rest).head? = some '/') := by
      rintro ⟨rfl, hh⟩
      cases body with
      | nil => exact hl rfl
      | cons d body =>
        cases hh
        exact absurd h.1 (by simp)
    have hb : body.getLast? ≠ some '*' := by
      intro hb
      cases body with
      | nil => cases hb
      | cons d body => exact hl (by rw [List.getLast?_cons_cons]; exact hb)
    rw [List.cons_append, comment?, if_neg hc, ih h.2 hb, Option.map_some]

theorem lexes_comment {body : List Char} (h : Text.occursIn ['*', '/'] body = false)
    (hl : body.getLast? ≠ some '*') :
    Lexes ('/' :: '*' :: (body ++ ['*', '/'])) [.comment body] := by
  intro rest
  have hc := comment?_append h hl rest
  have happend : '/' :: '*' :: (body ++ ['*', '/']) ++ rest =
      '/' :: '*' :: (body ++ '*' :: '/' :: rest) := by simp
  rw [happend, lexemes?, if_neg (by decide), if_neg (by decide), if_neg (by decide),
    if_pos ⟨rfl, rfl⟩]
  split
  · rename_i b r hb
    rw [List.tail_cons, hc] at hb
    cases hb
    rfl
  · rename_i hb
    rw [List.tail_cons, hc] at hb
    cases hb

end SchemaTypes.TypeScript
