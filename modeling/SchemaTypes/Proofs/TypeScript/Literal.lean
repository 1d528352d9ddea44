import SchemaTypes.Json.Quoted
import SchemaTypes.Proofs.TypeScript.Lexeme

/-!
# What a string literal means

To the language the value of a string literal is a sequence of code units of 16 bits,
and a literal may be written in more ways than the library reads and writes them: with
code points in braces, with lines that are continued, with halves of characters. All
these are read here. A text that the library writes as a literal has the code units of
that text as its value and ends where it was meant to end, whatever follows; so
different names are different keys.
-/

set_option autoImplicit false

namespace SchemaTypes.TypeScript

/-- A code point in UTF-16. -/
def codeUnits (n : Nat) : List Nat :=
  if n < 0x10000 then [n] else [0xD800 + (n - 0x10000) / 0x400, 0xDC00 + (n - 0x10000) % 0x400]

def units (cs : List Char) : List Nat := cs.flatMap fun c => codeUnits c.toNat

/-- The characters of code units; nothing if half of a character stands alone. -/
def chars? : List Nat → Option (List Char)
  | [] => some []
  | u :: us =>
    if Json.Quoted.isLeading u then
      match us with
      | [] => none
      | v :: rest =>
        if Json.Quoted.isTrailing v then (chars? rest).map (Json.Quoted.paired u v :: ·) else none
    else
      match charOf? u with
      | some c => (chars? us).map (c :: ·)
      | none => none

theorem not_surrogate (c : Char) : c.toNat < 0xD800 ∨ 0xDFFF < c.toNat ∧ c.toNat < 0x110000 :=
  c.valid

theorem chars?_codeUnits (c : Char) (us : List Nat) :
    chars? (codeUnits c.toNat ++ us) = (chars? us).map (c :: ·) := by
  have hc := not_surrogate c
  unfold codeUnits
  split
  · have hwhole : Json.Quoted.isLeading c.toNat = false := by
      simp only [Json.Quoted.isLeading, Bool.and_eq_false_iff, decide_eq_false_iff_not]
      omega
    rw [List.singleton_append, chars?.eq_def]
    dsimp only
    rw [hwhole, if_neg Bool.false_ne_true, charOf?_toNat]
  · rename_i hlarge
    have hleading : Json.Quoted.isLeading (0xD800 + (c.toNat - 0x10000) / 0x400) = true := by
      simp only [Json.Quoted.isLeading, Bool.and_eq_true, decide_eq_true_eq]
      omega
    have htrailing : Json.Quoted.isTrailing (0xDC00 + (c.toNat - 0x10000) % 0x400) = true := by
      simp only [Json.Quoted.isTrailing, Bool.and_eq_true, decide_eq_true_eq]
      omega
    have hpaired : Json.Quoted.paired (0xD800 + (c.toNat - 0x10000) / 0x400)
        (0xDC00 + (c.toNat - 0x10000) % 0x400) = c := by
      have hsum : (0xD800 + (c.toNat - 0x10000) / 0x400 - 0xD800) * 0x400 +
          (0xDC00 + (c.toNat - 0x10000) % 0x400 - 0xDC00) + 0x10000 = c.toNat := by omega
      rw [Json.Quoted.paired, hsum, Char.ofNat_toNat]
    rw [List.cons_append, List.cons_append, List.nil_append, chars?, if_pos hleading,
      if_pos htrailing, hpaired]

theorem chars?_units (cs : List Char) : chars? (units cs) = some cs := by
  induction cs with
  | nil => rfl
  | cons c cs ih => rw [units, List.flatMap_cons, chars?_codeUnits, ← units, ih, Option.map_some]

def isLineTerminator (c : Char) : Bool := endsLine c || c = '\u2028' || c = '\u2029'

def isHexDigit (c : Char) : Bool := (Text.hexValue? c).isSome

/-- One code unit, given by so many digits. -/
def numberedUnit? (digits : Nat) (cs : List Char) : Option (List Nat × List Char) :=
  if digits ≤ cs.length then
    (hexNumber? (cs.take digits)).map fun n => ([n], cs.drop digits)
  else none

def braced? (cs : List Char) : Option (List Nat × List Char) :=
  match cs.takeWhile isHexDigit, cs.dropWhile isHexDigit with
  | d :: ds, '\x7d' :: rest =>
    match hexNumber? (d :: ds) with
    | some n => if n < 0x110000 then some (codeUnits n, rest) else none
    | none => none
  | _, _ => none

/-- What a backslash and the characters behind it stand for, as in a module: an octal
number is refused there. A line that ends behind the backslash is continued. -/
def escapeUnits? : List Char → Option (List Nat × List Char)
  | [] => none
  | k :: cs =>
    if k = 'u' then if cs.head? = some '\x7b' then braced? cs.tail else numberedUnit? 4 cs
    else if k = 'x' then numberedUnit? 2 cs
    else if k = '0' then if cs.head?.any Char.isDigit then none else some ([0], cs)
    else if k = '\r' ∧ cs.head? = some '\n' then some ([], cs.tail)
    else if isLineTerminator k then some ([], cs)
    else (escaped? k).map fun c => (codeUnits c.toNat, cs)

theorem numberedUnit?_length {digits : Nat} {cs rest : List Char} {us : List Nat}
    (h : numberedUnit? digits cs = some (us, rest)) : rest.length ≤ cs.length := by
  unfold numberedUnit? at h
  split at h
  · obtain ⟨n, _, hn⟩ := Option.map_eq_some_iff.mp h
    cases hn
    rw [List.length_drop]
    omega
  · cases h

theorem braced?_length {cs rest : List Char} {us : List Nat} (h : braced? cs = some (us, rest)) :
    rest.length ≤ cs.length := by
  unfold braced? at h
  split at h
  · rename_i d ds rest' htake hdrop
    have hlength := (List.dropWhile_sublist (l := cs) isHexDigit).length_le
    rw [hdrop, List.length_cons] at hlength
    split at h
    · split at h
      · cases h
        omega
      · cases h
    · cases h
  · cases h

theorem escapeUnits?_length {cs rest : List Char} {us : List Nat}
    (h : escapeUnits? cs = some (us, rest)) : rest.length < cs.length := by
  cases cs with
  | nil => cases h
  | cons k cs =>
    have htail : cs.tail.length ≤ cs.length := by rw [List.length_tail]; omega
    rw [List.length_cons, Nat.lt_succ_iff]
    rw [escapeUnits?] at h
    split at h
    · split at h
      · exact Nat.le_trans (braced?_length h) htail
      · exact numberedUnit?_length h
    split at h
    · exact numberedUnit?_length h
    split at h
    · split at h
      · cases h
      · cases h
        exact Nat.le_refl _
    split at h
    · cases h
      exact htail
    split at h
    · cases h
      exact Nat.le_refl _
    · obtain ⟨c, _, hc⟩ := Option.map_eq_some_iff.mp h
      cases hc
      exact Nat.le_refl _

/-- The value of a literal behind its opening quote, and what follows the closing one. -/
def quotedUnits? (cs : List Char) : Option (List Nat × List Char) :=
  match cs with
  | [] => none
  | c :: cs =>
    if c = '\x22' then some ([], cs)
    else if c = '\\' then
      match _h : escapeUnits? cs with
      | some (us, rest) => (quotedUnits? rest).map fun p => (us ++ p.1, p.2)
      | none => none
    else if endsLine c then none
    else (quotedUnits? cs).map fun p => (codeUnits c.toNat ++ p.1, p.2)
termination_by cs.length
decreasing_by
  · have := escapeUnits?_length _h
    simp only [List.length_cons]
    omega
  · simp

/-- The value of the literal in double quotes that a text begins with, and the rest. -/
def stringLiteral? : List Char → Option (List Nat × List Char)
  | '\x22' :: cs => quotedUnits? cs
  | _ => none

theorem hexValue?_lt {c : Char} {n : Nat} (h : Text.hexValue? c = some n) : n < 16 := by
  simp only [Text.hexValue?, Char.le_def, UInt32.le_iff_toNat_le] at h
  have htoNat : c.toNat = c.val.toNat := rfl
  split at h
  · rename_i hc
    cases h
    have : c.val.toNat ≤ 57 := hc.2
    omega
  split at h
  · rename_i hc
    cases h
    have : c.val.toNat ≤ 102 := hc.2
    omega
  split at h
  · rename_i hc
    cases h
    have : c.val.toNat ≤ 70 := hc.2
    omega
  · cases h

theorem hexNumber?_lt {cs : List Char} {n : Nat} (h : hexNumber? cs = some n)
    (hlength : cs.length ≤ 4) : n < 0x10000 := by
  have hfold (cs : List Char) (m n : Nat)
      (h : cs.foldlM (fun n c => (Text.hexValue? c).map (16 * n + ·)) m = some n) :
      n < (m + 1) * 16 ^ cs.length := by
    induction cs generalizing m with
    | nil =>
      cases h
      simp
    | cons c cs ih =>
      rw [List.foldlM_cons] at h
      obtain ⟨k, hk, hn⟩ := Option.bind_eq_some_iff.mp h
      obtain ⟨d, hd, rfl⟩ := Option.map_eq_some_iff.mp hk
      have hdigit := hexValue?_lt hd
      calc n < (16 * m + d + 1) * 16 ^ cs.length := ih _ hn
        _ ≤ (m + 1) * 16 * 16 ^ cs.length := Nat.mul_le_mul_right _ (by omega)
        _ = (m + 1) * 16 ^ (c :: cs).length := by
          rw [List.length_cons, Nat.pow_succ', Nat.mul_assoc]
  have hbound := hfold cs 0 n h
  rw [Nat.zero_add, Nat.one_mul] at hbound
  exact Nat.lt_of_lt_of_le hbound (Nat.pow_le_pow_right (by decide) hlength)

theorem codeUnits_of_lt {n : Nat} (h : n < 0x10000) : codeUnits n = [n] := if_pos h

theorem toNat_of_charOf? {n : Nat} {c : Char} (h : charOf? n = some c) : c.toNat = n := by
  unfold charOf? at h
  split at h
  · rename_i hvalid
    cases h
    rw [Char.ofNat, dif_pos hvalid]
    rfl
  · cases h

theorem numberedUnit?_of_numbered? {digits : Nat} {cs rest : List Char} {c : Char}
    (hdigits : digits ≤ 4) (h : numbered? digits cs = some (c, rest)) :
    numberedUnit? digits cs = some (codeUnits c.toNat, rest) := by
  unfold numbered? at h
  unfold numberedUnit?
  split at h
  · rename_i hlong
    obtain ⟨d, hd, heq⟩ := Option.map_eq_some_iff.mp h
    obtain ⟨n, hn, hchar⟩ := Option.bind_eq_some_iff.mp hd
    cases heq
    have hbound : n < 0x10000 := by
      apply hexNumber?_lt hn
      rw [List.length_take, Nat.min_eq_left hlong]
      exact hdigits
    rw [if_pos hlong, hn, toNat_of_charOf? hchar, codeUnits_of_lt hbound, Option.map_some]
  · cases h

/-- A brace is no digit, so the library refuses what the language reads there. -/
theorem head?_ne_brace {cs rest : List Char} {c : Char} (h : numbered? 4 cs = some (c, rest)) :
    cs.head? ≠ some '\x7b' := by
  intro hbrace
  obtain ⟨ds, rfl⟩ := List.head?_eq_some_iff.mp hbrace
  unfold numbered? at h
  split at h
  · cases h
  · cases h

theorem escapeUnits?_of_escape? {cs rest : List Char} {c : Char}
    (h : escape? cs = some (c, rest)) : escapeUnits? cs = some (codeUnits c.toNat, rest) := by
  cases cs with
  | nil => cases h
  | cons k cs =>
    rw [escape?] at h
    rw [escapeUnits?]
    split at h
    · rw [if_pos ‹_›, if_neg (head?_ne_brace h)]
      exact numberedUnit?_of_numbered? (by decide) h
    split at h
    · rw [if_neg ‹_›, if_pos ‹_›]
      exact numberedUnit?_of_numbered? (by decide) h
    · obtain ⟨d, hd, heq⟩ := Option.map_eq_some_iff.mp h
      cases heq
      have hzero : k ≠ '0' := by
        rintro rfl
        cases hd
      have hline : isLineTerminator k = false := by
        rw [isLineTerminator, Bool.eq_false_iff]
        intro hk
        simp only [endsLine, Bool.or_eq_true, decide_eq_true_eq] at hk
        rcases hk with ((rfl | rfl) | rfl) | rfl <;> cases hd
      have hreturn : ¬(k = '\r' ∧ rest.head? = some '\n') := by
        rintro ⟨rfl, -⟩
        cases hline
      rw [if_neg ‹k ≠ 'u'›, if_neg ‹k ≠ 'x'›, if_neg hzero, if_neg hreturn, hline,
        if_neg Bool.false_ne_true, hd, Option.map_some]

/-- What the library reads as a literal, the language reads as the same text. -/
theorem quotedUnits?_of_quoted? {cs value rest : List Char} (h : quoted? cs = some (value, rest)) :
    quotedUnits? cs = some (units value, rest) := by
  fun_induction quoted? cs generalizing value with
  | case1 => cases h
  | case2 cs =>
    cases h
    rw [quotedUnits?, if_pos rfl]
    rfl
  | case3 cs c rest' he _ ih =>
    obtain ⟨⟨v, r⟩, hp, heq⟩ := Option.map_eq_some_iff.mp h
    cases heq
    rw [quotedUnits?, if_neg (by decide), if_pos rfl]
    split
    · rename_i us r' hus
      rw [escapeUnits?_of_escape? he] at hus
      cases hus
      rw [ih hp, Option.map_some]
      rfl
    · rename_i hnone
      rw [escapeUnits?_of_escape? he] at hnone
      cases hnone
  | case4 => cases h
  | case5 => cases h
  | case6 c cs hquote hbackslash hline ih =>
    obtain ⟨⟨v, r⟩, hp, heq⟩ := Option.map_eq_some_iff.mp h
    cases heq
    rw [quotedUnits?, if_neg hquote, if_neg hbackslash, if_neg hline, ih hp, Option.map_some]
    rfl

theorem stringLiteral?_literal (v : String) (rest : List Char) :
    stringLiteral? ((literal v).toList ++ rest) = some (units v.toList, rest) := by
  have hchars : (literal v).toList ++ rest =
      '\x22' :: (v.toList.flatMap escapeChar ++ '\x22' :: rest) := by
    simp [literal, literalChars]
  rw [hchars, stringLiteral?]
  exact quotedUnits?_of_quoted? (quoted?_flatMap_escapeChar v.toList rest)

/-- What may stand in a literal as it is: no control character and no line terminator. -/
def isInline (c : Char) : Bool := !Text.isControl c && !isLineTerminator c

theorem isInline_hex4 (n : Nat) : ∀ c ∈ Text.hex4 n, isInline c = true := by
  have hdigit : ∀ m < 16, isInline (Text.hexDigit m) = true := by decide
  intro c hc
  simp only [Text.hex4, List.mem_cons, List.not_mem_nil, or_false] at hc
  rcases hc with rfl | rfl | rfl | rfl <;> exact hdigit _ (Nat.mod_lt _ (by decide))

theorem isInline_escapeChar (c : Char) : ∀ d ∈ escapeChar c, isInline d = true := by
  have hshort (e : Char) (he : isInline e = true) : ∀ d ∈ ['\\', e], isInline d = true := by
    intro d hd
    rcases List.mem_cons.mp hd with rfl | hd
    · rfl
    · obtain rfl := List.mem_singleton.mp hd
      exact he
  unfold escapeChar
  split
  · exact hshort _ rfl
  split
  · exact hshort _ rfl
  split
  · exact hshort _ rfl
  split
  · exact hshort _ rfl
  split
  · exact hshort _ rfl
  split
  · intro d hd
    rcases List.mem_cons.mp hd with rfl | hd
    · decide
    rcases List.mem_cons.mp hd with rfl | hd
    · decide
    · exact isInline_hex4 _ d hd
  · rename_i hfeed hreturn _ hother
    intro d hd
    obtain rfl := List.mem_singleton.mp hd
    simp only [Bool.or_eq_true, decide_eq_true_eq, not_or, Bool.not_eq_true] at hother
    simp [isInline, isLineTerminator, endsLine, hfeed, hreturn, hother]

theorem isInline_literal (v : String) : ∀ c ∈ (literal v).toList, isInline c = true := by
  intro c hc
  simp only [literal, literalChars, String.toList_ofList, List.mem_cons, List.mem_append,
    List.mem_flatMap, List.not_mem_nil, or_false] at hc
  rcases hc with rfl | ⟨d, -, hd⟩ | rfl
  · decide
  · exact isInline_escapeChar d c hd
  · decide

theorem literal_injective : Function.Injective literal := by
  intro v w h
  have hv := stringLiteral?_literal v []
  rw [h, stringLiteral?_literal w []] at hv
  have hunits : units w.toList = units v.toList := congrArg Prod.fst (Option.some.inj hv)
  have hchars : some w.toList = some v.toList := by rw [← chars?_units, hunits, chars?_units]
  exact (String.toList_injective (Option.some.inj hchars)).symm

theorem isIdentifier_literal (v : String) : isIdentifier (literal v) = false := by
  have hchars : (literal v).toList = '\x22' :: (v.toList.flatMap escapeChar ++ ['\x22']) := by
    simp [literal, literalChars]
  rw [isIdentifier, hchars]
  rfl

theorem ne_literal {name : String} (h : isIdentifier name = true) (v : String) :
    name ≠ literal v := by
  rintro rfl
  rw [isIdentifier_literal] at h
  cases h

theorem key_injective : Function.Injective key := by
  intro m n h
  unfold key at h
  split at h <;> split at h
  · exact h
  · exact absurd h (ne_literal ‹_› n)
  · exact absurd h.symm (ne_literal ‹_› m)
  · exact literal_injective h

/-- A literal is read back as its text, whatever follows it, and never leaves its line. So
different names have different keys, and a name that stands bare is no literal. -/
theorem literal_decodes :
    (∀ v r : String, ∃ us, stringLiteral? (literal v ++ r).toList = some (us, r.toList) ∧
      chars? us = some v.toList) ∧
    (∀ v : String, ∀ c ∈ (literal v).toList,
      Text.isControl c = false ∧ isLineTerminator c = false) ∧
    Function.Injective literal ∧ Function.Injective key ∧
    ∀ m n : String, isIdentifier m = true → key m = m ∧ m ≠ literal n := by
  refine ⟨fun v r => ⟨units v.toList, ?_, chars?_units v.toList⟩, fun v c hc => ?_,
    literal_injective, key_injective, fun m n hm => ⟨if_pos hm, ne_literal hm n⟩⟩
  · rw [String.toList_append]
    exact stringLiteral?_literal v r.toList
  · have hinline := isInline_literal v c hc
    rw [isInline, Bool.and_eq_true, Bool.not_eq_true', Bool.not_eq_true'] at hinline
    exact hinline

/-- An escape with digits before a letter that could be a digit, and a name beside the
literal of the same name. -/
theorem literal_decodes_bell :
    literal "bell\x07" = "\x22bell\\u0007\x22" ∧
      (∃ us, stringLiteral? (literal "bell\x07" ++ "face\x22").toList =
        some (us, ['f', 'a', 'c', 'e', '\x22']) ∧
        chars? us = some ['b', 'e', 'l', 'l', '\x07']) ∧
      isIdentifier "bell" = true ∧ key "bell" = "bell" ∧ "bell" ≠ literal "bell" := by
  obtain ⟨hread, -, -, -, hkey⟩ := literal_decodes
  have hbell : isIdentifier "bell" = true := by decide
  obtain ⟨us, hus, hchars⟩ := hread "bell\x07" "face\x22"
  obtain ⟨hbare, hne⟩ := hkey "bell" "bell" hbell
  exact ⟨by decide, ⟨us, hus, hchars⟩, hbell, hbare, hne⟩

end SchemaTypes.TypeScript
