import SchemaTypes.Proofs.TypeScript.Emission

/-!
# Descriptions and comments

A description is written as it is between the signs of a comment, on lines of its
own. Whatever it says, these lines are read by themselves: what they leave behind
once the comments are gone stands before the member, and the member is read as it
would be without them. So an interface says the same with and without
descriptions exactly if each of these lines says nothing, and a description that
does not close its comment never says anything.
-/

set_option autoImplicit false

namespace SchemaTypes.TypeScript

/-- What is left of a text without its comments. -/
def tokens? (cs : List Char) : Option (List Token) := (lexemes? cs).map tokensOf

theorem Lexes.tokens?_append {cs : List Char} {ls : List Lexeme} (h : Lexes cs ls)
    (rest : List Char) : tokens? (cs ++ rest) = (tokens? rest).map (tokensOf ls ++ ·) := by
  rw [tokens?, h, tokens?, Option.map_map, Option.map_map]
  congr 1
  funext ms
  exact tokensOf_append ls ms

/-- Characters that are read by themselves, whatever follows them. -/
def Sealed (cs : List Char) : Prop :=
  ∀ rest, lexemes? (cs ++ rest) = (lexemes? cs).bind fun ls => (lexemes? rest).map (ls ++ ·)

theorem Lexes.sealed {cs : List Char} {ls : List Lexeme} (h : Lexes cs ls) : Sealed cs := by
  intro rest
  rw [h, h.lexemes?, Option.bind_some]

theorem Sealed.tokens?_append {cs : List Char} (h : Sealed cs) (rest : List Char) :
    tokens? (cs ++ rest) = (tokens? cs).bind fun ts => (tokens? rest).map (ts ++ ·) := by
  rw [tokens?, h, tokens?, tokens?]
  cases lexemes? cs with
  | none => rfl
  | some ls =>
    cases lexemes? rest with
    | none => rfl
    | some ms => simp [tokensOf_append]

def closing : List Char := [' ', '*', '/', '\n']

theorem hexNumber?_of_blank {cs : List Char} (h : ' ' ∈ cs) : hexNumber? cs = none := by
  have hfold (n : Nat) : cs.foldlM (fun n c => (Text.hexValue? c).map (16 * n + ·)) n = none := by
    induction cs generalizing n with
    | nil => cases h
    | cons c cs ih =>
      rw [List.foldlM_cons]
      rcases List.mem_cons.mp h with rfl | h
      · rfl
      · cases Text.hexValue? c with
        | none => rfl
        | some d => exact ih h _
  exact hfold 0

/-- Whether what a reader takes from the front of these characters, if anything,
ends in front of the end of the line. -/
def StaysBefore {α : Type} (read? : List Char → Option (α × List Char)) (cs : List Char) : Prop :=
  (∀ rest, read? (cs ++ closing ++ rest) = none) ∨
    ∃ a left, left.length ≤ cs.length ∧
      ∀ rest, read? (cs ++ closing ++ rest) = some (a, left ++ closing ++ rest)

theorem staysBefore_numbered? (digits : Nat) (cs : List Char) :
    StaysBefore (numbered? digits) cs := by
  by_cases hd : digits ≤ cs.length
  · have hlong (rest : List Char) : digits ≤ (cs ++ closing ++ rest).length := by
      simp only [List.length_append]
      omega
    have htake (rest : List Char) : (cs ++ closing ++ rest).take digits = cs.take digits := by
      rw [List.append_assoc, List.take_append_of_le_length hd]
    have hdrop (rest : List Char) : (cs ++ closing ++ rest).drop digits =
        cs.drop digits ++ closing ++ rest := by
      rw [List.append_assoc, List.drop_append_of_le_length hd, List.append_assoc]
    cases hn : (hexNumber? (cs.take digits)).bind charOf? with
    | none =>
      refine Or.inl fun rest => ?_
      rw [numbered?, if_pos (hlong rest), htake, hn, Option.map_none]
    | some c =>
      refine Or.inr ⟨c, cs.drop digits, by simp, fun rest => ?_⟩
      rw [numbered?, if_pos (hlong rest), htake, hn, Option.map_some, hdrop]
  · refine Or.inl fun rest => ?_
    have hblank : ' ' ∈ (cs ++ closing ++ rest).take digits := by
      have hsplit : cs ++ closing ++ rest = cs ++ [' '] ++ (['*', '/', '\n'] ++ rest) := by
        simp [closing]
      rw [hsplit, List.take_append, List.mem_append]
      left
      rw [List.take_of_length_le (by simp; omega)]
      simp
    rw [numbered?, hexNumber?_of_blank hblank]
    split <;> rfl

theorem staysBefore_escape? (k : Char) (cs : List Char) : StaysBefore escape? (k :: cs) := by
  have hshort {digits : Nat} (h : ∀ rest, escape? (k :: cs ++ closing ++ rest) =
      numbered? digits (cs ++ closing ++ rest)) : StaysBefore escape? (k :: cs) := by
    rcases staysBefore_numbered? digits cs with hnone | ⟨c, left, hl, hsome⟩
    · exact Or.inl fun rest => (h rest).trans (hnone rest)
    · exact Or.inr ⟨c, left, by rw [List.length_cons]; omega,
        fun rest => (h rest).trans (hsome rest)⟩
  by_cases hu : k = 'u'
  · exact hshort fun rest => by rw [List.cons_append, List.cons_append, escape?, if_pos hu]
  by_cases hx : k = 'x'
  · exact hshort fun rest => by
      rw [List.cons_append, List.cons_append, escape?, if_neg hu, if_pos hx]
  · have hplain (rest : List Char) : escape? (k :: cs ++ closing ++ rest) =
        (escaped? k).map fun c => (c, cs ++ closing ++ rest) := by
      rw [List.cons_append, List.cons_append, escape?, if_neg hu, if_neg hx]
    cases hk : escaped? k with
    | none => exact Or.inl fun rest => by rw [hplain, hk, Option.map_none]
    | some c => exact Or.inr ⟨c, cs, by simp, fun rest => by rw [hplain, hk, Option.map_some]⟩

theorem quoted?_badEscape {cs : List Char} (h : escape? cs = none) :
    quoted? ('\\' :: cs) = none := by
  rw [quoted?, if_neg (by decide), if_pos rfl]
  split
  · rename_i hx
    rw [h] at hx
    cases hx
  · rfl

/-- A literal ends before the end of the line, or not at all. -/
theorem staysBefore_quoted? (cs : List Char) : StaysBefore quoted? cs := by
  induction hn : cs.length using Nat.strongRecOn generalizing cs with
  | ind n ih =>
    cases cs with
    | nil => exact Or.inl fun rest => by simp [closing, quoted?, endsLine]
    | cons c cs =>
      rw [List.length_cons] at hn
      by_cases hq : c = '\x22'
      · exact Or.inr ⟨[], cs, by simp, fun rest => by
          rw [List.cons_append, List.cons_append, quoted?, if_pos hq]⟩
      by_cases hb : c = '\\'
      · subst hb
        cases cs with
        | nil => exact Or.inl fun rest => by simp [closing, quoted?, escape?, escaped?, breaksLine,
            endsLine]
        | cons k cs =>
          rcases staysBefore_escape? k cs with hnone | ⟨x, left, hl, hsome⟩
          · exact Or.inl fun rest => quoted?_badEscape (hnone rest)
          · rcases ih left.length (by omega) left rfl with hnone | ⟨value, left', hl', hsome'⟩
            · refine Or.inl fun rest => ?_
              rw [List.cons_append, List.cons_append, quoted?_escape (hsome rest), hnone,
                Option.map_none]
            · refine Or.inr ⟨x :: value, left', by simp only [List.length_cons] at *; omega, ?_⟩
              intro rest
              rw [List.cons_append, List.cons_append, quoted?_escape (hsome rest), hsome',
                Option.map_some]
      by_cases he : endsLine c = true
      · refine Or.inl fun rest => ?_
        rw [List.cons_append, List.cons_append, quoted?, if_neg hq, if_neg hb, if_pos he]
      · have hplain (rest : List Char) : quoted? (c :: cs ++ closing ++ rest) =
            (quoted? (cs ++ closing ++ rest)).map fun p => (c :: p.1, p.2) := by
          rw [List.cons_append, List.cons_append, quoted?, if_neg hq, if_neg hb, if_neg he]
        rcases ih cs.length (by omega) cs rfl with hnone | ⟨value, left, hl, hsome⟩
        · exact Or.inl fun rest => by rw [hplain, hnone, Option.map_none]
        · refine Or.inr ⟨c :: value, left, by rw [List.length_cons]; omega, fun rest => ?_⟩
          rw [hplain, hsome, Option.map_some]

theorem comment?_closing (cs : List Char) :
    (∃ body, ∀ rest, comment? (cs ++ closing ++ rest) = some (body, '\n' :: rest)) ∨
      ∃ body left, left.length ≤ cs.length ∧
        ∀ rest, comment? (cs ++ closing ++ rest) = some (body, left ++ closing ++ rest) := by
  induction cs with
  | nil => exact Or.inl ⟨[' '], fun rest => by simp [closing, comment?]⟩
  | cons c cs ih =>
    by_cases hc : c = '*' ∧ cs.head? = some '/'
    · obtain ⟨rfl, hhead⟩ := hc
      cases cs with
      | nil => cases hhead
      | cons d cs =>
        cases hhead
        exact Or.inr ⟨[], cs, by simp; omega, fun rest => by simp [comment?]⟩
    · have hmore (rest : List Char) : comment? (c :: cs ++ closing ++ rest) =
          (comment? (cs ++ closing ++ rest)).map fun p => (c :: p.1, p.2) := by
        rw [List.cons_append, List.cons_append, comment?, if_neg]
        rintro ⟨rfl, hhead⟩
        cases cs with
        | nil => simp [closing] at hhead
        | cons d cs => exact hc ⟨rfl, hhead⟩
      rcases ih with ⟨body, hend⟩ | ⟨body, left, hl, hsome⟩
      · exact Or.inl ⟨c :: body, fun rest => by rw [hmore, hend, Option.map_some]⟩
      · refine Or.inr ⟨c :: body, left, by rw [List.length_cons]; omega, fun rest => ?_⟩
        rw [hmore, hsome, Option.map_some]

/-- What is passed over behind two slashes ends before the end of the line, or with it. -/
theorem pastLine_closing (cs : List Char) :
    (∀ rest, pastLine (cs ++ closing ++ rest) = '\n' :: rest) ∨
      ∃ left, left.length ≤ cs.length ∧
        ∀ rest, pastLine (cs ++ closing ++ rest) = left ++ closing ++ rest := by
  induction cs with
  | nil => exact Or.inl fun rest => rfl
  | cons c cs ih =>
    by_cases hc : breaksLine c = true
    · refine Or.inr ⟨c :: cs, Nat.le_refl _, fun rest => ?_⟩
      rw [List.cons_append, List.cons_append, pastLine, List.dropWhile_cons_of_neg (by simp [hc])]
    · have hmore (rest : List Char) :
          pastLine (c :: cs ++ closing ++ rest) = pastLine (cs ++ closing ++ rest) :=
        List.dropWhile_cons_of_pos (by simp [hc])
      rcases ih with hend | ⟨left, hl, hleft⟩
      · exact Or.inl fun rest => (hmore rest).trans (hend rest)
      · refine Or.inr ⟨left, by rw [List.length_cons]; omega, fun rest => ?_⟩
        rw [hmore, hleft]

theorem lexemes?_quoted {cs value rest : List Char} (h : quoted? cs = some (value, rest)) :
    lexemes? ('\x22' :: cs) =
      (lexemes? rest).map (.token (.literal (String.ofList value)) :: ·) := by
  rw [lexemes?, if_neg (by decide), if_neg (by decide), if_pos rfl]
  split
  · rename_i hq
    rw [h] at hq
    cases hq
    rfl
  · rename_i hq
    rw [h] at hq
    cases hq

theorem lexemes?_unquoted {cs : List Char} (h : quoted? cs = none) :
    lexemes? ('\x22' :: cs) = none := by
  rw [lexemes?, if_neg (by decide), if_neg (by decide), if_pos rfl]
  split
  · rename_i hq
    rw [h] at hq
    cases hq
  · rfl

theorem lexemes?_comment {cs body rest : List Char} (h : comment? cs = some (body, rest)) :
    lexemes? ('/' :: '*' :: cs) = (lexemes? rest).map (.comment body :: ·) := by
  rw [lexemes?, if_neg (by decide), if_neg (by decide), if_neg (by decide), if_pos ⟨rfl, rfl⟩]
  split
  · rename_i hb
    rw [List.tail_cons, h] at hb
    cases hb
    rfl
  · rename_i hb
    rw [List.tail_cons, h] at hb
    cases hb

theorem lexemes?_passed (cs : List Char) :
    lexemes? ('/' :: '/' :: cs) = lexemes? (pastLine cs) := by
  rw [lexemes?, if_neg (by decide), if_neg (by decide), if_neg (by decide),
    if_neg fun h => absurd (Option.some.inj h.2) (by decide), if_pos ⟨rfl, rfl⟩]
  rfl

theorem word_closing (cs rest : List Char) :
    (cs ++ closing ++ rest).takeWhile continuesName = cs.takeWhile continuesName ∧
      (cs ++ closing ++ rest).dropWhile continuesName =
        cs.dropWhile continuesName ++ closing ++ rest := by
  induction cs with
  | nil =>
    have hblank : continuesName ' ' = false := by decide
    simp [closing, hblank]
  | cons c cs ih =>
    rw [List.cons_append, List.cons_append]
    by_cases hc : continuesName c = true
    · rw [List.takeWhile_cons_of_pos hc, List.dropWhile_cons_of_pos hc, ih.1, ih.2,
        List.takeWhile_cons_of_pos hc, List.dropWhile_cons_of_pos hc]
      exact ⟨rfl, rfl⟩
    · rw [List.takeWhile_cons_of_neg hc, List.dropWhile_cons_of_neg hc,
        List.takeWhile_cons_of_neg hc, List.dropWhile_cons_of_neg hc]
      exact ⟨rfl, rfl⟩

theorem sealed_of_unread {cs : List Char} (h : ∀ rest, lexemes? (cs ++ rest) = none) :
    Sealed cs := by
  intro rest
  have hnone := h []
  rw [List.append_nil] at hnone
  rw [h, hnone, Option.bind_none]

theorem Sealed.of_step {cs ds : List Char} (hd : Sealed ds) (ls : List Lexeme)
    (h : ∀ rest, lexemes? (cs ++ rest) = (lexemes? (ds ++ rest)).map (ls ++ ·)) : Sealed cs := by
  intro rest
  have hcs := h []
  rw [List.append_nil, List.append_nil] at hcs
  rw [h, hd, hcs]
  cases lexemes? ds with
  | none => rfl
  | some ms => exact map_append_append ls ms (lexemes? rest)

theorem sealed_closing_nil : Sealed closing := by
  apply sealed_of_unread
  intro rest
  -- after the blank, no lexeme begins with the star
  have hstar : lexemes? ('*' :: '/' :: '\n' :: rest) = none := by
    rw [lexemes?, if_neg (by decide), if_neg (by decide), if_neg (by decide),
      if_neg fun h => absurd h.1 (by decide), if_neg fun h => absurd h.1 (by decide),
      if_neg (by decide)]
  change lexemes? (' ' :: '*' :: '/' :: '\n' :: rest) = none
  rw [lexemes?, if_neg (by decide), if_pos (by decide), hstar]

theorem sealed_closing_word {c : Char} {cs : List Char} (hc : startsName c = true)
    (h : Sealed (cs.dropWhile continuesName ++ closing)) : Sealed (c :: cs ++ closing) := by
  refine h.of_step [.token (.word (String.ofList (c :: cs.takeWhile continuesName)))]
    fun rest => ?_
  obtain ⟨htake, hdrop⟩ := word_closing cs rest
  rw [List.cons_append, List.cons_append, lexemes?, if_pos hc, htake, hdrop]
  rfl

theorem sealed_closing_quoted {cs : List Char}
    (h : ∀ left : List Char, left.length ≤ cs.length → Sealed (left ++ closing)) :
    Sealed ('\x22' :: cs ++ closing) := by
  rcases staysBefore_quoted? cs with hnone | ⟨value, left, hl, hsome⟩
  · exact sealed_of_unread fun rest => lexemes?_unquoted (hnone rest)
  · exact (h left hl).of_step [.token (.literal (String.ofList value))] fun rest =>
      lexemes?_quoted (hsome rest)

theorem sealed_closing_comment {cs : List Char}
    (h : ∀ left : List Char, left.length ≤ cs.length → Sealed (left ++ closing)) :
    Sealed ('/' :: '*' :: cs ++ closing) := by
  rcases comment?_closing cs with ⟨body, hend⟩ | ⟨body, left, hl, hsome⟩
  · have hline : Lexes ['\n'] [] := lexes_space (by decide) (by decide)
    exact hline.sealed.of_step [.comment body] fun rest => lexemes?_comment (hend rest)
  · exact (h left hl).of_step [.comment body] fun rest => lexemes?_comment (hsome rest)

theorem sealed_closing_passed {cs : List Char}
    (h : ∀ left : List Char, left.length ≤ cs.length → Sealed (left ++ closing)) :
    Sealed ('/' :: '/' :: cs ++ closing) := by
  have hpassed (rest : List Char) : lexemes? ('/' :: '/' :: cs ++ closing ++ rest) =
      lexemes? (pastLine (cs ++ closing ++ rest)) :=
    lexemes?_passed _
  rcases pastLine_closing cs with hend | ⟨left, hl, hleft⟩
  · have hline : Lexes ['\n'] [] := lexes_space (by decide) (by decide)
    refine hline.sealed.of_step [] fun rest => ?_
    rw [hpassed, hend]
    simp
  · refine (h left hl).of_step [] fun rest => ?_
    rw [hpassed, hleft]
    simp

/-- A text that ends like a description is read by itself: a word, a literal or a
comment that begins in it also ends in it. -/
theorem sealed_closing (cs : List Char) : Sealed (cs ++ closing) := by
  induction hn : cs.length using Nat.strongRecOn generalizing cs with
  | ind n ih =>
    cases cs with
    | nil => exact sealed_closing_nil
    | cons c cs =>
      rw [List.length_cons] at hn
      have hshorter (left : List Char) (hl : left.length ≤ cs.length) :
          Sealed (left ++ closing) :=
        ih left.length (by omega) left rfl
      by_cases hw : startsName c = true
      · exact sealed_closing_word hw
          (hshorter _ (List.dropWhile_sublist continuesName).length_le)
      by_cases hs : isSpace c = true
      · refine (hshorter cs (Nat.le_refl _)).of_step [] fun rest => ?_
        rw [List.cons_append, List.cons_append, lexemes?, if_neg hw, if_pos hs]
        simp
      by_cases hq : c = '\x22'
      · subst hq
        exact sealed_closing_quoted hshorter
      by_cases hc : c = '/' ∧ cs.head? = some '*'
      · obtain ⟨rfl, hhead⟩ := hc
        obtain ⟨ds, rfl⟩ := List.head?_eq_some_iff.mp hhead
        exact sealed_closing_comment fun left hl =>
          hshorter left (Nat.le_trans hl (Nat.le_succ _))
      by_cases hp : c = '/' ∧ cs.head? = some '/'
      · obtain ⟨rfl, hhead⟩ := hp
        obtain ⟨ds, rfl⟩ := List.head?_eq_some_iff.mp hhead
        exact sealed_closing_passed fun left hl =>
          hshorter left (Nat.le_trans hl (Nat.le_succ _))
      -- the slash of a comment could only be the last character, and a blank follows it
      have hopen {d : Char} (hd : ¬(c = '/' ∧ cs.head? = some d)) (hne : d ≠ ' ')
          (rest : List Char) : ¬(c = '/' ∧ (cs ++ closing ++ rest).head? = some d) := by
        rintro ⟨rfl, hhead⟩
        cases cs with
        | nil => exact hne (Option.some.inj hhead).symm
        | cons e cs => exact hd ⟨rfl, hhead⟩
      have hplain (rest : List Char) : lexemes? (c :: cs ++ closing ++ rest) =
          if signs.contains c then
            (lexemes? (cs ++ closing ++ rest)).map (.token (.sign c) :: ·) else none := by
        rw [List.cons_append, List.cons_append, lexemes?, if_neg hw, if_neg hs, if_neg hq,
          if_neg (hopen hc (by decide) rest), if_neg (hopen hp (by decide) rest)]
      by_cases hsign : signs.contains c = true
      · exact (hshorter cs (Nat.le_refl _)).of_step [.token (.sign c)] fun rest => by
          rw [hplain, if_pos hsign]
          rfl
      · exact sealed_of_unread fun rest => by rw [hplain, if_neg hsign]

theorem sealed_docText (doc : Option String) : Sealed (docText doc).toList := by
  cases doc with
  | none => exact Lexes.nil.sealed
  | some s =>
    have hline : (docText (some s)).toList =
        [' ', ' ', '/', '*', '*', ' '] ++ s.toList ++ closing := by
      simp [docText, closing]
    rw [hline]
    exact sealed_closing _

/-- What is left of the members of an interface: of each what its description
leaves, and then the member. -/
def membersTokens? : List Member → Option (List Token)
  | [] => some []
  | m :: ms =>
    match tokens? (docText m.doc).toList, membersTokens? ms with
    | some ts, some us => some (ts ++ m.tokens ++ us)
    | _, _ => none

theorem tokens?_members (ms : List Member)
    (h : ∀ m ∈ ms, ∀ n ∈ m.type.targets, isTypeName n = true) :
    tokens? (ms.flatMap (fun m => m.text.toList ++ ['\n']) ++ ['\x7d']) =
      (membersTokens? ms).map (· ++ [.sign '\x7d']) := by
  induction ms with
  | nil =>
    have hend : Lexes ['\x7d'] [.token (.sign '\x7d')] := lexes_punctuation (by decide)
    rw [List.flatMap_nil, List.nil_append, tokens?, hend.lexemes?]
    rfl
  | cons m ms ih =>
    have hrest := ih fun k hk => h k (List.mem_cons_of_mem _ hk)
    have hbreak : Lexes ['\n'] [] := lexes_punctuation (by decide)
    have hline := (lexes_line m fun n hn =>
      isIdentifier_of_isTypeName (h m (by simp) n hn)).append hbreak
    have hsplit : (m :: ms).flatMap (fun m => m.text.toList ++ ['\n']) ++ ['\x7d'] =
        (docText m.doc).toList ++ (m.line.toList ++ ['\n'] ++
          (ms.flatMap (fun m => m.text.toList ++ ['\n']) ++ ['\x7d'])) := by
      simp [Member.text]
    rw [hsplit, (sealed_docText m.doc).tokens?_append, hline.tokens?_append, hrest, membersTokens?]
    cases tokens? (docText m.doc).toList with
    | none => rfl
    | some ts =>
      cases membersTokens? ms with
      | none => rfl
      | some us => simp [tokensOf_map_token]

theorem Interface.text_toList (i : Interface) : ∃ gap, Lexes gap [] ∧
    i.text.toList = "export interface ".toList ++ i.name.toList ++ [' ', '\x7b'] ++
      (gap ++ (i.members.flatMap (fun m => m.text.toList ++ ['\n']) ++ ['\x7d'])) := by
  refine ⟨(if i.members.isEmpty then "" else "\n").toList, ?_, ?_⟩
  · split
    · exact Lexes.nil
    · exact lexes_punctuation (by decide)
  · rw [i.text_eq]
    simp [String.toList_join, List.flatMap_map]

theorem tokens?_text {i : Interface} (hn : isTypeName i.name = true)
    (h : ∀ m ∈ i.members, ∀ n ∈ m.type.targets, isTypeName n = true) :
    tokens? i.text.toList =
      (membersTokens? i.members).map fun ts => header i.name ++ (ts ++ [.sign '\x7d']) := by
  obtain ⟨gap, hgap, htext⟩ := i.text_toList
  rw [htext, (lexes_header hn).tokens?_append, hgap.tokens?_append, tokens?_members i.members h,
    Option.map_map, Option.map_map, tokensOf_map_token]
  rfl

theorem membersTokens?_bare (ms : List Member) :
    membersTokens? (ms.map Member.bare) = some (ms.flatMap Member.tokens) := by
  induction ms with
  | nil => rfl
  | cons m ms ih =>
    have hdoc : tokens? (docText m.bare.doc).toList = some [] := Option.map_eq_some_iff.mpr
      ⟨[], lexemes?_nil, rfl⟩
    rw [List.map_cons, membersTokens?, hdoc, ih, List.flatMap_cons]
    rfl

/-- Whatever the descriptions leave, nothing of a member is lost. -/
theorem sublist_membersTokens? {ms : List Member} {ts : List Token}
    (h : membersTokens? ms = some ts) : (ms.flatMap Member.tokens).Sublist ts := by
  induction ms generalizing ts with
  | nil => exact List.nil_sublist ts
  | cons m ms ih =>
    rw [membersTokens?] at h
    split at h
    · rename_i us vs _ hvs
      cases h
      rw [List.flatMap_cons, List.append_assoc]
      exact ((List.Sublist.refl _).append (ih hvs)).trans (List.sublist_append_right us _)
    · cases h

theorem membersTokens?_eq_iff (ms : List Member) :
    membersTokens? ms = some (ms.flatMap Member.tokens) ↔
      ∀ m ∈ ms, tokens? (docText m.doc).toList = some [] := by
  induction ms with
  | nil => simp [membersTokens?]
  | cons m ms ih =>
    rw [List.forall_mem_cons, ← ih, membersTokens?, List.flatMap_cons]
    constructor
    · intro h
      split at h
      · rename_i ts us hts hus
        have hlength := congrArg List.length (Option.some.inj h)
        have hkept := sublist_membersTokens? hus
        have hshort := hkept.length_le
        simp only [List.length_append] at hlength
        have hnothing : ts = [] := List.eq_nil_of_length_eq_zero (by omega)
        have hsame : ms.flatMap Member.tokens = us := hkept.eq_of_length (by omega)
        exact ⟨by rw [hts, hnothing], by rw [hus, hsame]⟩
      · cases h
    · rintro ⟨hdoc, hrest⟩
      rw [hdoc, hrest]
      rfl

/-- An interface says the same with and without its descriptions exactly if the
line of each of them is nothing but comments, and so it is if none of them closes
its comment. -/
theorem tokens?_text_eq_bare_iff (i : Interface) (hn : isTypeName i.name = true)
    (h : ∀ m ∈ i.members, ∀ n ∈ m.type.targets, isTypeName n = true) :
    (tokens? i.bare.text.toList).isSome = true ∧
    (tokens? i.text.toList = tokens? i.bare.text.toList ↔
      ∀ m ∈ i.members, ∀ s ∈ m.doc, tokens? (docText (some s)).toList = some []) ∧
    ((∀ m ∈ i.members, ∀ s ∈ m.doc, endsComment s = false) →
      tokens? i.text.toList = tokens? i.bare.text.toList) := by
  have hbare : tokens? i.bare.text.toList = some (header i.name ++
      (i.members.flatMap Member.tokens ++ [.sign '\x7d'])) := by
    have hmembers : ∀ m ∈ i.bare.members, ∀ n ∈ m.type.targets, isTypeName n = true := by
      intro m hm
      obtain ⟨k, hk, rfl⟩ := List.mem_map.mp hm
      exact h k hk
    rw [tokens?_text (i := i.bare) hn hmembers, Interface.bare, membersTokens?_bare]
    rfl
  have hiff : tokens? i.text.toList = tokens? i.bare.text.toList ↔
      ∀ m ∈ i.members, ∀ s ∈ m.doc, tokens? (docText (some s)).toList = some [] := by
    rw [hbare, tokens?_text hn h, Option.map_eq_some_iff]
    constructor
    · rintro ⟨ts, hts, hall⟩ m hm s hs
      have hsame := List.append_cancel_right (List.append_cancel_left hall)
      rw [hsame, membersTokens?_eq_iff] at hts
      rw [← Option.mem_def.mp hs]
      exact hts m hm
    · intro hdocs
      refine ⟨_, (membersTokens?_eq_iff i.members).mpr fun m hm => ?_, rfl⟩
      cases hd : m.doc with
      | none => exact Option.map_eq_some_iff.mpr ⟨[], lexemes?_nil, rfl⟩
      | some s => exact hdocs m hm s hd
  refine ⟨by rw [hbare, Option.isSome_some], hiff, fun hdocs => hiff.mpr ?_⟩
  intro m hm s hs
  have hline : Lexes (docText (some s)).toList _ := lexes_docText fun t ht => by
    cases ht
    exact hdocs m hm s hs
  rw [tokens?, hline.lexemes?]
  rfl

/-- A quote and a slash in a description, beside a key and a type that have them too. -/
theorem tokens?_text_eq_bare_pet :
    let i : Interface := ⟨"Pet",
      [⟨"a/\x22b", .array (.name "Tag"), true, some "\x22 /* it's // * /"⟩,
       ⟨"id", .literal "*/", false, some "one\ntwo"⟩]⟩
    isTypeName i.name = true ∧
    (∀ m ∈ i.members, ∀ n ∈ m.type.targets, isTypeName n = true) ∧
    (∀ m ∈ i.members, ∀ s ∈ m.doc, endsComment s = false) ∧
    tokens? i.text.toList = tokens? i.bare.text.toList := by
  intro i
  have hnames : ∀ m ∈ i.members, ∀ n ∈ m.type.targets, isTypeName n = true := by decide
  have hdocs : ∀ m ∈ i.members, ∀ s ∈ m.doc, endsComment s = false := by decide
  exact ⟨by decide, hnames, hdocs, (tokens?_text_eq_bare_iff i (by decide) hnames).2.2 hdocs⟩

/-- A description that closes its comment declares a member of its own. -/
theorem tokens?_text_ne_bare :
    let i : Interface := ⟨"Pet", [⟨"id", .keyword .number, false, some "a */ b: string; /* c"⟩]⟩
    isTypeName i.name = true ∧
    (∀ m ∈ i.members, ∀ n ∈ m.type.targets, isTypeName n = true) ∧
    tokens? i.text.toList = some (header "Pet" ++
      [.word "b", .sign ':', .word "string", .sign ';',
       .word "id", .sign ':', .word "number", .sign ';', .sign '\x7d']) ∧
    tokens? i.bare.text.toList = some (header "Pet" ++
      [.word "id", .sign ':', .word "number", .sign ';', .sign '\x7d']) ∧
    tokens? i.text.toList ≠ tokens? i.bare.text.toList := by
  intro i
  have htext : tokens? i.text.toList = some (header "Pet" ++
      [.word "b", .sign ':', .word "string", .sign ';',
       .word "id", .sign ':', .word "number", .sign ';', .sign '\x7d']) := by
    decide +kernel
  have hbare : tokens? i.bare.text.toList = some (header "Pet" ++
      [.word "id", .sign ':', .word "number", .sign ';', .sign '\x7d']) := by
    decide +kernel
  refine ⟨by decide, by decide, htext, hbare, ?_⟩
  rw [htext, hbare]
  decide

end SchemaTypes.TypeScript
