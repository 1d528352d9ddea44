import Mathlib.Data.List.Forall2
import SchemaTypes.Proofs.Json.Form

/-!
# Texts that are printed

What a printed text of JSON is read as, wherever it stands and whatever follows it. A
text that is quoted is read as that text. A list or an object may be laid out with white
space after its opening bracket, after its commas and before its closing bracket.
-/

set_option autoImplicit false

namespace SchemaTypes.Json

namespace Quoted

/-- Characters inside a quoted text that are read as this one. -/
def Escapes (cs : List Char) (c : Char) : Prop :=
  ∀ rest p, ∃ q, decode (cs ++ rest) p = prepend c (decode rest q) ∧
    skip (cs ++ rest) p = skip rest q

theorem escapes_short {c e : Char} (he : shortEscape? e = some c) (hu : e ≠ 'u') :
    Escapes ['\\', e] c := by
  intro rest p
  refine ⟨p + 2, ?_, ?_⟩
  · rw [List.cons_append, List.singleton_append, decode]
    · rw [he]
    · rintro _ _ _ _ _ rfl
      exact absurd rfl hu
    · rintro rfl
      exact absurd rfl hu
  · rw [List.cons_append, List.singleton_append, skip]
    · rw [he]
    · rintro _ _ _ _ _ rfl
      exact absurd rfl hu
    · rintro rfl
      exact absurd rfl hu

theorem hex?_hex4 {n : Nat} (h : n < 65536) :
    hex? (Text.hexDigit (n / 4096 % 16)) (Text.hexDigit (n / 256 % 16))
      (Text.hexDigit (n / 16 % 16)) (Text.hexDigit (n % 16)) = some n := by
  have digit (m : Nat) : Text.hexValue? (Text.hexDigit (m % 16)) = some (m % 16) :=
    Text.hexValue?_hexDigit (Nat.mod_lt m (by decide))
  rw [hex?, digit, digit, digit, digit]
  dsimp only
  congr 1
  omega

/-- A number below those for halves of characters is a character by itself. -/
theorem escapes_hex4 {c : Char} (h : c.toNat < 0x20) :
    Escapes ('\\' :: 'u' :: Text.hex4 c.toNat) c := by
  intro rest p
  have hnumber := hex?_hex4 (n := c.toNat) (by omega)
  have htrailing : isTrailing c.toNat = false := by
    simp only [isTrailing, Bool.and_eq_false_iff, decide_eq_false_iff_not]
    omega
  have hleading : isLeading c.toNat = false := by
    simp only [isLeading, Bool.and_eq_false_iff, decide_eq_false_iff_not]
    omega
  refine ⟨p + 6, ?_, ?_⟩
  · rw [Text.hex4]
    simp only [List.cons_append, List.nil_append]
    rw [decode, hnumber]
    dsimp only
    rw [htrailing, hleading, if_neg Bool.false_ne_true, if_neg Bool.false_ne_true,
      Char.ofNat_toNat]
  · rw [Text.hex4]
    simp only [List.cons_append, List.nil_append]
    rw [skip, hnumber]

theorem escapes_self {c : Char} (hbackslash : c ≠ '\\') (hquote : c ≠ '\x22')
    (hcontrol : ¬c.toNat < 0x20) : Escapes [c] c := by
  intro rest p
  refine ⟨p + c.utf8Size, ?_, ?_⟩
  · rw [List.singleton_append, decode, if_neg hquote, if_neg hcontrol]
    all_goals
      intros
      exact absurd ‹c = '\\'› hbackslash
  · rw [List.singleton_append, skip, if_neg hquote, if_neg hcontrol]
    all_goals
      intros
      exact absurd ‹c = '\\'› hbackslash

theorem escapes_escapeChar (c : Char) : Escapes (Value.escapeChar c) c := by
  unfold Value.escapeChar
  split
  · subst c
    exact escapes_short rfl (by decide)
  split
  · subst c
    exact escapes_short rfl (by decide)
  split
  · subst c
    exact escapes_short rfl (by decide)
  split
  · subst c
    exact escapes_short rfl (by decide)
  split
  · subst c
    exact escapes_short rfl (by decide)
  split
  · subst c
    exact escapes_short rfl (by decide)
  split
  · subst c
    exact escapes_short rfl (by decide)
  split
  · exact escapes_hex4 ‹_›
  · exact escapes_self ‹_› ‹_› ‹_›

/-- What is between quotes is read up to the closing one, by both readers. -/
theorem scan_escaped (s : String) (rest : List Char) (p : Nat) :
    ∃ q, scan (s.toList.flatMap Value.escapeChar ++ '\x22' :: rest) p = ⟨.ok s, .ok (rest, q)⟩ := by
  have hread (cs : List Char) (p : Nat) :
      ∃ q, decode (cs.flatMap Value.escapeChar ++ '\x22' :: rest) p = .ok (cs, rest, q) ∧
        skip (cs.flatMap Value.escapeChar ++ '\x22' :: rest) p = .ok (rest, q) := by
    induction cs generalizing p with
    | nil => exact ⟨p + 1, rfl, rfl⟩
    | cons c cs ih =>
      obtain ⟨q, hdecode, hskip⟩ :=
        escapes_escapeChar c (cs.flatMap Value.escapeChar ++ '\x22' :: rest) p
      obtain ⟨q', hdecode', hskip'⟩ := ih q
      refine ⟨q', ?_, ?_⟩
      · rw [List.flatMap_cons, List.append_assoc, hdecode, hdecode']
        rfl
      · rw [List.flatMap_cons, List.append_assoc, hskip, hskip']
  obtain ⟨q, hdecode, hskip⟩ := hread s.toList p
  refine ⟨q, ?_⟩
  rw [scan, hdecode, hskip, Except.map, String.ofList_toList]

end Quoted

namespace Tree

theorem skipSpace_blank {blank : List Char} (h : ∀ c ∈ blank, isSpace c = true) {c : Char}
    (hc : isSpace c = false) (cs : List Char) (p : Nat) :
    ∃ q, skipSpace (blank ++ c :: cs) p = (c :: cs, q) := by
  induction blank generalizing p with
  | nil =>
    refine ⟨p, ?_⟩
    rw [List.nil_append, skipSpace, hc, if_neg Bool.false_ne_true]
  | cons b blank ih =>
    rw [List.forall_mem_cons] at h
    obtain ⟨q, hq⟩ := ih h.2 (p + 1)
    refine ⟨q, ?_⟩
    rw [List.cons_append, skipSpace, if_pos h.1, hq]

theorem skipSpace_all {blank : List Char} (h : ∀ c ∈ blank, isSpace c = true) (p : Nat) :
    ∃ q, skipSpace blank p = ([], q) := by
  induction blank generalizing p with
  | nil => exact ⟨p, rfl⟩
  | cons b blank ih =>
    rw [List.forall_mem_cons] at h
    obtain ⟨q, hq⟩ := ih h.2 (p + 1)
    refine ⟨q, ?_⟩
    rw [skipSpace, if_pos h.1, hq]

/-- Characters that are read as this form with so much fuel, wherever they stand and whatever
follows them. -/
def Prints (fuel : Nat) (cs : List Char) (f : Form) : Prop :=
  ∀ more rest p, ∃ t q, value (fuel + more) (cs ++ rest) p = (t, some (rest, q)) ∧
    t.form? = some f

theorem Prints.mono {fuel fuel' : Nat} {cs : List Char} {f : Form} (h : Prints fuel cs f)
    (hle : fuel ≤ fuel') : Prints fuel' cs f := by
  intro more rest p
  obtain ⟨t, q, hvalue, hform⟩ := h (fuel' - fuel + more) rest p
  refine ⟨t, q, ?_, hform⟩
  rw [← hvalue]
  congr 1
  omega

/-- A value begins with no white space, and with no closing bracket. -/
theorem Prints.head {fuel : Nat} {cs : List Char} {f : Form} (h : Prints fuel cs f) :
    ∃ c cs', cs = c :: cs' ∧ isSpace c = false ∧ c ≠ ']' := by
  obtain ⟨t, q, hvalue, hform⟩ := h 1 [] 0
  cases cs with
  | nil =>
    cases hvalue
  | cons c cs =>
    refine ⟨c, cs, rfl, ?_, ?_⟩
    · rw [Bool.eq_false_iff]
      intro hspace
      simp only [isSpace, Bool.or_eq_true, decide_eq_true_eq] at hspace
      rcases hspace with ((rfl | rfl) | rfl) | rfl <;> cases hvalue
    · rintro rfl
      cases hvalue

theorem prints_quoted (s : String) :
    Prints 1 (Value.quotedChars s.toList) (.string (some s)) := by
  intro more rest p
  have hchars : Value.quotedChars s.toList ++ rest =
      '\x22' :: (s.toList.flatMap Value.escapeChar ++ '\x22' :: rest) := by
    simp [Value.quotedChars]
  obtain ⟨q, hscan⟩ := Quoted.scan_escaped s rest (p + 1)
  refine ⟨.string (.ok s) q, q, ?_, rfl⟩
  rw [hchars, Nat.add_comm, value]
  exact congrArg (leaf .string) hscan

/-- Texts one after another with a comma and a blank between them. -/
def commaSeparated (blank : List Char) : List (List Char) → List Char
  | [] => []
  | [cs] => cs
  | cs :: rest => cs ++ ',' :: (blank ++ commaSeparated blank rest)

theorem commaSeparated_cons (blank cs next : List Char) (rest : List (List Char)) :
    commaSeparated blank (cs :: next :: rest) =
      cs ++ ',' :: (blank ++ commaSeparated blank (next :: rest)) := by
  rw [commaSeparated]
  rintro ⟨⟩

section Layout

variable {blank close : List Char} (hblank : ∀ c ∈ blank, isSpace c = true)
  (hclose : ∀ c ∈ close, isSpace c = true)

include hclose in
theorem afterItem_close (rest : List Char) (p : Nat) :
    ∃ q, afterItem (close ++ ']' :: rest) p = .close q rest := by
  obtain ⟨q, hq⟩ := skipSpace_blank hclose (c := ']') (by decide) rest p
  refine ⟨q + 1, ?_⟩
  rw [afterItem, hq]
  rfl

include hblank in
theorem afterItem_comma {c : Char} (hspace : isSpace c = false) (hbracket : c ≠ ']')
    (rest : List Char) (p : Nat) :
    ∃ q, afterItem (',' :: (blank ++ c :: rest)) p = .more q (c :: rest) := by
  obtain ⟨q, hq⟩ := skipSpace_blank hblank hspace rest (p + 1)
  refine ⟨q, ?_⟩
  rw [afterItem, skipSpace, if_neg (by decide)]
  dsimp only
  rw [if_neg (by decide), if_pos rfl, hq]
  exact if_neg hbracket

include hclose in
theorem afterEntry_close (rest : List Char) (p : Nat) :
    ∃ q, afterEntry (close ++ '\x7d' :: rest) p = .close q rest := by
  obtain ⟨q, hq⟩ := skipSpace_blank hclose (c := '\x7d') (by decide) rest p
  refine ⟨q + 1, ?_⟩
  rw [afterEntry, hq]
  rfl

include hblank in
theorem afterEntry_comma (rest : List Char) (p : Nat) :
    ∃ q, afterEntry (',' :: (blank ++ '\x22' :: rest)) p = .more p q rest := by
  obtain ⟨q, hq⟩ := skipSpace_blank hblank (c := '\x22') (by decide) rest (p + 1)
  refine ⟨q + 1, ?_⟩
  rw [afterEntry, skipSpace, if_neg (by decide)]
  dsimp only
  rw [if_neg (by decide), if_pos rfl, hq]
  rfl

theorem Prints.commaSeparated_head {fuel : Nat} {cs : List Char} {f : Form}
    (h : Prints fuel cs f) (blank : List Char) (rest : List (List Char)) :
    ∃ c cs', commaSeparated blank (cs :: rest) = c :: cs' ∧ isSpace c = false ∧ c ≠ ']' := by
  obtain ⟨c, cs', rfl, hspace, hbracket⟩ := h.head
  cases rest with
  | nil => exact ⟨c, cs', rfl, hspace, hbracket⟩
  | cons => exact ⟨c, _, rfl, hspace, hbracket⟩

include hblank hclose in
theorem items_commaSeparated {fuel : Nat} {cs : List Char} {texts : List (List Char)} {f : Form}
    {forms : List Form} (hhead : Prints fuel cs f) (h : List.Forall₂ (Prints fuel) texts forms)
    (more : Nat) (rest : List Char) (p : Nat) :
    ∃ chain q, items (fuel + texts.length + 1 + more)
        (commaSeparated blank (cs :: texts) ++ (close ++ ']' :: rest)) p =
      (chain, some (rest, q)) ∧ chain.forms? = some (f :: forms) := by
  induction h generalizing cs f p with
  | nil =>
    obtain ⟨t, q, hvalue, hform⟩ := hhead more (close ++ ']' :: rest) p
    obtain ⟨q', hafter⟩ := afterItem_close hclose rest q
    refine ⟨.item p t q' (.close q'), q', ?_, ?_⟩
    · rw [Nat.add_right_comm, items, commaSeparated, List.length_nil, Nat.add_zero, hvalue]
      dsimp only
      rw [hafter]
    · rw [Items.forms?, hform]
      rfl
  | @cons next _ texts _ hnext _ ih =>
    obtain ⟨c, cs', hc, hspace, hbracket⟩ := hnext.commaSeparated_head blank texts
    obtain ⟨t, q, hvalue, hform⟩ := hhead (texts.length + 1 + more)
      (',' :: (blank ++ c :: (cs' ++ (close ++ ']' :: rest)))) p
    obtain ⟨q', hafter⟩ :=
      afterItem_comma hblank hspace hbracket (cs' ++ (close ++ ']' :: rest)) q
    obtain ⟨chain, stop, hitems, hforms⟩ := ih hnext q'
    have htext : commaSeparated blank (cs :: next :: texts) ++ (close ++ ']' :: rest) =
        cs ++ ',' :: (blank ++ c :: (cs' ++ (close ++ ']' :: rest))) := by
      rw [commaSeparated_cons, hc]
      simp only [List.append_assoc, List.cons_append]
    have hfuel : fuel + (texts.length + 1) + 1 + more =
        fuel + (texts.length + 1 + more) + 1 := by omega
    refine ⟨.item p t q' chain, stop, ?_, ?_⟩
    · rw [htext, List.length_cons, hfuel, items, hvalue]
      dsimp only
      rw [hafter]
      dsimp only
      rw [← List.cons_append, ← hc, ← Nat.add_assoc, ← Nat.add_assoc, hitems]
    · rw [Items.forms?, hform, hforms]
      rfl

include hblank hclose in
theorem prints_list {fuel : Nat} {cs : List Char} {texts : List (List Char)} {f : Form}
    {forms : List Form} (hhead : Prints fuel cs f) (h : List.Forall₂ (Prints fuel) texts forms) :
    Prints (fuel + texts.length + 2)
      ('[' :: (blank ++ (commaSeparated blank (cs :: texts) ++ (close ++ [']']))))
      (.list (f :: forms)) := by
  intro more rest p
  obtain ⟨c, cs', hc, hspace, hbracket⟩ := hhead.commaSeparated_head blank texts
  obtain ⟨q, hskip⟩ := skipSpace_blank hblank hspace (cs' ++ (close ++ ']' :: rest)) (p + 1)
  obtain ⟨chain, stop, hitems, hforms⟩ :=
    items_commaSeparated hblank hclose hhead h more rest q
  have htext : '[' :: (blank ++ (commaSeparated blank (cs :: texts) ++ (close ++ [']']))) ++ rest =
      '[' :: (blank ++ c :: (cs' ++ (close ++ ']' :: rest))) := by
    rw [hc]
    simp only [List.append_assoc, List.cons_append, List.nil_append]
  refine ⟨.list p chain, stop, ?_, ?_⟩
  · have hfuel : fuel + texts.length + 2 + more = fuel + texts.length + 1 + more + 1 := by omega
    rw [htext, hfuel, value]
    simp only [Char.reduceEq, if_false, Char.reduceIsDigit, Bool.false_eq_true, if_true, hskip]
    split
    · cases ‹(_, _) = (_, _)›
    · rename_i heq
      exact absurd (List.cons.inj (Prod.mk.inj heq).1).1 hbracket
    · rename_i heq
      obtain ⟨rfl, rfl⟩ := Prod.mk.inj heq
      rw [← List.cons_append, ← hc, hitems]
  · rw [Tree.form?, hforms]
    rfl

/-- Entries with commas between them, after the quote that opens the first key. -/
def entryChars (blank gap : List Char) :
    String × List Char → List (String × List Char) → List Char
  | (key, cs), [] => key.toList.flatMap Value.escapeChar ++ '\x22' :: ':' :: (gap ++ cs)
  | (key, cs), e :: es =>
    key.toList.flatMap Value.escapeChar ++
      '\x22' :: ':' :: (gap ++ (cs ++ ',' :: (blank ++ '\x22' :: entryChars blank gap e es)))

def PrintsEntry (fuel : Nat) (e : String × List Char) (f : Option String × Form) : Prop :=
  some e.1 = f.1 ∧ Prints fuel e.2 f.2

theorem PrintsEntry.of_prints {fuel : Nat} {cs : List Char} {f : Form} (key : String)
    (h : Prints fuel cs f) : PrintsEntry fuel (key, cs) (some key, f) :=
  ⟨rfl, h⟩

variable {gap : List Char} (hgap : ∀ c ∈ gap, isSpace c = true)

include hgap in
/-- What becomes of an entry is up to what follows its value. -/
theorem entries_entry {fuel : Nat} {e : String × List Char} {f : Option String × Form}
    (h : PrintsEntry fuel e f) (more : Nat) (rest : List Char) (p : Nat) :
    ∃ afterKey t q, t.form? = some f.2 ∧
      entries (fuel + more + 1)
          (e.1.toList.flatMap Value.escapeChar ++ '\x22' :: ':' :: (gap ++ (e.2 ++ rest))) p =
        match afterEntry rest q with
        | .close stop cs => (.entry (.ok e.1) afterKey t stop (.close stop), some (cs, stop))
        | .broken place b => (.entry (.ok e.1) afterKey t place (.broken b), none)
        | .more comma next cs =>
          match entries (fuel + more) cs next with
          | (chain, left) => (.entry (.ok e.1) afterKey t comma chain, left) := by
  obtain ⟨key, cs⟩ := e
  obtain ⟨c, cs', rfl, hspace, -⟩ := h.2.head
  obtain ⟨q, hkey⟩ := Quoted.scan_escaped key (':' :: (gap ++ (c :: cs' ++ rest))) p
  obtain ⟨q', hskip⟩ := skipSpace_blank hgap hspace (cs' ++ rest) (q + 1)
  obtain ⟨t, q'', hvalue, hform⟩ := h.2 more rest q'
  refine ⟨placeAfterKey (':' :: (gap ++ (c :: cs' ++ rest))) q, t, q'', hform, ?_⟩
  rw [entries]
  dsimp only at hvalue ⊢
  rw [hkey]
  dsimp only
  rw [skipSpace, if_neg (by decide)]
  rw [List.cons_append] at hvalue ⊢
  cases hafter : afterEntry rest q'' <;> simp only [hskip, hvalue, hafter]

include hblank hclose hgap in
theorem entries_entryChars {fuel : Nat} {e : String × List Char} {es : List (String × List Char)}
    {f : Option String × Form} {forms : List (Option String × Form)} (hhead : PrintsEntry fuel e f)
    (h : List.Forall₂ (PrintsEntry fuel) es forms) (more : Nat) (rest : List Char) (p : Nat) :
    ∃ chain q, entries (fuel + es.length + 1 + more)
        (entryChars blank gap e es ++ (close ++ '\x7d' :: rest)) p = (chain, some (rest, q)) ∧
      chain.forms? = some (f :: forms) := by
  induction h generalizing e f p with
  | nil =>
    obtain ⟨afterKey, t, q, hform, hentries⟩ :=
      entries_entry hgap hhead more (close ++ '\x7d' :: rest) p
    obtain ⟨q', hafter⟩ := afterEntry_close hclose rest q
    have htext : entryChars blank gap e [] ++ (close ++ '\x7d' :: rest) =
        e.1.toList.flatMap Value.escapeChar ++
          '\x22' :: ':' :: (gap ++ (e.2 ++ (close ++ '\x7d' :: rest))) := by
      simp only [entryChars, List.append_assoc, List.cons_append]
    refine ⟨.entry (.ok e.1) afterKey t q' (.close q'), q', ?_, ?_⟩
    · rw [List.length_nil, Nat.add_zero, Nat.add_right_comm, htext, hentries, hafter]
    · rw [Entries.forms?, hform]
      exact congrArg (fun k => some [(k, f.2)]) hhead.1
  | @cons next _ es _ hnext _ ih =>
    obtain ⟨afterKey, t, q, hform, hentries⟩ :=
      entries_entry hgap hhead (es.length + 1 + more)
        (',' :: (blank ++ '\x22' :: (entryChars blank gap next es ++ (close ++ '\x7d' :: rest)))) p
    obtain ⟨q', hafter⟩ :=
      afterEntry_comma hblank (entryChars blank gap next es ++ (close ++ '\x7d' :: rest)) q
    obtain ⟨chain, stop, hrest, hforms⟩ := ih hnext q'
    have htext : entryChars blank gap e (next :: es) ++ (close ++ '\x7d' :: rest) =
        e.1.toList.flatMap Value.escapeChar ++ '\x22' :: ':' :: (gap ++ (e.2 ++
          ',' :: (blank ++ '\x22' ::
            (entryChars blank gap next es ++ (close ++ '\x7d' :: rest))))) := by
      simp only [entryChars, List.append_assoc, List.cons_append]
    have hfuel : fuel + (es.length + 1) + 1 + more = fuel + (es.length + 1 + more) + 1 := by omega
    refine ⟨.entry (.ok e.1) afterKey t q chain, stop, ?_, ?_⟩
    · rw [List.length_cons, htext, hfuel, hentries, hafter]
      dsimp only
      rw [← Nat.add_assoc, ← Nat.add_assoc, hrest]
    · rw [Entries.forms?, hform, hforms]
      exact congrArg (fun k => some ((k, f.2) :: _)) hhead.1

include hblank hclose hgap in
theorem prints_object {fuel : Nat} {e : String × List Char} {es : List (String × List Char)}
    {f : Option String × Form} {forms : List (Option String × Form)} (hhead : PrintsEntry fuel e f)
    (h : List.Forall₂ (PrintsEntry fuel) es forms) :
    Prints (fuel + es.length + 2)
      ('\x7b' :: (blank ++ '\x22' :: (entryChars blank gap e es ++ (close ++ ['\x7d']))))
      (.object (f :: forms)) := by
  intro more rest p
  obtain ⟨q, hskip⟩ := skipSpace_blank hblank (c := '\x22') (by decide)
    (entryChars blank gap e es ++ (close ++ '\x7d' :: rest)) (p + 1)
  obtain ⟨chain, stop, hentries, hforms⟩ :=
    entries_entryChars hblank hclose hgap hhead h more rest (q + 1)
  have htext :
      '\x7b' :: (blank ++ '\x22' :: (entryChars blank gap e es ++ (close ++ ['\x7d']))) ++ rest =
      '\x7b' :: (blank ++ '\x22' :: (entryChars blank gap e es ++ (close ++ '\x7d' :: rest))) := by
    simp only [List.append_assoc, List.cons_append, List.nil_append]
  have hfuel : fuel + es.length + 2 + more = fuel + es.length + 1 + more + 1 := by omega
  refine ⟨.object p chain, stop, ?_, ?_⟩
  · rw [htext, hfuel, value]
    simp only [Char.reduceEq, if_false, Char.reduceIsDigit, Bool.false_eq_true, if_true, hskip,
      hentries]
  · rw [Tree.form?, hforms]
    rfl

/-- A list has a comma for each element but the first. -/
theorem length_le_commaSeparated (blank cs : List Char) (texts : List (List Char)) :
    texts.length ≤ (commaSeparated blank (cs :: texts)).length := by
  induction texts generalizing cs with
  | nil => exact Nat.zero_le _
  | cons next texts ih =>
    have := ih next
    rw [commaSeparated_cons]
    simp only [List.length_cons, List.length_append]
    omega

end Layout

end Tree

theorem form?_of_prints {fuel : Nat} {cs blank : List Char} {f : Form} (h : Tree.Prints fuel cs f)
    (hblank : ∀ c ∈ blank, Tree.isSpace c = true) (hfuel : fuel ≤ 2 * cs.length + 2) :
    form? (String.ofList (cs ++ blank)) = some f := by
  obtain ⟨c, cs', rfl, hspace, -⟩ := h.head
  have hlength : fuel ≤ 2 * (c :: cs' ++ blank).length + 2 := by
    rw [List.length_append]
    omega
  obtain ⟨t, q, hvalue, hform⟩ := h.mono hlength 0 blank 0
  obtain ⟨q', hskip⟩ := Tree.skipSpace_all hblank q
  have hstart : Tree.skipSpace (c :: cs' ++ blank) 0 = (c :: cs' ++ blank, 0) := by
    rw [List.cons_append, Tree.skipSpace, hspace, if_neg Bool.false_ne_true]
  rw [form?, String.toList_ofList, Tree.ofChars, hstart]
  dsimp only
  rw [Nat.add_zero] at hvalue
  rw [hvalue]
  dsimp only
  rw [hskip]
  exact hform

end SchemaTypes.Json
