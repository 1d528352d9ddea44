import SchemaTypes.Text.Blank
import SchemaTypes.Text.Lowercase
import SchemaTypes.Text.Part

/-!
# The case of the letters of ASCII

A capital letter of ASCII and its small letter are alike in everything that small
letters depend on, also for the characters beside them, so that the case of these
letters does not show in the small letters of a text. Within ASCII nothing else
happens to a text.
-/

set_option autoImplicit false

namespace SchemaTypes.Text

def capitals : List Char := (List.range' 0x41 26).map Char.ofNat

theorem toLower_eq_or_mem (c : Char) : c.toLower = c ∨ c ∈ capitals := by
  by_cases h : c.val ≥ 'A'.val ∧ c.val ≤ 'Z'.val
  · right
    have hlow : 0x41 ≤ c.toNat := h.1
    have hhigh : c.toNat ≤ 0x5A := h.2
    exact List.mem_map.mpr ⟨c.toNat, List.mem_range'_1.mpr (by omega), Char.ofNat_toNat c⟩
  · exact Or.inl (dif_neg h)

/-- What does not tell the capital letters of ASCII from their small letters tells no
character from its small letter. -/
theorem toLower_of_capitals {α : Type} [DecidableEq α] (f : Char → α)
    (h : (capitals.all fun c => decide (f c.toLower = f c)) = true) (c : Char) :
    f c.toLower = f c := by
  rcases toLower_eq_or_mem c with heq | hmem
  · rw [heq]
  · exact of_decide_eq_true (List.all_eq_true.mp h c hmem)

theorem lowerChar_toLower (c : Char) : lowerChar c.toLower = lowerChar c :=
  toLower_of_capitals lowerChar (by decide +kernel) c

theorem isCased_toLower (c : Char) : isCased c.toLower = isCased c :=
  toLower_of_capitals isCased (by decide +kernel) c

theorem isCaseIgnorable_toLower (c : Char) : isCaseIgnorable c.toLower = isCaseIgnorable c :=
  toLower_of_capitals isCaseIgnorable (by decide +kernel) c

theorem isBlank_toLower (c : Char) : isBlank c.toLower = isBlank c :=
  toLower_of_capitals isBlank (by decide +kernel) c

theorem toLower_eq_sigma (c : Char) : c.toLower = '\u03a3' ↔ c = '\u03a3' := by
  have h := toLower_of_capitals (fun c => decide (c = '\u03a3')) (by decide +kernel) c
  simpa using h

theorem meetsCase_map_toLower (cs : List Char) : meetsCase (cs.map Char.toLower) = meetsCase cs := by
  induction cs with
  | nil => rfl
  | cons c cs ih =>
    by_cases hc : isCaseIgnorable c = true
    · have hc' : isCaseIgnorable c.toLower = true := (isCaseIgnorable_toLower c).trans hc
      simpa [meetsCase, hc, hc'] using ih
    · have hc' : ¬isCaseIgnorable c.toLower = true := by rwa [isCaseIgnorable_toLower]
      simp [meetsCase, hc, hc', isCased_toLower]

theorem smallSigma_map_toLower (before after : List Char) :
    smallSigma (before.map Char.toLower) (after.map Char.toLower) = smallSigma before after := by
  rw [smallSigma, meetsCase_map_toLower, meetsCase_map_toLower]
  rfl

theorem lowerAfter_map_toLower (before cs : List Char) :
    lowerAfter (before.map Char.toLower) (cs.map Char.toLower) = lowerAfter before cs := by
  induction cs generalizing before with
  | nil => rfl
  | cons c cs ih =>
    have hrest := ih (c :: before)
    rw [List.map_cons] at hrest
    rw [List.map_cons, lowerAfter, lowerAfter, hrest, smallSigma_map_toLower, lowerChar_toLower]
    simp only [toLower_eq_sigma]

/-- The case of the letters of ASCII does not show in small letters. -/
theorem lowerChars_map_toLower (cs : List Char) :
    lowerChars (cs.map Char.toLower) = lowerChars cs := lowerAfter_map_toLower [] cs

theorem lowerChars_of_asciiLower {s t : String} (h : asciiLower s = asciiLower t) :
    lowerChars s.toList = lowerChars t.toList := by
  have hmap : s.toList.map Char.toLower = t.toList.map Char.toLower := String.ofList_inj.mp h
  rw [← lowerChars_map_toLower, hmap, lowerChars_map_toLower]

theorem allBlank_of_asciiLower {s t : String} (h : asciiLower s = asciiLower t) :
    allBlank s = allBlank t := by
  have hmap : s.toList.map Char.toLower = t.toList.map Char.toLower := String.ofList_inj.mp h
  have hall (cs : List Char) : (cs.map Char.toLower).all isBlank = cs.all isBlank := by
    rw [List.all_map]
    congr 1
    funext c
    exact isBlank_toLower c
  rw [allBlank, ← hall, hmap, hall, allBlank]

/-- A text of characters of ASCII. -/
def IsAscii (s : String) : Prop := ∀ c ∈ s.toList, c.toNat < 0x80

instance (s : String) : Decidable (IsAscii s) :=
  List.decidableBAll (fun c : Char => c.toNat < 0x80) s.toList

theorem lowerAfter_of_ascii {cs : List Char} (h : ∀ c ∈ cs, c.toNat < 0x80)
    (before : List Char) : lowerAfter before cs = cs.map Char.toLower := by
  induction cs generalizing before with
  | nil => rfl
  | cons c cs ih =>
    rw [List.forall_mem_cons] at h
    have hsigma : c ≠ '\u03a3' := by
      rintro rfl
      exact absurd h.1 (by decide)
    rw [lowerAfter, if_neg hsigma, lowerChar, if_pos h.1, ih h.2, List.singleton_append,
      List.map_cons]

/-- Small letters are those of ASCII alone in a text of ASCII. -/
theorem lowerChars_of_isAscii {s : String} (h : IsAscii s) :
    lowerChars s.toList = (asciiLower s).toList := by
  rw [lowerChars, lowerAfter_of_ascii h, asciiLower, String.toList_ofList]

/-- A text occurs after a change of characters exactly where a part is changed to the
same. -/
theorem occursIn_map_iff (f : Char → Char) (part cs : List Char) :
    occursIn (part.map f) (cs.map f) = true ↔ ∃ ds, ds <:+: cs ∧ ds.map f = part.map f := by
  rw [occursIn_iff]
  constructor
  · rintro ⟨before, after, h⟩
    obtain ⟨front, back, hcs, hfront, _⟩ := List.map_eq_append_iff.mp h
    obtain ⟨us, ds, hfront', _, hds⟩ := List.map_eq_append_iff.mp hfront
    exact ⟨ds, ⟨us, back, by rw [hcs, hfront']⟩, hds⟩
  · rintro ⟨ds, ⟨us, back, rfl⟩, hds⟩
    exact ⟨us.map f, back.map f, by rw [List.map_append, List.map_append, hds]⟩

end SchemaTypes.Text
