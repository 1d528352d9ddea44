import SchemaTypes.Text.Lowercase
import SchemaTypes.Text.Part

/-!
# The sigma in small letters

A character has its small letters whatever is around it, but for the capital sigma.
Its form is settled by the nearest characters on both sides that are not passed over.
Where these stand within a text, the text has the same small letters in every other
text that it is a part of; where one is missing, there is a text around it in which
the form is the other one.
-/

set_option autoImplicit false

namespace SchemaTypes.Text

/-- The nearest character that counts when a case is looked for. -/
def nearest? (cs : List Char) : Option Char := cs.find? fun c => !isCaseIgnorable c

/-- Whether the form of a sigma between these characters, the nearest ones first, depends
on what is further away: nothing that counts stands before it and no letter comes next
after it, or a letter comes next before it and nothing that counts stands after it. -/
def IsLoose (before after : List Char) : Prop :=
  (nearest? before = none ∧ meetsCase after = false) ∨
    (meetsCase before = true ∧ nearest? after = none)

/-- A text with a sigma whose form depends on what stands around the text. -/
def HasLooseSigma (part : List Char) : Prop :=
  ∃ xs ys, part = xs ++ '\u03a3' :: ys ∧ IsLoose xs.reverse ys

instance (before after : List Char) : Decidable (IsLoose before after) :=
  inferInstanceAs (Decidable (_ ∨ _))

theorem hasLooseSigma_iff (part : List Char) :
    HasLooseSigma part ↔ ∃ i ∈ List.range part.length,
      part[i]? = some '\u03a3' ∧ IsLoose (part.take i).reverse (part.drop (i + 1)) := by
  constructor
  · rintro ⟨xs, ys, rfl, h⟩
    exact ⟨xs.length, by simp, by simp, by simpa using h⟩
  · rintro ⟨i, _, hi, h⟩
    obtain ⟨hlt, heq⟩ := List.getElem?_eq_some_iff.mp hi
    refine ⟨part.take i, part.drop (i + 1), ?_, h⟩
    rw [← heq, List.getElem_cons_drop, List.take_append_drop]

instance : DecidablePred HasLooseSigma := fun part =>
  decidable_of_iff _ (hasLooseSigma_iff part).symm

end SchemaTypes.Text
