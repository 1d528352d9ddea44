import Mathlib.Data.List.Infix
import SchemaTypes.Files.Tree

/-!
# Paths of parents

The path of the directory around the last segment is an initial part of a path, as a
text and in its names. So it leads from the same place along the same names, only
less far.
-/

set_option autoImplicit false

namespace SchemaTypes

namespace Path

theorem pieces_ne_nil (cs : List Char) : pieces cs ≠ [] := by
  cases cs with
  | nil => exact List.cons_ne_nil _ _
  | cons c cs =>
    rw [pieces]
    split
    · exact List.cons_ne_nil _ _
    · split <;> exact List.cons_ne_nil _ _

theorem pieces_cons_slash (cs : List Char) : pieces ('/' :: cs) = [] :: pieces cs := by
  rw [pieces]
  cases hp : pieces cs with
  | nil => exact absurd hp (pieces_ne_nil cs)
  | cons p ps => exact if_pos rfl

/-- A slash ends one piece and begins another. -/
theorem pieces_append (cs ds : List Char) : pieces (cs ++ '/' :: ds) = pieces cs ++ pieces ds := by
  induction cs with
  | nil => exact pieces_cons_slash ds
  | cons c cs ih =>
    rw [List.cons_append, pieces, pieces, ih]
    cases hp : pieces cs with
    | nil => exact absurd hp (pieces_ne_nil cs)
    | cons p ps =>
      dsimp only [List.cons_append]
      split <;> rfl

/-- The pieces that are names. -/
def parts (cs : List Char) : List (List Char) := (pieces cs).filter (· ≠ [])

theorem parts_append (cs ds : List Char) : parts (cs ++ '/' :: ds) = parts cs ++ parts ds := by
  rw [parts, pieces_append, List.filter_append]
  rfl

theorem parts_slash (cs : List Char) : parts (cs ++ ['/']) = parts cs := by
  rw [parts_append]
  exact List.append_nil _

/-- Of two reversed paths, the first is that of a directory around the second. -/
def Around (cs ds : List Char) : Prop :=
  cs <:+ ds ∧ parts cs.reverse <+: parts ds.reverse

theorem Around.refl (cs : List Char) : Around cs cs := ⟨List.suffix_rfl, List.prefix_rfl⟩

theorem Around.trans {cs ds es : List Char} (h : Around cs ds) (h' : Around ds es) : Around cs es :=
  ⟨h.1.trans h'.1, h.2.trans h'.2⟩

theorem around_append (cs ds : List Char) : Around ('/' :: ds) (cs ++ '/' :: ds) := by
  refine ⟨List.suffix_append _ _, ?_⟩
  rw [List.reverse_append, List.reverse_cons, parts_slash, List.append_assoc, List.singleton_append,
    parts_append]
  exact List.prefix_append _ _

theorem around_slash (cs : List Char) : Around cs ('/' :: cs) := by
  refine ⟨List.suffix_cons _ _, ?_⟩
  rw [List.reverse_cons, parts_slash]

theorem around_withoutTail (cs : List Char) : Around (withoutTail cs) cs := by
  fun_induction withoutTail cs with
  | case1 c cs ih => exact ih.trans (around_slash (c :: cs))
  | case2 cs ih => exact ih.trans (around_append ['.'] cs)
  | case3 cs => exact .refl cs

theorem around_dropWhile {cs : List Char} (h : cs.dropWhile (· ≠ '/') ≠ []) :
    Around (cs.dropWhile (· ≠ '/')) cs := by
  have hslash := List.head?_dropWhile_not (fun c => decide (c ≠ '/')) cs
  obtain ⟨c, rest, hrest⟩ := List.exists_cons_of_ne_nil h
  rw [hrest] at hslash
  obtain rfl : c = '/' := of_not_not (of_decide_eq_false hslash)
  have happend := around_append (cs.takeWhile (· ≠ '/')) rest
  rw [← hrest, List.takeWhile_append_dropWhile] at happend
  exact happend

theorem around_parent {path parent : String} (h : parent? path = some parent) (hne : parent ≠ "") :
    Around parent.toList.reverse path.toList.reverse := by
  unfold parent? at h
  split at h
  · cases h
  · cases h
  · split at h
    · cases h
      exact absurd rfl hne
    · cases h
      rename_i hrest
      rw [String.toList_ofList, List.reverse_reverse]
      exact (around_withoutTail _).trans ((around_dropWhile hrest).trans (around_withoutTail _))

end Path

namespace Files.Tree

variable {path parent : String}

theorem names_parent (h : Path.parent? path = some parent) (hne : parent ≠ "") :
    names parent <+: names path := by
  have hparts := (Path.around_parent h hne).2
  rw [List.reverse_reverse, List.reverse_reverse] at hparts
  exact hparts.map String.ofList

theorem start_parent (h : Path.parent? path = some parent) (hne : parent ≠ "")
    (directory : List String) : start directory parent = start directory path := by
  have hprefix := List.reverse_suffix.mp (Path.around_parent h hne).1
  obtain ⟨rest, hrest⟩ := hprefix
  have hne' : parent.toList ≠ [] := fun hnil => hne (String.toList_eq_nil_iff.mp hnil)
  rw [start, start, ← hrest, List.head?_append_of_ne_nil _ hne']

end Files.Tree

end SchemaTypes
