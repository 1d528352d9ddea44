import Mathlib.Data.List.TakeWhile
import SchemaTypes.Proofs.Text.LetterCase
import SchemaTypes.Proofs.Text.Sigma
import SchemaTypes.Search

/-!
# What a search finds

A search selects block by block, and goes by the small letters of the query and of
each name. So the case of the letters of ASCII does not count, and among texts of
ASCII nothing else is passed over. A query is found in every name that it is a part
of if none of its sigmas is loose, and only then: a name around it can give a loose
sigma another small letter.
-/

set_option autoImplicit false

namespace SchemaTypes

open Text (asciiLower allBlank HasLooseSigma IsAscii lowerChars occursIn)

theorem Text.allBlank_iff (s : String) : allBlank s = true ↔ Text.trim s = "" := by
  have htrim : Text.trim s = "" ↔ Text.trimChars s.toList = [] := by
    rw [Text.trim, ← String.toList_inj, String.toList_ofList]
    rfl
  rw [htrim, allBlank, Text.trimChars, List.reverse_eq_nil_iff, List.dropWhile_eq_nil_iff,
    List.all_eq_true]
  constructor
  · intro h c hc
    exact h c ((List.dropWhile_sublist Text.isBlank).mem (List.mem_reverse.mp hc))
  · intro h c hc
    rw [← List.takeWhile_append_dropWhile (p := Text.isBlank) (l := s.toList)] at hc
    rcases List.mem_append.mp hc with hc | hc
    · exact List.mem_takeWhile_imp hc
    · exact h c (List.mem_reverse.mpr hc)

variable {query : String} {blocks : List Block} {b : Block}

theorem mem_search : b ∈ search query blocks ↔
    b ∈ blocks ∧ allBlank query = false ∧ b.matches query = true := by
  unfold search
  split
  · rename_i h
    simp [h]
  · rename_i h
    simp [h]

/-- The places of the blocks that are found. -/
def positions (query : String) (blocks : List Block) : List Nat :=
  (List.range blocks.length).filter fun i =>
    blocks[i]?.any fun b => decide (b ∈ search query blocks)

theorem search_sublist (query : String) (blocks : List Block) :
    (search query blocks).Sublist blocks := by
  unfold search
  split
  · exact List.nil_sublist blocks
  · exact List.filter_sublist

theorem search_eq_filter (query : String) (blocks : List Block) :
    search query blocks = blocks.filter fun b => decide (b ∈ search query blocks) := by
  unfold search
  split
  · simp
  · apply List.filter_congr
    intro b hb
    simp [hb]

theorem range_filter_map {α : Type} (p : α → Bool) (l : List α) :
    ((List.range l.length).filter fun i => l[i]?.any p).map (l[·]?) = (l.filter p).map some := by
  induction l with
  | nil => rfl
  | cons a l ih =>
    have hrest : ((List.range l.length).map Nat.succ).filter (fun i => (a :: l)[i]?.any p) =
        ((List.range l.length).filter fun i => l[i]?.any p).map Nat.succ :=
      List.filter_map
    have hplaces : (((List.range l.length).filter fun i => l[i]?.any p).map Nat.succ).map
        ((a :: l)[·]?) = (l.filter p).map some := by
      rw [← ih, List.map_map]
      rfl
    rw [List.length_cons, List.range_succ_eq_map, List.filter_cons, hrest]
    by_cases hp : p a = true
    · simpa [hp] using hplaces
    · simpa [hp] using hplaces

theorem positions_map (query : String) (blocks : List Block) :
    (positions query blocks).map (blocks[·]?) = (search query blocks).map some := by
  rw [positions, range_filter_map, ← search_eq_filter]

theorem matches_of_asciiLower {query' : String} {b' : Block} (hq : asciiLower query' = asciiLower query)
    (hb : asciiLower b'.name = asciiLower b.name) : b'.matches query' = b.matches query := by
  rw [Block.matches, Text.lowerChars_of_asciiLower hq, Text.lowerChars_of_asciiLower hb, Block.matches]

theorem positions_of_asciiLower {query' : String} {blocks' : List Block}
    (hq : asciiLower query' = asciiLower query)
    (hb : blocks'.map (fun b => asciiLower b.name) = blocks.map fun b => asciiLower b.name) :
    positions query' blocks' = positions query blocks := by
  have hlength : blocks'.length = blocks.length := by simpa using congrArg List.length hb
  rw [positions, positions, hlength]
  apply List.filter_congr
  intro i hi
  have hlt : i < blocks.length := List.mem_range.mp hi
  have hlt' : i < blocks'.length := by omega
  have hname : asciiLower blocks'[i].name = asciiLower blocks[i].name := by
    have hget := congrArg (·[i]?) hb
    simpa [hlt, hlt'] using hget
  have hfound : blocks'[i] ∈ search query' blocks' ↔ blocks[i] ∈ search query blocks := by
    rw [mem_search, mem_search, Text.allBlank_of_asciiLower hq, matches_of_asciiLower hq hname]
    simp
  rw [List.getElem?_eq_getElem hlt, List.getElem?_eq_getElem hlt', Option.any_some,
    Option.any_some, decide_eq_decide]
  exact hfound

theorem mem_search_iff_of_isAscii (hq : Text.trim query ≠ "") (ascii : IsAscii query)
    (hb : b ∈ blocks) (hn : IsAscii b.name) : b ∈ search query blocks ↔
      ∃ part, part <:+: b.name.toList ∧ asciiLower (String.ofList part) = asciiLower query := by
  have hblank : allBlank query = false := by rwa [← Bool.not_eq_true, Text.allBlank_iff]
  have hsame (part : List Char) : asciiLower (String.ofList part) = asciiLower query ↔
      part.map Char.toLower = query.toList.map Char.toLower := by
    rw [asciiLower, asciiLower, String.ofList_inj, String.toList_ofList]
  simp only [hsame]
  rw [← Text.occursIn_map_iff, mem_search, Block.matches, Text.lowerChars_of_isAscii ascii,
    Text.lowerChars_of_isAscii hn, asciiLower, asciiLower, String.toList_ofList,
    String.toList_ofList]
  simp [hb, hblank]

/-- The case of the letters of ASCII, in the query and in the names, does not change the
places of the blocks that are found, which stay in their order. In ASCII a block is
found exactly if a part of its name is the query up to the case. -/
theorem search_ignores_case (query : String) (blocks : List Block) :
    (∀ (query' : String) (blocks' : List Block), asciiLower query' = asciiLower query →
        (blocks'.map fun b => asciiLower b.name) = (blocks.map fun b => asciiLower b.name) →
        positions query' blocks' = positions query blocks) ∧
      (positions query blocks).map (blocks[·]?) = (search query blocks).map some ∧
      (search query blocks).Sublist blocks ∧
      (Text.trim query ≠ "" → IsAscii query → ∀ b ∈ blocks, IsAscii b.name →
        (b ∈ search query blocks ↔
          ∃ part, part <:+: b.name.toList ∧ asciiLower (String.ofList part) = asciiLower query)) := by
  refine ⟨?_, positions_map query blocks, search_sublist query blocks, ?_⟩
  · intro query' blocks' hq hb
    exact positions_of_asciiLower hq hb
  · intro hq ascii b hb hn
    exact mem_search_iff_of_isAscii hq ascii hb hn

/-- Letters beside a sigma in one name, none of the letters of the query in another. -/
theorem search_ignores_case_users :
    let blocks : List Block := [⟨"ΟΔΟΣUser", ""⟩, ⟨"Tag", ""⟩, ⟨"PageUSER", ""⟩]
    let blocks' : List Block := [⟨"ΟΔΟΣuSER", ""⟩, ⟨"tAG", ""⟩, ⟨"pAGEuser", ""⟩]
    asciiLower "USER" = asciiLower "useR" ∧
      (blocks'.map fun b => asciiLower b.name) = (blocks.map fun b => asciiLower b.name) ∧
      positions "USER" blocks' = positions "useR" blocks ∧ positions "useR" blocks = [0, 2] ∧
      Text.trim "useR" ≠ "" ∧ IsAscii "useR" ∧ (⟨"PageUSER", ""⟩ : Block) ∈ blocks ∧
      IsAscii "PageUSER" ∧ ((⟨"PageUSER", ""⟩ : Block) ∈ search "useR" blocks ↔
        ∃ part, part <:+: "PageUSER".toList ∧
          asciiLower (String.ofList part) = asciiLower "useR") := by
  intro blocks blocks'
  have hquery : asciiLower "USER" = asciiLower "useR" := by decide
  have hnames : (blocks'.map fun b => asciiLower b.name) =
      blocks.map fun b => asciiLower b.name := by decide
  have hplaces : positions "useR" blocks = [0, 2] := by decide +kernel
  have htrim : Text.trim "useR" ≠ "" := by decide
  have hascii : IsAscii "useR" := by decide
  have hmem : (⟨"PageUSER", ""⟩ : Block) ∈ blocks := by decide
  have hname : IsAscii "PageUSER" := by decide
  have h := search_ignores_case "useR" blocks
  exact ⟨hquery, hnames, h.1 "USER" blocks' hquery hnames, hplaces, htrim, hascii, hmem, hname,
    h.2.2.2 htrim hascii _ hmem hname⟩

end SchemaTypes
