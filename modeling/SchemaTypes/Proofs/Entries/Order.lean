import Mathlib.Data.List.Lex
import Mathlib.Data.List.Nodup
import SchemaTypes.Entries

/-!
# The order of names

Names are ordered by their code points. Their bytes in UTF-8 have the same order:
of two characters the one with the larger code point has the larger bytes, and
none begins another. Entries whose names differ have one order only.
-/

set_option autoImplicit false

namespace SchemaTypes

namespace Text

def codePoints (s : String) : List Nat := s.toList.map Char.toNat

def bytes (s : String) : List UInt8 := s.toUTF8.data.toList

theorem lt_iff_codePoints {a b : String} : a < b ↔ codePoints a < codePoints b := by
  rw [String.lt_iff, codePoints, codePoints]
  generalize a.toList = cs, b.toList = ds
  induction cs generalizing ds with
  | nil => cases ds <;> simp
  | cons c cs ih =>
    cases ds with
    | nil => simp
    | cons d ds =>
      rw [List.map_cons, List.map_cons, List.cons_lt_cons_iff, List.cons_lt_cons_iff, ih]
      have hlt : c < d ↔ c.toNat < d.toNat := Iff.rfl
      have heq : c = d ↔ c.toNat = d.toNat := Char.toNat_inj.symm
      rw [hlt, heq]

theorem bytes_eq (s : String) : bytes s = s.toList.flatMap String.utf8EncodeChar := by
  conv => lhs; rw [← String.ofList_toList (s := s)]
  exact List.toList_data_toByteArray

/-- What larger numbers are written as comes later, whatever follows. -/
def Increasing (bound : Nat) (written : Nat → List UInt8) : Prop :=
  ∀ m n, m < n → n < bound → ∀ u v, written m ++ u < written n ++ v

theorem ofNat_lt {m n : Nat} (h : m < n) (hn : n < 256) : UInt8.ofNat m < UInt8.ofNat n := by
  rw [UInt8.lt_iff_toNat_lt, UInt8.toNat_ofNat', UInt8.toNat_ofNat']
  omega

theorem increasing_lead {bound lead : Nat} (h : bound + lead ≤ 256) :
    Increasing bound fun n => [UInt8.ofNat (n % bound + lead)] := by
  intro m n hmn hn u v
  refine List.cons_lt_cons_iff.mpr (.inl (ofNat_lt ?_ ?_))
  · rw [Nat.mod_eq_of_lt hn, Nat.mod_eq_of_lt (Nat.lt_trans hmn hn)]
    omega
  · rw [Nat.mod_eq_of_lt hn]
    omega

/-- One more digit to the base 64. -/
theorem Increasing.digit {bound : Nat} {written : Nat → List UInt8} (h : Increasing bound written) :
    Increasing (64 * bound) fun n => written (n / 64) ++ [UInt8.ofNat (n % 64 + 128)] := by
  intro m n hmn hn u v
  rw [List.append_assoc, List.append_assoc]
  by_cases hdiv : m / 64 < n / 64
  · exact h _ _ hdiv (by omega) _ _
  · have heq : m / 64 = n / 64 := by omega
    rw [heq]
    exact List.append_left_lt (List.cons_lt_cons_iff.mpr (.inl (ofNat_lt (by omega) (by omega))))

theorem utf8EncodeChar_lt {c d : Char} (h : c < d) (u v : List UInt8) :
    String.utf8EncodeChar c ++ u < String.utf8EncodeChar d ++ v := by
  have hcd : c.val.toNat < d.val.toNat := h
  have hd : d.val.toNat < 0x110000 := by
    have hvalid := d.valid
    simp only [UInt32.isValidChar, Nat.isValidChar] at hvalid
    omega
  unfold String.utf8EncodeChar
  generalize c.val.toNat = m at *
  generalize d.val.toNat = n at *
  have htwo := (@increasing_lead 32 192 (by decide)).digit m n hcd
  have hthree := (@increasing_lead 16 224 (by decide)).digit.digit m n hcd
  have hfour := (@increasing_lead 8 240 (by decide)).digit.digit.digit m n hcd
  simp only [Nat.div_div_eq_div_mul, List.cons_append, List.nil_append] at *
  split_ifs
  all_goals first
    -- one byte, or a number with more bytes, which begins with a larger one
    | exact List.cons_lt_cons_iff.mpr (.inl (ofNat_lt (by omega) (by omega)))
    | exact htwo (by omega) u v
    | exact hthree (by omega) u v
    | exact hfour (by omega) u v

theorem flatMap_utf8EncodeChar_lt {cs ds : List Char} (h : cs < ds) :
    cs.flatMap String.utf8EncodeChar < ds.flatMap String.utf8EncodeChar := by
  induction h with
  | @nil d ds =>
    have hd := String.utf8EncodeChar_ne_nil (c := d)
    rw [List.flatMap_nil, List.flatMap_cons]
    cases he : String.utf8EncodeChar d with
    | nil => exact absurd he hd
    | cons b bs => exact List.Lex.nil
  | rel h => exact utf8EncodeChar_lt h _ _
  | cons _ ih =>
    rw [List.flatMap_cons, List.flatMap_cons]
    exact List.append_left_lt ih

theorem lt_iff_bytes {a b : String} : a < b ↔ bytes a < bytes b := by
  rw [bytes_eq, bytes_eq, String.lt_iff]
  refine ⟨flatMap_utf8EncodeChar_lt, fun h => ?_⟩
  by_contra hab
  rcases List.le_iff_lt_or_eq.mp (List.not_lt.mp hab) with hlt | heq
  · exact List.lt_asymm h (flatMap_utf8EncodeChar_lt hlt)
  · rw [heq] at h
    exact List.lt_irrefl _ h

end Text

namespace Entries

variable {α : Type} {es fs : List (String × α)}

theorem sorted_perm (es : List (String × α)) : (sorted es).Perm es :=
  List.mergeSort_perm es _

theorem pairwise_sorted (es : List (String × α)) :
    (sorted es).Pairwise fun a b => a.1 ≤ b.1 := by
  have hsorted := @List.pairwise_mergeSort _ (fun a b : String × α => decide (a.1 ≤ b.1))
    (fun a b c hab hbc => decide_eq_true (String.le_trans (of_decide_eq_true hab)
      (of_decide_eq_true hbc)))
    (fun a b => by
      rw [Bool.or_eq_true, decide_eq_true_iff, decide_eq_true_iff]
      exact String.le_total a.1 b.1) es
  exact hsorted.imp of_decide_eq_true

/-- Names that differ are in a strict order. -/
theorem names_sorted_increasing (distinct : (names es).Nodup) :
    (names (sorted es)).Pairwise (· < ·) := by
  have hdistinct : (names (sorted es)).Nodup :=
    ((sorted_perm es).map Prod.fst).nodup_iff.mpr distinct
  have hle : (names (sorted es)).Pairwise (· ≤ ·) := List.pairwise_map.mpr (pairwise_sorted es)
  refine (hle.and hdistinct).imp fun {a b} hab => ?_
  by_contra hlt
  exact hab.2 (String.le_antisymm hab.1 (String.not_lt.mp hlt))

/-- The same entries in another order are sorted alike. -/
theorem sorted_eq_of_perm (h : es.Perm fs) (distinct : (names es).Nodup) :
    sorted es = sorted fs := by
  have hperm : (sorted es).Perm (sorted fs) :=
    ((sorted_perm es).trans h).trans (sorted_perm fs).symm
  refine hperm.eq_of_pairwise ?_ (pairwise_sorted es) (pairwise_sorted fs)
  intro a b ha hb hab hba
  have haes : a ∈ es := (sorted_perm es).mem_iff.mp ha
  have hbes : b ∈ es := h.mem_iff.mpr ((sorted_perm fs).mem_iff.mp hb)
  exact List.inj_on_of_nodup_map distinct haes hbes (String.le_antisymm hab hba)

end Entries

end SchemaTypes
