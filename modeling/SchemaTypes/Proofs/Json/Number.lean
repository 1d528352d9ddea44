import SchemaTypes.Json.Reading
import SchemaTypes.Proofs.Decimal.Magnitude

/-!
# Numbers that are read are finite

A number of a text that is too large is a failure, so every number in a value that
is read is finite. Its digits fit 64 bits, so a power of ten that divides them
cannot make them too large, and one that multiplies them is looked at afterwards.
-/

set_option autoImplicit false

namespace SchemaTypes

def Number.isFinite : Number → Bool
  | .int _ => true
  | .float x => x.isFinite

mutual

/-- Whether every number in the value is finite. -/
def Value.isFinite : Value → Bool
  | .number n => n.isFinite
  | .list items => Value.areFinite items
  | .object entries => Value.haveFinite entries
  | _ => true

def Value.areFinite : List Value → Bool
  | [] => true
  | v :: vs => v.isFinite && Value.areFinite vs

def Value.haveFinite : List (Key × Value) → Bool
  | [] => true
  | (_, v) :: es => v.isFinite && Value.haveFinite es

end

namespace Json

open Float.Model (totalExponent UnpackedFloat)
open Float.Model.Format (binary64)
open Float.Model.UnpackedFloat
open Decimal

namespace Numeral

theorem log2_tenPow_mono {m n : Nat} (h : m ≤ n) : (10 ^ m).log2 ≤ (10 ^ n).log2 :=
  log2_mono (Nat.pow_le_pow_right (by decide) h)

theorem log2_tenPow_lt {n : Nat} (hn : n ≤ 307) : (10 ^ n).log2 < 1020 :=
  (log2_tenPow_mono hn).trans_lt (by decide +kernel)

/-- Powers of ten that are not in the table are rounded once. -/
theorem toModel_powerOfTen {n : Nat} (h0 : 22 < n) (hn : n ≤ 307) :
    (powerOfTen n).toModel.unpack = (Float.Model.pack
      (roundWithAccuracy binary64 .positive (2 ^ 53 * 10 ^ n) (-53) .exact)).unpack := by
  have hmodel : (powerOfTen n).toModel = Float.Model.ofScientific 1 n := by
    show (Float.ofScientific 1 false n).toModel = _
    rw [Float.ofScientific, dif_neg (by omega)]
    rfl
  have hbits : (2 : Int) ^ binary64.exponentBits = 2048 := rfl
  rw [hmodel, Float.Model.ofScientific, UnpackedFloat.ofScientific, dif_neg Nat.one_ne_zero,
    if_neg (by omega), if_neg (by omega), if_pos (by omega)]
  rfl

theorem atLeastOne_of_table : ∀ n ≤ 22, atLeastOne (powerOfTen n) := by decide +kernel

theorem atLeastOne_of_largest : atLeastOne (powerOfTen 308) := by decide +kernel

theorem atLeastOne_powerOfTen {n : Nat} (hn : n ≤ 308) : atLeastOne (powerOfTen n) := by
  by_cases hsmall : n ≤ 22
  · exact atLeastOne_of_table n hsmall
  by_cases hlarge : n = 308
  · rw [hlarge]
    exact atLeastOne_of_largest
  have hlog := @log2_tenPow_lt n (by omega)
  have hdigits : (2 ^ 53 * 10 ^ n).log2 = (10 ^ n).log2 + 53 := by
    rw [Nat.mul_comm, ← Nat.shiftLeft_eq]
    exact log2_shiftLeft (Nat.pow_pos (by decide)).ne' 53
  obtain ⟨m, e, hm, hround, hm52, htotal⟩ :=
    @roundWithAccuracy_normal (2 ^ 53 * 10 ^ n) (-53) .positive .exact (by omega)
      (by rw [totalExponent]; omega)
  rw [totalExponent, hdigits] at htotal
  obtain ⟨s, m', hm', hunpack, hm'52⟩ :=
    @unpack_pack_normal m e .positive hm hm52 (by omega) (by omega)
  have hpower : (powerOfTen n).toModel.unpack = .finite s m' e hm' := by
    rw [toModel_powerOfTen (by omega) (by omega), hround]
    exact hunpack
  rw [atLeastOne, hpower]
  refine decide_eq_true ?_
  rw [totalExponent]
  omega

/-- Each step divides, so it may double the number, but there are few steps. -/
theorem isFinite_scale {n : Int} (h0 : 0 ≤ n) {steps : Nat} (hn : n + steps ≤ 972) {x y : Float}
    {e : Int} (hx : Below n x.toModel.unpack) (h : scale x steps e = some y) : y.isFinite := by
  induction steps generalizing n x e with
  | zero =>
    cases h
    exact hx.isFinite
  | succ steps ih =>
    rw [scale] at h
    split at h
    · have hpower := atLeastOne_powerOfTen ‹_›
      split at h
      · dsimp only at h
        split at h
        · cases h
        · cases h
          exact isFinite_mul hx.isFinite (isFinite_of_atLeastOne hpower) ‹_›
      · cases h
        exact (below_div h0 (by omega) hx hpower).isFinite
    · split at h
      · cases h
        exact hx.isFinite
      · split at h
        · cases h
        · have hdiv : Below (n + 1) (x / powerOfTen 308).toModel.unpack :=
            below_div h0 (by omega) hx atLeastOne_of_largest
          exact ih (by omega) (by omega) hdiv h

theorem isFinite_zero : (0.0 : Float).isFinite := by decide +kernel

theorem isFinite_signed (negative : Bool) {x : Float} (hx : x.isFinite) :
    (signed negative x).isFinite := by
  cases negative with
  | false => exact hx
  | true => exact isFinite_neg hx

theorem isFinite_binary {negative : Bool} {significand : Nat} {e : Int} {n : Number}
    (h : binary negative significand e = some n) : n.isFinite := by
  obtain ⟨x, hx, rfl⟩ := Option.map_eq_some_iff.mp h
  exact isFinite_signed negative (isFinite_scale (by decide) (by decide) (below_ofUInt64 _) hx)

theorem isFinite_exact (negative : Bool) (n : Nat) : (exact negative n).isFinite := by
  unfold exact
  split
  · split
    · rfl
    · exact isFinite_signed true (below_ofUInt64 _).isFinite
  · rfl

/-- A number that is not too large is finite. -/
theorem isFinite_value {negative : Bool} {whole : List Char} {fraction : Option (List Char)}
    {exponent : Option Exponent} {stop : Nat} {n : Number}
    (h : value negative whole fraction exponent stop = .ok n) : n.isFinite := by
  unfold value at h
  dsimp only at h
  split at h
  · split at h
    · cases h
      exact isFinite_exact _ _
    · split at h
      · cases h
        exact isFinite_binary ‹_›
      · cases h
  · split at h
    · split at h
      · cases h
      · cases h
        exact isFinite_signed _ isFinite_zero
    · split at h
      · cases h
        exact isFinite_binary ‹_›
      · cases h

/-- Whether a token, if it has a value, has a finite one. -/
def IsFinite (t : Token Number) : Prop := ∀ n, t.careful = .ok n → n.isFinite

theorem isFinite_broken (careful careless : Cause) (p : Nat) :
    IsFinite (.broken careful careless p) := nofun

theorem isFinite_token {negative : Bool} {whole : List Char} {fraction : Option (List Char)}
    {exponent : Option Exponent} {stop : Nat} (careless : Except Failure (List Char × Nat)) :
    IsFinite ⟨value negative whole fraction exponent stop, careless⟩ := by
  intro n h
  change value negative whole fraction exponent stop = .ok n at h
  exact isFinite_value h

theorem isFinite_afterFraction (negative : Bool) (whole : List Char)
    (fraction : Option (List Char)) (cs : List Char) (p : Nat) :
    IsFinite (afterFraction negative whole fraction cs p) := by
  unfold afterFraction
  dsimp only
  split
  · exact isFinite_token _
  · split
    · split
      · exact isFinite_broken _ _ _
      · split
        · exact isFinite_token _
        · exact isFinite_broken _ _ _
    · exact isFinite_token _

theorem isFinite_afterWhole (negative : Bool) (whole cs : List Char) (p : Nat) :
    IsFinite (afterWhole negative whole cs p) := by
  unfold afterWhole
  split
  · dsimp only
    split
    · exact isFinite_broken _ _ _
    · exact isFinite_afterFraction _ _ _ _ _
  · exact isFinite_afterFraction _ _ _ _ _

theorem isFinite_scan (negative : Bool) (cs : List Char) (p : Nat) :
    IsFinite (scan negative cs p) := by
  unfold scan
  split
  · exact isFinite_broken _ _ _
  · split
    · split
      · exact isFinite_broken _ _ _
      · exact isFinite_afterWhole _ _ _ _
    · exact isFinite_afterWhole _ _ _ _
  · split
    · exact isFinite_afterWhole _ _ _ _
    · exact isFinite_broken _ _ _

end Numeral

mutual

/-- Whether every number in the tree that has a value is finite. -/
def Tree.IsFinite : Tree → Prop
  | .number n _ => ∀ x, n = .ok x → x.isFinite
  | .list _ chain => chain.AreFinite
  | .object _ chain => chain.AreFinite
  | _ => True

def Items.AreFinite : Items → Prop
  | .item _ t _ rest => t.IsFinite ∧ rest.AreFinite
  | _ => True

def Entries.AreFinite : Entries → Prop
  | .entry _ _ t _ rest => t.IsFinite ∧ rest.AreFinite
  | _ => True

end

namespace Tree

theorem isFinite_word {t : Nat → Tree} (ht : ∀ p, (t p).IsFinite) (es cs : List Char) (p : Nat) :
    (word t es cs p).1.IsFinite := by
  induction es generalizing cs p with
  | nil => exact ht p
  | cons e es ih =>
    cases cs with
    | nil => exact trivial
    | cons c cs =>
      rw [word]
      split
      · exact ih cs (p + 1)
      · exact trivial

theorem isFinite_leaf_number {token : Token Number} (h : Numeral.IsFinite token) :
    (leaf .number token).1.IsFinite := by
  unfold leaf
  split
  · exact h
  · split <;> exact trivial

theorem isFinite_leaf_string (token : Token String) : (leaf .string token).1.IsFinite := by
  unfold leaf
  split
  · exact trivial
  · split <;> exact trivial

mutual

theorem isFinite_value (fuel : Nat) (cs : List Char) (p : Nat) :
    (value fuel cs p).1.IsFinite := by
  match fuel, cs with
  | 0, _ => exact trivial
  | _ + 1, [] => exact trivial
  | fuel + 1, c :: rest =>
    rw [value]
    dsimp only
    split
    · exact @isFinite_word .null (fun _ => True.intro) _ _ _
    split
    · exact @isFinite_word (.bool true) (fun _ => True.intro) _ _ _
    split
    · exact @isFinite_word (.bool false) (fun _ => True.intro) _ _ _
    split
    · exact isFinite_leaf_number (Numeral.isFinite_scan _ _ _)
    split
    · exact isFinite_leaf_number (Numeral.isFinite_scan _ _ _)
    split
    · exact isFinite_leaf_string _
    split
    · split
      · exact trivial
      · exact trivial
      · exact areFinite_items fuel _ _
    split
    · split
      · exact trivial
      · exact trivial
      · exact areFinite_entries fuel _ _
      · exact trivial
    · exact trivial

theorem areFinite_items (fuel : Nat) (cs : List Char) (p : Nat) :
    (items fuel cs p).1.AreFinite := by
  match fuel with
  | 0 => exact trivial
  | fuel + 1 =>
    have ht := isFinite_value fuel cs p
    rw [items]
    split
    · rename_i t hvalue
      rw [hvalue] at ht
      exact ⟨ht, trivial⟩
    · rename_i t cs' q hvalue
      rw [hvalue] at ht
      split
      · exact ⟨ht, trivial⟩
      · exact ⟨ht, trivial⟩
      · exact ⟨ht, areFinite_items fuel _ _⟩

theorem areFinite_entries (fuel : Nat) (cs : List Char) (p : Nat) :
    (entries fuel cs p).1.AreFinite := by
  match fuel with
  | 0 => exact trivial
  | fuel + 1 =>
    rw [entries]
    dsimp only
    split
    · split <;> exact trivial
    · split
      · exact ⟨trivial, trivial⟩
      · rename_i cs' q' hcolon
        split
        · rename_i t hvalue
          have ht := isFinite_value fuel (skipSpace cs' (q' + 1)).1 (skipSpace cs' (q' + 1)).2
          rw [hvalue] at ht
          exact ⟨ht, trivial⟩
        · rename_i t _ _ hvalue
          have ht := isFinite_value fuel (skipSpace cs' (q' + 1)).1 (skipSpace cs' (q' + 1)).2
          rw [hvalue] at ht
          split
          · exact ⟨ht, trivial⟩
          · exact ⟨ht, trivial⟩
          · exact ⟨ht, areFinite_entries fuel _ _⟩
      · exact ⟨trivial, trivial⟩

end

theorem isFinite_ofChars (cs : List Char) : (ofChars cs).1.IsFinite := by
  unfold ofChars
  dsimp only
  have ht := isFinite_value (2 * cs.length + 2) (skipSpace cs 0).1 (skipSpace cs 0).2
  split
  · rename_i t hvalue
    rwa [hvalue] at ht
  · rename_i t left q hvalue
    rw [hvalue] at ht
    split <;> exact ht

end Tree

theorem exists_of_map_eq_ok {α β : Type} {f : α → β} {e : Except Failure α} {b : β}
    (h : e.map f = .ok b) : ∃ a, e = .ok a ∧ f a = b := by
  cases e with
  | error failure => cases h
  | ok a =>
    cases h
    exact ⟨a, rfl, rfl⟩

mutual

theorem Tree.IsFinite.value? {t : Tree} (ht : t.IsFinite) {depth : Nat} {v : Value}
    (h : t.value? depth = .ok v) : v.isFinite := by
  cases t with
  | null stop => cases h; rfl
  | bool b stop => cases h; rfl
  | number n stop =>
    obtain ⟨x, hx, rfl⟩ := exists_of_map_eq_ok h
    exact ht x hx
  | string s stop =>
    obtain ⟨x, _, rfl⟩ := exists_of_map_eq_ok h
    rfl
  | broken careful careless => cases h
  | list start chain =>
    cases depth with
    | zero => cases h
    | succ depth =>
      obtain ⟨vs, hvs, rfl⟩ := exists_of_map_eq_ok h
      exact Items.AreFinite.values? ht hvs
  | object start chain =>
    cases depth with
    | zero => cases h
    | succ depth =>
      obtain ⟨es, hes, rfl⟩ := exists_of_map_eq_ok h
      exact Entries.AreFinite.values? ht hes

theorem Items.AreFinite.values? {chain : Items} (hc : chain.AreFinite) {depth : Nat}
    {vs : List Value} (h : chain.values? depth = .ok vs) : Value.areFinite vs := by
  cases chain with
  | close stop => cases h; rfl
  | broken b => cases h
  | item start t after rest =>
    rw [Items.values?] at h
    cases hv : t.value? depth with
    | error failure =>
      rw [hv] at h
      cases h
    | ok v =>
      rw [hv] at h
      obtain ⟨ws, hws, rfl⟩ := exists_of_map_eq_ok h
      rw [Value.areFinite, Tree.IsFinite.value? hc.1 hv, Items.AreFinite.values? hc.2 hws]
      rfl

theorem Entries.AreFinite.values? {chain : Entries} (hc : chain.AreFinite) {depth : Nat}
    {es : List (Key × Value)} (h : chain.values? depth = .ok es) : Value.haveFinite es := by
  cases chain with
  | close stop => cases h; rfl
  | broken b => cases h
  | badKey careful careless => cases h
  | entry key afterKey t after rest =>
    cases key with
    | error failure => cases h
    | ok k =>
      rw [Entries.values?] at h
      cases hv : t.value? depth with
      | error failure =>
        rw [hv] at h
        cases h
      | ok v =>
        rw [hv] at h
        obtain ⟨fs, hfs, rfl⟩ := exists_of_map_eq_ok h
        rw [Value.haveFinite, Tree.IsFinite.value? hc.1 hv, Entries.AreFinite.values? hc.2 hfs]
        rfl

end

end Json

end SchemaTypes
