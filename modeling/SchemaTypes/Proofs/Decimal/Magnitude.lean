import Mathlib.Algebra.Group.Nat.Defs
import Mathlib.Data.Nat.Log

/-!
# How large a binary number is

Bounds on binary numbers with 64 bits, as powers of two. Rounding at most doubles
a number, dividing by one or more adds nothing to that, and a number below
`2 ^ 972` has room to be written down. So whatever stays below that bound, or is
multiplied without becoming infinite, is finite.
-/

set_option autoImplicit false

namespace SchemaTypes.Decimal

open Float.Model (totalExponent UnpackedFloat)
open Float.Model.Format (binary64)
open Float.Model.UnpackedFloat

/-- Zero, or less than `2 ^ n`. -/
def Below (n : Int) : UnpackedFloat → Prop
  | .zero _ => True
  | .finite _ m e _ => totalExponent m e ≤ n
  | _ => False

/-- Finite, and one or more. -/
def atLeastOne (x : Float) : Bool :=
  match x.toModel.unpack with
  | .finite _ m e _ => 1 ≤ totalExponent m e
  | _ => false

theorem Below.mono {m n : Int} {u : UnpackedFloat} (hu : Below m u) (h : m ≤ n) : Below n u := by
  cases u with
  | zero s => trivial
  | finite s k e hk => exact Int.le_trans hu h
  | notANumber => cases hu
  | infinity s => cases hu

theorem Below.isFinite {n : Int} {u : UnpackedFloat} (h : Below n u) : u.isFinite := by
  cases u with
  | zero s => rfl
  | finite s m e hm => rfl
  | notANumber => cases h
  | infinity s => cases h

theorem isFinite_of_atLeastOne {x : Float} (h : atLeastOne x) : x.isFinite := by
  show x.toModel.unpack.isFinite
  unfold atLeastOne at h
  cases hx : x.toModel.unpack with
  | finite s m e hm => rfl
  | _ =>
    rw [hx] at h
    cases h

section Bits

theorem log2_mono {m n : Nat} (h : m ≤ n) : m.log2 ≤ n.log2 := by
  rw [Nat.log2_eq_log_two, Nat.log2_eq_log_two]
  exact Nat.log_mono_right h

theorem log2_lt_of_lt {m k : Nat} (h : m < 2 ^ k) (hk : 0 < k) : m.log2 < k := by
  by_cases hm : m = 0
  · rwa [hm]
  · exact (Nat.log2_lt hm).mpr h

theorem log2_succ_le (m : Nat) : (m + 1).log2 ≤ m.log2 + 1 := by
  have hm : m < 2 ^ (m.log2 + 1) := Nat.lt_log2_self
  have hsucc : m + 1 < 2 ^ (m.log2 + 1 + 1) := by
    rw [Nat.pow_succ]
    omega
  exact Nat.lt_succ_iff.mp ((Nat.log2_lt (Nat.succ_ne_zero m)).mpr hsucc)

theorem log2_div_two_pow (m k : Nat) : (m / 2 ^ k).log2 = m.log2 - k := by
  rw [Nat.log2_eq_log_two, Nat.log2_eq_log_two, Nat.log_div_base_pow]

theorem log2_shiftLeft {m : Nat} (hm : m ≠ 0) (k : Nat) : (m <<< k).log2 = m.log2 + k := by
  have hdiv := log2_div_two_pow (m * 2 ^ k) k
  rw [Nat.mul_div_cancel m (Nat.two_pow_pos k)] at hdiv
  have hk : k ≤ (m * 2 ^ k).log2 := by
    rw [Nat.le_log2 (Nat.mul_ne_zero hm (Nat.two_pow_pos k).ne')]
    exact Nat.le_mul_of_pos_left _ (Nat.pos_of_ne_zero hm)
  rw [Nat.shiftLeft_eq]
  omega

theorem log2_add_log2_le {m n : Nat} (hm : m ≠ 0) (hn : n ≠ 0) :
    m.log2 + n.log2 ≤ (m * n).log2 := by
  rw [Nat.le_log2 (Nat.mul_ne_zero hm hn), Nat.pow_add]
  exact Nat.mul_le_mul (Nat.log2_self_le hm) (Nat.log2_self_le hn)

end Bits

section Rounding

variable {n : Int} {m : Nat} {e : Int}

theorem mantissa_shiftRight (em : ExtendedMantissa) (k : Nat) :
    (em >>> k).mantissa = em.mantissa / 2 ^ k := by
  induction k with
  | zero => exact (Nat.div_one _).symm
  | succ k ih =>
    have hstep : (em >>> (k + 1)).mantissa = (em >>> k).mantissa / 2 := rfl
    rw [hstep, ih, Nat.div_div_eq_div_mul, Nat.pow_succ]

theorem mantissa_ofMantissaAndAccuracy (m : Nat) (a : Accuracy) :
    (ExtendedMantissa.ofMantissaAndAccuracy m a).mantissa = m := by
  cases a with
  | exact => rfl
  | inexact o => cases o <;> rfl

theorem roundedMantissa_bounds (em : ExtendedMantissa) :
    em.mantissa ≤ em.roundedMantissa ∧ em.roundedMantissa ≤ em.mantissa + 1 := by
  obtain ⟨m, r, s⟩ := em
  cases r <;> cases s <;>
    simp [ExtendedMantissa.roundedMantissa, ExtendedMantissa.accuracy,
      Accuracy.roundToNearestEven]
  omega

/-- The bits by which a number is shifted to have 53 of them, or as many as a tiny
number has. -/
def excess (m : Nat) (e : Int) : Nat := (max (totalExponent m e - 53) (-1074) - e).toNat

theorem shiftToTargetExponent_eq (m : Nat) (e : Int) (a : Accuracy) :
    (shiftToTargetExponent binary64 m e a).1.mantissa = m / 2 ^ excess m e ∧
      (shiftToTargetExponent binary64 m e a).2 = e + excess m e := by
  refine ⟨?_, rfl⟩
  rw [shiftToTargetExponent, shiftToExponent, mantissa_shiftRight, mantissa_ofMantissaAndAccuracy]
  rfl

/-- To round is to shift, perhaps to go one up, and to shift again. -/
theorem roundWithAccuracy_cases (s : Sign) (m : Nat) (e : Int) (a : Accuracy) :
    ∃ r, m / 2 ^ excess m e ≤ r ∧ r ≤ m / 2 ^ excess m e + 1 ∧
      (r / 2 ^ excess r (e + excess m e) = 0 ∧ roundWithAccuracy binary64 s m e a = .zero s ∨
        ∃ h : 0 < r / 2 ^ excess r (e + excess m e),
          roundWithAccuracy binary64 s m e a =
            .finite s (r / 2 ^ excess r (e + excess m e))
              (e + excess m e + excess r (e + excess m e)) h) := by
  have hfirst := shiftToTargetExponent_eq m e a
  have hround := roundedMantissa_bounds (shiftToTargetExponent binary64 m e a).1
  rw [hfirst.1] at hround
  rw [roundWithAccuracy]
  dsimp only
  rw [hfirst.2]
  generalize (shiftToTargetExponent binary64 m e a).1.roundedMantissa = r at hround
  have hsecond := shiftToTargetExponent_eq r (e + excess m e) .exact
  rw [hsecond.1, hsecond.2]
  refine ⟨r, hround.1, hround.2, ?_⟩
  by_cases hzero : r / 2 ^ excess r (e + excess m e) = 0
  · rw [dif_pos hzero]
    exact .inl ⟨hzero, rfl⟩
  · rw [dif_neg hzero]
    exact .inr ⟨Nat.pos_of_ne_zero hzero, rfl⟩

theorem isFinite_roundWithAccuracy (s : Sign) (m : Nat) (e : Int) (a : Accuracy) :
    (roundWithAccuracy binary64 s m e a).isFinite := by
  obtain ⟨r, _, _, ⟨_, hzero⟩ | ⟨_, hfinite⟩⟩ := roundWithAccuracy_cases s m e a
  · rw [hzero]
    rfl
  · rw [hfinite]
    rfl

/-- Rounding at most doubles. -/
theorem below_roundWithAccuracy (hn : 0 ≤ n) (s : Sign) (a : Accuracy)
    (h : totalExponent m e ≤ n) : Below (n + 1) (roundWithAccuracy binary64 s m e a) := by
  obtain ⟨r, _, hhigh, ⟨_, hzero⟩ | ⟨hr, hfinite⟩⟩ := roundWithAccuracy_cases s m e a
  · rw [hzero]
    trivial
  · have hlog := (log2_mono hhigh).trans (log2_succ_le _)
    rw [log2_div_two_pow] at hlog
    rw [Nat.div_pos_iff] at hr
    have hshift := (Nat.le_log2 (by omega)).mpr hr.2
    rw [hfinite]
    show totalExponent _ _ ≤ _
    simp only [excess, totalExponent, log2_div_two_pow] at h hlog hshift ⊢
    omega

theorem below_round (hn : 0 ≤ n) (s : Sign) (hm : m ≠ 0) (h : totalExponent m e ≤ n) :
    Below (n + 1) (UnpackedFloat.round binary64 s m e) := by
  refine below_roundWithAccuracy hn s .exact ?_
  rw [totalExponent] at h ⊢
  generalize binary64.targetExponent _ = t
  rw [log2_shiftLeft hm]
  omega

/-- A number with 53 bits that is not tiny keeps its size, or the next power of two
is reached. -/
theorem roundWithAccuracy_normal (s : Sign) (a : Accuracy) (hm : 52 ≤ m.log2)
    (h : -1021 ≤ totalExponent m e) :
    ∃ m' e' hpos, roundWithAccuracy binary64 s m e a = .finite s m' e' hpos ∧
      m'.log2 = 52 ∧ totalExponent m e ≤ 53 + e' ∧ 53 + e' ≤ totalExponent m e + 1 := by
  obtain ⟨r, hlow, hhigh, hr⟩ := roundWithAccuracy_cases s m e a
  have hexcess : excess m e = m.log2 - 52 := by
    simp only [excess, totalExponent] at h ⊢
    omega
  have hlog : r.log2 = 52 ∨ r.log2 = 53 := by
    have hlow' := log2_mono hlow
    have hhigh' := (log2_mono hhigh).trans (log2_succ_le _)
    rw [log2_div_two_pow] at hlow' hhigh'
    omega
  have hexcess' : excess r (e + excess m e) = r.log2 - 52 := by
    simp only [excess, totalExponent] at h ⊢
    omega
  have hr0 : r ≠ 0 := by
    rintro rfl
    rw [Nat.log2_zero] at hlog
    omega
  have hpos : 0 < r / 2 ^ excess r (e + excess m e) := by
    rw [Nat.div_pos_iff]
    exact ⟨Nat.two_pow_pos _, (Nat.le_log2 hr0).mp (by omega)⟩
  obtain ⟨hzero, _⟩ | ⟨_, hfinite⟩ := hr
  · omega
  · refine ⟨_, _, hpos, hfinite, ?_, ?_⟩
    · rw [log2_div_two_pow]
      omega
    · simp only [totalExponent] at h ⊢
      omega

end Rounding

section Packing

variable {n : Int} {m : Nat} {e : Int}

theorem biased_eq (e : Int) :
    e + (binary64.exponentBias : Int) + ((52 : Nat) : Int) = e + 1075 := by
  rw [Int.add_assoc]
  rfl

theorem ofNat_ne_ones {k : Nat} (hk : k < 2047) : BitVec.ofNat 11 k ≠ -1#11 := by
  intro h
  have hk' : k % 2 ^ 11 = 2047 := congrArg BitVec.toNat h
  omega

theorem isFinite_of_ones {b : BitVec 64} (h : @unpackExponent binary64 b = -1#11) :
    (UnpackedFloat.unpack binary64 b).isFinite = false := by
  unfold UnpackedFloat.unpack
  dsimp only
  rw [if_pos h]
  split <;> rfl

theorem isInf_of_ones {b : BitVec 64} (h : @unpackExponent binary64 b = -1#11)
    (hx : @unpackMantissa binary64 b = 0#52) : (UnpackedFloat.unpack binary64 b).isInf := by
  unfold UnpackedFloat.unpack
  dsimp only
  rw [if_pos h, if_pos hx]
  rfl

theorem unpack_tiny {b : BitVec 64} (h : @unpackExponent binary64 b = 0#11) :
    Below (-1022) (UnpackedFloat.unpack binary64 b) := by
  unfold UnpackedFloat.unpack
  dsimp only
  rw [if_neg (by rw [h]; exact ofNat_ne_ones (by decide)), if_pos h]
  by_cases hzero : @unpackMantissa binary64 b = 0#_
  · rw [dif_pos hzero]
    trivial
  · rw [dif_neg hzero]
    have hx : (@unpackMantissa binary64 b).toNat.log2 < 52 :=
      log2_lt_of_lt (@unpackMantissa binary64 b).isLt (by decide)
    have hbias : (binary64.exponentBias + binary64.mantissaBitsWithoutImplicit : Int) = 1075 := rfl
    show totalExponent _ _ ≤ _
    simp only [totalExponent, hbias, h, BitVec.toNat_ofNat]
    omega

theorem unpack_normal {b : BitVec 64} {k : Nat}
    (h : @unpackExponent binary64 b = BitVec.ofNat 11 k) (h0 : 0 < k) (hk : k < 2047) :
    ∃ s m hpos, UnpackedFloat.unpack binary64 b = .finite s m (k - 1075) hpos ∧
      m.log2 = 52 := by
  have hne : BitVec.ofNat 11 k ≠ 0#11 := by
    intro h
    have hk' : k % 2 ^ 11 = 0 := congrArg BitVec.toNat h
    omega
  have hexponent : (BitVec.ofNat 11 k).toNat = k := Nat.mod_eq_of_lt (by omega)
  have hmantissa (x : BitVec 52) : (1#1 ++ x).toNat = 2 ^ 52 + x.toNat := by
    rw [BitVec.toNat_append, ← Nat.shiftLeft_add_eq_or_of_lt x.isLt, Nat.shiftLeft_eq]
    rfl
  have hpos (x : BitVec 52) : 0 < (1#1 ++ x).toNat := by
    rw [hmantissa]
    omega
  refine ⟨.ofBitVec (@unpackSign binary64 b), (1#1 ++ @unpackMantissa binary64 b).toNat,
    hpos _, ?_, ?_⟩
  · unfold UnpackedFloat.unpack
    dsimp only
    rw [if_neg (by rw [h]; exact ofNat_ne_ones hk), if_neg (by rw [h]; exact hne)]
    rw [h, hexponent]
    rfl
  · have hx : (@unpackMantissa binary64 b).toNat < 2 ^ 52 := (@unpackMantissa binary64 b).isLt
    rw [hmantissa, Nat.log2_eq_iff (by omega)]
    omega

theorem pack_finite (s : Sign) (hm : 0 < m) (he : e ≤ 971) :
    UnpackedFloat.pack binary64 (.finite s m e hm) =
      packComponents binary64 s (BitVec.ofNat 11 (if m.log2 = 52 then (e + 1075).toNat else 0))
        (BitVec.ofNat 52 m) := by
  have hbits : m.log2 + 1 = binary64.mantissaBits ↔ m.log2 = 52 := by
    rw [show binary64.mantissaBits = 52 + 1 from rfl, Nat.succ_inj]
  unfold UnpackedFloat.pack
  dsimp only
  simp only [biased_eq, hbits]
  rw [if_neg (by omega)]
  split <;> rfl

/-- What fits is written down without becoming larger, however few bits it has. -/
theorem below_unpack_pack (hn : 0 ≤ n) (s : Sign) (hm : 0 < m) (he : e ≤ 971)
    (h : totalExponent m e ≤ n) :
    Below n (UnpackedFloat.unpack binary64 (UnpackedFloat.pack binary64 (.finite s m e hm))) := by
  rw [pack_finite s hm he]
  have hlog : (m.log2 : Int) + 1 + e ≤ n := h
  split
  · by_cases hk : (e + 1075).toNat = 0
    · rw [hk]
      exact (unpack_tiny unpackExponent_packComponents).mono (by omega)
    · obtain ⟨s', m', hpos, hunpack, hm'⟩ :=
        @unpack_normal (packComponents binary64 s _ (BitVec.ofNat 52 m)) _
          unpackExponent_packComponents (Nat.pos_of_ne_zero hk) (by omega)
      rw [hunpack]
      show (m'.log2 : Int) + 1 + _ ≤ n
      omega
  · exact (unpack_tiny unpackExponent_packComponents).mono (by omega)

theorem unpack_pack_normal (s : Sign) (hm : 0 < m) (hlog : m.log2 = 52) (hlow : -1074 ≤ e)
    (he : e ≤ 971) :
    ∃ s' m' hpos, UnpackedFloat.unpack binary64
        (UnpackedFloat.pack binary64 (.finite s m e hm)) = .finite s' m' e hpos ∧
      m'.log2 = 52 := by
  rw [pack_finite s hm he, if_pos hlog]
  have hexponent : ((e + 1075).toNat : Int) - 1075 = e := by omega
  have hunpack := @unpack_normal (packComponents binary64 s _ (BitVec.ofNat 52 m))
    (e + 1075).toNat unpackExponent_packComponents (by omega) (by omega)
  rwa [hexponent] at hunpack

theorem isFinite_unpack_pack (s : Sign) (hm : 0 < m) (he : e ≤ 971) :
    (UnpackedFloat.unpack binary64 (UnpackedFloat.pack binary64 (.finite s m e hm))).isFinite :=
  (below_unpack_pack (Int.le_max_left 0 _) s hm he (Int.le_max_right 0 _)).isFinite

/-- What does not fit is infinite. -/
theorem isInf_unpack_pack (s : Sign) (hm : 0 < m) (he : 971 < e) :
    (UnpackedFloat.unpack binary64 (UnpackedFloat.pack binary64 (.finite s m e hm))).isInf := by
  have hpack : UnpackedFloat.pack binary64 (.finite s m e hm) =
      packComponents binary64 s (-1#11) 0#52 := by
    unfold UnpackedFloat.pack
    dsimp only
    rw [biased_eq]
    rw [if_pos (by omega)]
    rfl
  rw [hpack]
  exact isInf_of_ones unpackExponent_packComponents unpackMantissa_packComponents

/-- What has been written down fits. -/
theorem le_of_unpack_finite {b : BitVec 64} {s : Sign} {hm : 0 < m}
    (h : UnpackedFloat.unpack binary64 b = .finite s m e hm) : e ≤ 971 := by
  generalize hk : (@unpackExponent binary64 b).toNat = k
  have hlt : k < 2048 := hk ▸ (@unpackExponent binary64 b).isLt
  have hexponent : @unpackExponent binary64 b = BitVec.ofNat 11 k := by
    apply BitVec.eq_of_toNat_eq
    rw [hk]
    exact (Nat.mod_eq_of_lt hlt).symm
  by_cases hzero : k = 0
  · subst hzero
    have htiny := unpack_tiny hexponent
    rw [h] at htiny
    have htotal : (m.log2 : Int) + 1 + e ≤ -1022 := htiny
    omega
  by_cases hones : k = 2047
  · subst hones
    have hspecial := isFinite_of_ones hexponent
    rw [h] at hspecial
    cases hspecial
  · obtain ⟨s', m', hpos, hunpack, _⟩ :=
      unpack_normal hexponent (Nat.pos_of_ne_zero hzero) (by omega)
    rw [h] at hunpack
    cases hunpack
    omega

end Packing

section Operations

variable {n : Int} {u : UnpackedFloat} {x y : Float}

theorem below_pack_zero (h0 : 0 ≤ n) (s : Sign) : Below n (Float.Model.pack (.zero s)).unpack :=
  Below.mono (@unpack_tiny (packedZero binary64 s) unpackExponent_packComponents) (by omega)

theorem below_pack (h0 : 0 ≤ n) (hn : n ≤ 972) (h : Below n u) :
    Below n (Float.Model.pack u).unpack := by
  cases u with
  | zero s => exact below_pack_zero h0 s
  | finite s m e hm =>
    have htotal : (m.log2 : Int) + 1 + e ≤ n := h
    exact below_unpack_pack h0 s hm (by omega) h
  | notANumber => cases h
  | infinity s => cases h

theorem isFinite_pack (hu : u.isFinite) (hinf : ¬(Float.Model.pack u).unpack.isInf) :
    (Float.Model.pack u).unpack.isFinite := by
  cases u with
  | zero s => exact (below_pack_zero (Int.le_refl 0) s).isFinite
  | finite s m e hm =>
    by_cases he : e ≤ 971
    · exact isFinite_unpack_pack s hm he
    · exact absurd (isInf_unpack_pack s hm (Int.not_le.mp he)) hinf
  | notANumber => cases hu
  | infinity s => cases hu

theorem below_ofUInt64 (n : UInt64) : Below 65 n.toFloat.toModel.unpack := by
  have hlog : n.toNat.log2 < 64 := log2_lt_of_lt n.toNat_lt (by decide)
  refine @below_pack _ (UnpackedFloat.ofUInt64 binary64 n) (by decide) (by decide) ?_
  rw [UnpackedFloat.ofUInt64, UnpackedFloat.ofNat, UnpackedFloat.ofInt, UnpackedFloat.normalize]
  split
  · rename_i h
    rw [Int.compare_eq_lt] at h
    omega
  · trivial
  · rename_i h
    rw [Int.compare_eq_gt] at h
    refine @below_round 64 _ _ (by decide) _ (by omega) ?_
    simp only [totalExponent, Int.toNat_natCast]
    omega

/-- The quotient of the digits is not larger than the dividend. -/
theorem totalExponent_divCore_le {m₁ m₂ : Nat} {e₁ e₂ : Int} (hm₁ : 0 < m₁) (hm₂ : 0 < m₂)
    (h₁ : totalExponent m₁ e₁ ≤ n) (h₂ : 1 ≤ totalExponent m₂ e₂) (hn : 0 ≤ n) :
    totalExponent (divCore binary64 m₁ e₁ m₂ e₂).1 (divCore binary64 m₁ e₁ m₂ e₂).2.1 ≤ n := by
  have htarget :
      binary64.targetExponent (totalExponent m₁ e₁ - totalExponent m₂ e₂) ≤ n - 1 := by
    have hmax : ∀ i, binary64.targetExponent i = max (i - 53) (-1074) := fun _ => rfl
    rw [hmax]
    omega
  simp only [divCore]
  generalize binary64.targetExponent (totalExponent m₁ e₁ - totalExponent m₂ e₂) = t at *
  simp only [totalExponent] at *
  by_cases hq : m₁ <<< (e₁ - e₂ - min (e₁ - e₂) t).toNat / m₂ = 0
  · rw [hq, Nat.log2_zero]
    omega
  · have hproduct := (log2_add_log2_le hq hm₂.ne').trans (log2_mono (Nat.div_mul_le_self _ _))
    rw [log2_shiftLeft hm₁.ne'] at hproduct
    omega

/-- To divide by one or more at most doubles, and that only by rounding. -/
theorem below_div (h0 : 0 ≤ n) (hn : n < 972) (hx : Below n x.toModel.unpack)
    (hy : atLeastOne y) : Below (n + 1) (x / y).toModel.unpack := by
  refine @below_pack _ (UnpackedFloat.div binary64 x.toModel.unpack y.toModel.unpack)
    (by omega) (by omega) ?_
  unfold atLeastOne at hy
  generalize x.toModel.unpack = u, y.toModel.unpack = v at hx hy
  cases v with
  | finite s₂ m₂ e₂ hm₂ =>
    cases u with
    | finite s₁ m₁ e₁ hm₁ =>
      exact below_roundWithAccuracy h0 _ _
        (totalExponent_divCore_le hm₁ hm₂ hx (of_decide_eq_true hy) h0)
    | zero s => trivial
    | notANumber => cases hx
    | infinity s => cases hx
  | _ => cases hy

theorem isFinite_mul (hx : x.isFinite) (hy : y.isFinite) (h : ¬(x * y).isInf) :
    (x * y).isFinite := by
  refine isFinite_pack ?_ h
  change x.toModel.unpack.isFinite at hx
  change y.toModel.unpack.isFinite at hy
  generalize x.toModel.unpack = u, y.toModel.unpack = v at hx hy
  cases u with
  | zero s =>
    cases v with
    | zero _ => rfl
    | finite _ _ _ _ => rfl
    | notANumber => cases hy
    | infinity _ => cases hy
  | finite s m e hm =>
    cases v with
    | zero _ => rfl
    | finite _ _ _ _ => exact isFinite_roundWithAccuracy _ _ _ _
    | notANumber => cases hy
    | infinity _ => cases hy
  | notANumber => cases hx
  | infinity s => cases hx

theorem isFinite_neg (hx : x.isFinite) : (-x).isFinite := by
  change x.toModel.unpack.isFinite at hx
  show (Float.Model.pack x.toModel.unpack.neg).unpack.isFinite
  cases h : x.toModel.unpack with
  | zero s => exact (below_pack_zero (Int.le_refl 0) (-s)).isFinite
  | finite s m e hm => exact isFinite_unpack_pack (-s) hm (le_of_unpack_finite h)
  | notANumber =>
    rw [h] at hx
    cases hx
  | infinity s =>
    rw [h] at hx
    cases hx

end Operations

end SchemaTypes.Decimal
