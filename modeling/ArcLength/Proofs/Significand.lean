import Mathlib
import ArcLength.Proofs.SignedZero

/-!
# Significands under rounding

A finite double is a significand below `2 ^ 53` at an exponent from `-1074` up. Rounding a value
that is not zero, at such an exponent, does not give zero, and rounding a value that is a double
already gives it back. So a sum is a negative zero only if both terms are, and a product with one is
the other factor.
-/

namespace ArcLength.Binary64

open Float.Model UnpackedFloat

theorem targetExponent_eq (total : ℤ) :
    Format.binary64.targetExponent total = max (total - 53) (-1074) := by
  simp only [Format.targetExponent]
  rfl

theorem mantissa_shiftRight (em : ExtendedMantissa) (k : ℕ) :
    (em >>> k).mantissa = em.mantissa / 2 ^ k := by
  induction k with
  | zero => simp [HShiftRight.hShiftRight, Nat.repeat]
  | succ k ih =>
      change (ExtendedMantissa.shiftRightOne (em >>> k)).mantissa = _
      rw [ExtendedMantissa.shiftRightOne, ih, Nat.div_div_eq_div_mul, pow_succ]

theorem mantissa_ofMantissaAndAccuracy (m : ℕ) (accuracy : Accuracy) :
    (ExtendedMantissa.ofMantissaAndAccuracy m accuracy).mantissa = m := by
  cases accuracy with
  | exact => rfl
  | inexact o => cases o <;> rfl

theorem le_roundToNearestEven (m : ℕ) (accuracy : Accuracy) :
    m ≤ accuracy.roundToNearestEven m := by
  cases accuracy with
  | exact => exact le_rfl
  | inexact o => cases o <;> simp [Accuracy.roundToNearestEven]

/-- A shift to the target exponent leaves 53 bits at most, and one at least. -/
theorem shifted_bounds {m : ℕ} (hm : 0 < m) {e : ℤ} (he : -1074 ≤ e) :
    0 < m / 2 ^ (Format.binary64.targetExponent (totalExponent m e) - e).toNat ∧
      m / 2 ^ (Format.binary64.targetExponent (totalExponent m e) - e).toNat < 2 ^ 53 := by
  have hlow : 2 ^ m.log2 ≤ m := Nat.log2_self_le hm.ne'
  have hhigh : m < 2 ^ (m.log2 + 1) := Nat.lt_log2_self
  rw [targetExponent_eq, totalExponent]
  by_cases hbits : m.log2 < 53
  · have hshift : (max ((m.log2 : ℤ) + 1 + e - 53) (-1074) - e).toNat = 0 := by omega
    rw [hshift, pow_zero, Nat.div_one]
    exact ⟨hm, hhigh.trans_le (Nat.pow_le_pow_right (by norm_num) (by omega))⟩
  · obtain ⟨k, hk⟩ : ∃ k, m.log2 = 52 + k := ⟨m.log2 - 52, by omega⟩
    have hshift : (max ((m.log2 : ℤ) + 1 + e - 53) (-1074) - e).toNat = k := by omega
    rw [hk, pow_add] at hlow
    rw [hk, show 52 + k + 1 = 53 + k by omega, pow_add] at hhigh
    rw [hshift]
    refine ⟨Nat.div_pos ?_ (by positivity), (Nat.div_lt_iff_lt_mul (by positivity)).mpr hhigh⟩
    calc 2 ^ k ≤ 2 ^ 52 * 2 ^ k := Nat.le_mul_of_pos_left _ (by positivity)
      _ ≤ m := hlow

theorem exists_roundWithAccuracy (sign : Sign) {m : ℕ} (hm : 0 < m) {e : ℤ} (he : -1074 ≤ e)
    (accuracy : Accuracy) : ∃ m' e' hm',
      roundWithAccuracy .binary64 sign m e accuracy = .finite sign m' e' hm' ∧
        m' < 2 ^ 53 ∧ -1074 ≤ e' := by
  obtain ⟨hpos, -⟩ := shifted_bounds hm he
  unfold roundWithAccuracy shiftToTargetExponent shiftToExponent
  simp only [mantissa_shiftRight, mantissa_ofMantissaAndAccuracy]
  generalize hk : (Format.binary64.targetExponent (totalExponent m e) - e).toNat = k at *
  generalize hrounded : ExtendedMantissa.roundedMantissa _ = rounded
  -- the significand is positive before it is rounded, and rounding does not lower it
  have hrounded' : 0 < rounded := by
    rw [← hrounded, ExtendedMantissa.roundedMantissa, mantissa_shiftRight,
      mantissa_ofMantissaAndAccuracy]
    exact hpos.trans_le (le_roundToNearestEven _ _)
  obtain ⟨hpos', hlt⟩ := shifted_bounds hrounded' (e := e + k) (by omega)
  rw [dif_neg hpos'.ne']
  exact ⟨_, _, hpos', rfl, hlt, by omega⟩

theorem exists_round (sign : Sign) {m : ℕ} (hm : 0 < m) {e : ℤ} (he : -1074 ≤ e) :
    ∃ m' e' hm', UnpackedFloat.round .binary64 sign m e = .finite sign m' e' hm' ∧
      m' < 2 ^ 53 ∧ -1074 ≤ e' := by
  unfold UnpackedFloat.round decreaseExponent
  refine exists_roundWithAccuracy sign ?_ ?_ .exact
  · rw [Nat.shiftLeft_eq]
    positivity
  · rw [targetExponent_eq]
    omega

/-- A significand that is not zero is not packed as a zero. -/
theorem unpack_pack_finite_ne_zero (sign sign' : Sign) {m : ℕ} (hm : 0 < m) (hlt : m < 2 ^ 53)
    {e : ℤ} (he : -1074 ≤ e) : (pack (.finite sign m e hm)).unpack ≠ .zero sign' := by
  intro hzero
  have hbits : UnpackedFloat.pack .binary64 (.finite sign m e hm) = packedZero .binary64 sign' :=
    (unpack_eq_zero_iff_of_valid valid_pack).mp hzero
  have hbias : Format.binary64.exponentBias = 1023 := by decide
  rw [UnpackedFloat.pack] at hbits
  dsimp only at hbits
  split at hbits
  · have hexponent := congrArg unpackExponent hbits
    simp only [packedInfinity, packedZero, unpackExponent_packComponents] at hexponent
    exact absurd hexponent (by decide)
  · rename_i hrange
    split at hbits
    · have hexponent := congrArg (fun b => (unpackExponent b).toNat) hbits
      simp only [packedZero, unpackExponent_packComponents, hbias, BitVec.toNat_ofNat] at hexponent
      rw [hbias] at hrange
      change _ = 0 at hexponent
      omega
    · rename_i hsmall
      have hmantissa := congrArg (fun b => (unpackMantissa b).toNat) hbits
      simp only [packedZero, unpackMantissa_packComponents, BitVec.toNat_ofNat] at hmantissa
      have hlog : m.log2 < 52 := by
        have hle : m.log2 < 53 := (Nat.log2_lt hm.ne').mpr hlt
        change ¬ m.log2 + 1 = 53 at hsmall
        omega
      have hlt' : m < 2 ^ 52 := (Nat.log2_lt hm.ne').mp hlog
      change m % 2 ^ 52 = 0 at hmantissa
      omega

theorem bounds_of_unpack {x : Float} {sign : Sign} {m : ℕ} {e : ℤ} {hm : 0 < m}
    (h : x.toModel.unpack = .finite sign m e hm) :
    m < 2 ^ 53 ∧ -1074 ≤ e ∧ (2 ^ 52 ≤ m ∨ e = -1074) := by
  have hbias : Format.binary64.exponentBias = 1023 := by decide
  rw [Float.Model.unpack, UnpackedFloat.unpack] at h
  dsimp only at h
  split at h
  · split at h <;> simp at h
  · split at h
    · rename_i hzero
      split at h
      · simp at h
      · simp only [UnpackedFloat.finite.injEq, hbias, hzero] at h
        obtain ⟨-, rfl, rfl, -⟩ := h
        have hlt := (@unpackMantissa .binary64 x.toModel.toBits.toBitVec).isLt
        refine ⟨hlt.trans ?_, ?_, Or.inr ?_⟩ <;> decide
    · rename_i hne
      simp only [UnpackedFloat.finite.injEq, hbias] at h
      obtain ⟨-, rfl, rfl, -⟩ := h
      generalize @unpackMantissa .binary64 x.toModel.toBits.toBitVec = mantissa
      generalize @unpackExponent .binary64 x.toModel.toBits.toBitVec = exponent at hne ⊢
      have hlt : mantissa.toNat < 2 ^ 52 := mantissa.isLt
      have happend : ((1#1 : BitVec 1) ++ mantissa).toNat = 2 ^ 52 + mantissa.toNat := by
        rw [BitVec.toNat_append, Nat.shiftLeft_eq]
        change 1 * 2 ^ 52 ||| mantissa.toNat = _
        rw [Nat.one_mul, Nat.or_comm, Nat.or_two_pow_eq_add_of_lt hlt, Nat.add_comm]
      have hpos : 0 < exponent.toNat := by
        rcases Nat.eq_zero_or_pos exponent.toNat with hz | hpos
        · exact absurd (BitVec.eq_of_toNat_eq (by simpa using hz)) hne
        · exact hpos
      rw [happend]
      change 2 ^ 52 + mantissa.toNat < 2 ^ 53 ∧
        -1074 ≤ (exponent.toNat : ℤ) - ((1023 : ℕ) + (52 : ℕ)) ∧
          (2 ^ 52 ≤ 2 ^ 52 + mantissa.toNat ∨ _)
      omega

/-! ### Negative zero

Adding zero changes only a negative zero. A sum is a negative zero only if both terms are, so a total
that starts at zero never becomes one.
-/

/-- A double that zero is added to without a change: any but negative zero. -/
def Settled (x : Float) : Prop := x.toModel.unpack ≠ .zero .negative

theorem settled_of_unpack {x : Float} {u : UnpackedFloat} (h : x.toModel.unpack = u)
    (hne : u ≠ .zero .negative) : Settled x := by
  rw [Settled, h]
  exact hne

theorem settled_zero : Settled 0 :=
  settled_of_unpack (u := .zero .positive) rfl (by simp)

theorem settled_of_ne_neg_zero {x : Float} (h : x ≠ -0) : Settled x :=
  fun hx => h (ofModel_pack_of_unpack hx).symm

/-- Zeros of either sign are added without a change. -/
theorem Settled.add_of_isZero {x z : Float} (h : Settled x) (hz : IsZero z) : x + z = x := by
  obtain ⟨sign, hz⟩ := hz
  rw [add_eq, hz]
  cases hx : x.toModel.unpack with
  | zero s =>
      cases s with
      | positive => cases sign <;> exact ofModel_pack_of_unpack hx
      | negative => exact absurd hx h
  | _ => exact ofModel_pack_of_unpack hx

theorem Settled.add_zero {x : Float} (h : Settled x) : x + 0 = x := h.add_of_isZero isZero_zero

theorem Settled.zero_add {x : Float} (h : Settled x) : 0 + x = x := by
  have hzero : (0 : Float).toModel.unpack = .zero .positive := rfl
  rw [add_eq, hzero]
  cases hx : x.toModel.unpack with
  | zero s =>
      cases s with
      | positive => exact ofModel_pack_of_unpack hx
      | negative => exact absurd hx h
  | _ => exact ofModel_pack_of_unpack hx

theorem Settled.pack_of_unpack {x : Float} {u : UnpackedFloat} (hx : Settled x)
    (h : x.toModel.unpack = u) : Settled (.ofModel (pack u)) := by
  rwa [ofModel_pack_of_unpack h]

theorem settled_pack_notANumber : Settled (.ofModel (pack .notANumber)) :=
  settled_of_unpack unpack_packedNaN (by simp)

theorem settled_pack_zero : Settled (.ofModel (pack (.zero .positive))) :=
  settled_of_unpack unpack_packedZero (by simp)

theorem settled_pack_normalize {m e : ℤ} (he : -1074 ≤ e) :
    Settled (.ofModel (pack (UnpackedFloat.normalize .binary64 m e .positive))) := by
  have hrounded : ∀ (sign : Sign) {n : ℕ}, 0 < n →
      Settled (.ofModel (pack (UnpackedFloat.round .binary64 sign n e))) := by
    intro sign n hn
    obtain ⟨n', e', hn', hround, hlt, he'⟩ := exists_round sign hn he
    rw [hround]
    exact unpack_pack_finite_ne_zero sign .negative hn' hlt he'
  unfold UnpackedFloat.normalize
  split
  · rename_i hneg
    have hlt : m < 0 := compare_lt_iff_lt.mp hneg
    exact hrounded .negative (by omega)
  · exact settled_pack_zero
  · rename_i hpos
    have hlt : 0 < m := compare_gt_iff_gt.mp hpos
    exact hrounded .positive (by omega)

/-- A sum is negative zero only if its first term is. -/
theorem Settled.add {x : Float} (h : Settled x) (y : Float) : Settled (x + y) := by
  rw [add_eq]
  cases hx : x.toModel.unpack with
  | notANumber => exact settled_pack_notANumber
  | infinity s =>
      cases hy : y.toModel.unpack with
      | notANumber => exact settled_pack_notANumber
      | infinity s' =>
          simp only [UnpackedFloat.add]
          split
          · exact h.pack_of_unpack hx
          · exact settled_pack_notANumber
      | _ => exact h.pack_of_unpack hx
  | zero s =>
      cases s with
      | negative => exact absurd hx h
      | positive =>
          cases hy : y.toModel.unpack with
          | zero s' => cases s' <;> exact settled_pack_zero
          | _ => exact (settled_of_unpack hy (by simp)).pack_of_unpack hy
  | finite s m e hm =>
      cases hy : y.toModel.unpack with
      | notANumber => exact settled_pack_notANumber
      | infinity s' => exact (settled_of_unpack hy (by simp)).pack_of_unpack hy
      | zero s' => exact h.pack_of_unpack hx
      | finite s' m' e' hm' =>
          obtain ⟨-, he, -⟩ := bounds_of_unpack hx
          obtain ⟨-, he', -⟩ := bounds_of_unpack hy
          exact settled_pack_normalize (le_min he he')

theorem Settled.foldl_add {x : Float} (h : Settled x) (ys : List Float) :
    Settled (ys.foldl (· + ·) x) := by
  induction ys generalizing x with
  | nil => exact h
  | cons y ys ih => exact ih (h.add y)

theorem shiftRight_exact (m k : ℕ) :
    (ExtendedMantissa.ofMantissaAndAccuracy (m * 2 ^ k) .exact >>> k) = ⟨m, false, false⟩ := by
  induction k generalizing m with
  | zero => simp [HShiftRight.hShiftRight, Nat.repeat, ExtendedMantissa.ofMantissaAndAccuracy]
  | succ k ih =>
      change ExtendedMantissa.shiftRightOne
        (ExtendedMantissa.ofMantissaAndAccuracy (m * 2 ^ (k + 1)) .exact >>> k) = _
      rw [show m * 2 ^ (k + 1) = 2 * m * 2 ^ k by ring, ih]
      simp [ExtendedMantissa.shiftRightOne]

/-- A significand with zeros behind it is shifted back to what it was. -/
theorem shiftToTargetExponent_exact {m : ℕ} (hm : 0 < m) (hlt : m < 2 ^ 53) {e : ℤ}
    (he : -1074 ≤ e) (hnormal : 2 ^ 52 ≤ m ∨ e = -1074) (k : ℕ) :
    shiftToTargetExponent .binary64 (m * 2 ^ k) (e - k) .exact = (⟨m, false, false⟩, e) := by
  have hlog : (m * 2 ^ k).log2 = m.log2 + k := by
    refine (Nat.log2_eq_iff (by positivity)).mpr ⟨?_, ?_⟩
    · rw [pow_add]
      exact Nat.mul_le_mul_right _ (Nat.log2_self_le hm.ne')
    · rw [show m.log2 + k + 1 = m.log2 + 1 + k by omega, pow_add]
      exact Nat.mul_lt_mul_of_pos_right Nat.lt_log2_self (by positivity)
  have hsmall : m.log2 < 53 := (Nat.log2_lt hm.ne').mpr hlt
  have hlarge : 2 ^ 52 ≤ m → 52 ≤ m.log2 := (Nat.le_log2 hm.ne').mpr
  have htarget : Format.binary64.targetExponent (totalExponent (m * 2 ^ k) (e - k)) = e := by
    rw [targetExponent_eq, totalExponent, hlog]
    rcases hnormal with h52 | hleast
    · have := hlarge h52
      push_cast
      omega
    · push_cast
      omega
  have hshift : (e - (e - k)).toNat = k := by omega
  simp only [shiftToTargetExponent, shiftToExponent, htarget, hshift, shiftRight_exact,
    sub_add_cancel]

theorem roundWithAccuracy_exact (sign : Sign) {m : ℕ} (hm : 0 < m) (hlt : m < 2 ^ 53) {e : ℤ}
    (he : -1074 ≤ e) (hnormal : 2 ^ 52 ≤ m ∨ e = -1074) (k : ℕ) :
    roundWithAccuracy .binary64 sign (m * 2 ^ k) (e - k) .exact = .finite sign m e hm := by
  have hunshifted := shiftToTargetExponent_exact hm hlt he hnormal 0
  rw [pow_zero, mul_one, Nat.cast_zero, sub_zero] at hunshifted
  have hrounded : ExtendedMantissa.roundedMantissa ⟨m, false, false⟩ = m := rfl
  rw [roundWithAccuracy]
  simp only [shiftToTargetExponent_exact hm hlt he hnormal k, hrounded, hunshifted, hm.ne',
    dite_false]

theorem mul_eq (x y : Float) :
    x * y = .ofModel (pack (.mul .binary64 x.toModel.unpack y.toModel.unpack)) := rfl

theorem isZero_mul_zero {x : Float} (hfinite : x.isFinite = true) : IsZero (x * 0) := by
  change x.toModel.unpack.isFinite = true at hfinite
  have hzero : (0 : Float).toModel.unpack = .zero .positive := rfl
  rw [mul_eq, hzero]
  cases hx : x.toModel.unpack with
  | notANumber => simp [hx, UnpackedFloat.isFinite] at hfinite
  | infinity s => simp [hx, UnpackedFloat.isFinite] at hfinite
  | zero s => exact isZero_pack _
  | finite s m e hpos => exact isZero_pack _

theorem float_mul_one (x : Float) : x * 1 = x := by
  obtain ⟨hpos, hone⟩ : ∃ hpos,
      (1 : Float).toModel.unpack = .finite .positive (2 ^ 52) (-52) hpos :=
    ⟨by norm_num, rfl⟩
  rw [mul_eq, hone]
  cases hx : x.toModel.unpack with
  | notANumber => exact ofModel_pack_of_unpack hx
  | infinity s => cases s <;> exact ofModel_pack_of_unpack hx
  | zero s => cases s <;> exact ofModel_pack_of_unpack hx
  | finite s m e hm =>
      obtain ⟨hlt, he, hnormal⟩ := bounds_of_unpack hx
      have hsign : s * .positive = s := by cases s <;> rfl
      have hround := roundWithAccuracy_exact s hm hlt he hnormal 52
      refine Eq.trans ?_ (ofModel_pack_of_unpack hx)
      rw [UnpackedFloat.mul, hsign]
      exact congrArg (fun u => Float.ofModel (pack u)) hround

end ArcLength.Binary64
