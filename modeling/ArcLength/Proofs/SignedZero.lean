import Mathlib
import ArcLength.Binary64

/-!
# The sign of zero

Doubles that are numerically equal are equal, or they are zeros of either sign. The operations of
measuring do not tell such zeros apart: what they give differs at most in the sign of zero, and
lengths do not differ at all.
-/

namespace ArcLength.Binary64

open Float.Model

theorem add_eq (x y : Float) :
    x + y = .ofModel (pack (.add .binary64 x.toModel.unpack y.toModel.unpack)) := rfl

theorem sub_eq (x y : Float) :
    x - y = .ofModel (pack (.sub .binary64 x.toModel.unpack y.toModel.unpack)) := rfl

theorem div_eq (x y : Float) :
    x / y = .ofModel (pack (.div .binary64 x.toModel.unpack y.toModel.unpack)) := rfl

theorem abs_eq (x : Float) : x.abs = .ofModel (pack x.toModel.unpack.abs) := rfl

theorem ofModel_pack_unpack (x : Float) : Float.ofModel (pack x.toModel.unpack) = x := by
  obtain ⟨⟨bits, valid⟩⟩ := x
  have hbits := UnpackedFloat.pack_unpack_of_valid valid
  simp only [pack, Float.Model.unpack]
  congr 2
  exact congrArg UInt64.ofBitVec hbits

theorem ofModel_pack_of_unpack {x : Float} {u : UnpackedFloat} (h : x.toModel.unpack = u) :
    Float.ofModel (pack u) = x := by
  rw [← h]
  exact ofModel_pack_unpack x

/-- A zero of either sign. -/
def IsZero (x : Float) : Prop := ∃ sign, x.toModel.unpack = .zero sign

theorem isZero_pack (sign : UnpackedFloat.Sign) : IsZero (.ofModel (pack (.zero sign))) :=
  ⟨sign, UnpackedFloat.unpack_packedZero⟩

theorem isZero_zero : IsZero 0 := ⟨.positive, rfl⟩

theorem isZero_neg_zero : IsZero (-0) := ⟨.negative, rfl⟩

/-- The same value up to the sign of zero. What is no number is like itself. -/
def Alike (x y : Float) : Prop := x = y ∨ IsZero x ∧ IsZero y

namespace Alike

variable {x x' y y' z : Float}

theorem refl (x : Float) : Alike x x := Or.inl rfl

theorem symm (h : Alike x y) : Alike y x := by
  rcases h with rfl | ⟨hx, hy⟩
  · exact refl x
  · exact Or.inr ⟨hy, hx⟩

theorem trans (h : Alike x y) (h' : Alike y z) : Alike x z := by
  rcases h with rfl | ⟨hx, hy⟩
  · exact h'
  · rcases h' with rfl | ⟨-, hz⟩
    · exact Or.inr ⟨hx, hy⟩
    · exact Or.inr ⟨hx, hz⟩

theorem isZero (h : Alike x y) (hx : IsZero x) : IsZero y := by
  rcases h with rfl | ⟨-, hy⟩
  · exact hx
  · exact hy

theorem of_beq (h : (x == y) = true) : Alike x y := by
  obtain ⟨-, -, heq | ⟨rfl, rfl⟩ | ⟨rfl, rfl⟩⟩ := Float.beq_iff_ne_nan_and_eq.mp h
  · exact Or.inl heq
  · exact Or.inr ⟨isZero_zero, isZero_neg_zero⟩
  · exact Or.inr ⟨isZero_neg_zero, isZero_zero⟩

end Alike

section Operations

variable {x x' y y' z z' : Float}

/-- An operation that tells no zeros apart on either side tells no like values apart. -/
theorem Alike.map₂ {f : Float → Float → Float} (hx : Alike x x')
    (hleft : ∀ {z z'} y, IsZero z → IsZero z' → Alike (f z y) (f z' y))
    (hright : ∀ {z z'} x, IsZero z → IsZero z' → Alike (f x z) (f x z')) (hy : Alike y y') :
    Alike (f x y) (f x' y') := by
  have hfirst : Alike (f x y) (f x' y) := by
    rcases hx with rfl | ⟨hz, hz'⟩
    · exact refl _
    · exact hleft y hz hz'
  have hsecond : Alike (f x' y) (f x' y') := by
    rcases hy with rfl | ⟨hz, hz'⟩
    · exact refl _
    · exact hright x' hz hz'
  exact hfirst.trans hsecond

theorem alike_add_of_isZero_left (hz : IsZero z) (x : Float) : Alike (z + x) x := by
  obtain ⟨sign, hz⟩ := hz
  rw [add_eq, hz]
  cases hx : x.toModel.unpack with
  | zero s =>
      refine Or.inr ⟨?_, s, hx⟩
      simp only [UnpackedFloat.add]
      split <;> exact isZero_pack _
  | _ => exact Or.inl (ofModel_pack_of_unpack hx)

theorem alike_add_of_isZero_right (hz : IsZero z) (x : Float) : Alike (x + z) x := by
  obtain ⟨sign, hz⟩ := hz
  rw [add_eq, hz]
  cases hx : x.toModel.unpack with
  | zero s =>
      refine Or.inr ⟨?_, s, hx⟩
      simp only [UnpackedFloat.add]
      split <;> exact isZero_pack _
  | _ => exact Or.inl (ofModel_pack_of_unpack hx)

theorem Alike.add (hx : Alike x x') (hy : Alike y y') : Alike (x + y) (x' + y') :=
  hx.map₂
    (fun y hz hz' => (alike_add_of_isZero_left hz y).trans (alike_add_of_isZero_left hz' y).symm)
    (fun x hz hz' => (alike_add_of_isZero_right hz x).trans (alike_add_of_isZero_right hz' x).symm)
    hy

theorem alike_sub_of_isZero (hz : IsZero z) (x : Float) : Alike (x - z) x := by
  obtain ⟨sign, hz⟩ := hz
  rw [sub_eq, hz]
  cases hx : x.toModel.unpack with
  | zero s =>
      refine Or.inr ⟨?_, s, hx⟩
      simp only [UnpackedFloat.sub]
      split <;> exact isZero_pack _
  | _ => exact Or.inl (ofModel_pack_of_unpack hx)

theorem alike_sub_sub_of_isZero (hz : IsZero z) (hz' : IsZero z') (x : Float) :
    Alike (z - x) (z' - x) := by
  obtain ⟨sign, hz⟩ := hz
  obtain ⟨sign', hz'⟩ := hz'
  rw [sub_eq, sub_eq, hz, hz']
  cases x.toModel.unpack with
  | zero s =>
      simp only [UnpackedFloat.sub]
      refine Or.inr ⟨?_, ?_⟩ <;> split <;> exact isZero_pack _
  | _ => exact Or.inl rfl

theorem Alike.sub (hx : Alike x x') (hy : Alike y y') : Alike (x - y) (x' - y') :=
  hx.map₂ (fun y hz hz' => alike_sub_sub_of_isZero hz hz' y)
    (fun x hz hz' => (alike_sub_of_isZero hz x).trans (alike_sub_of_isZero hz' x).symm) hy

theorem isZero_half (hz : IsZero z) : IsZero (Scalar.half z) := by
  obtain ⟨sign, hz⟩ := hz
  obtain ⟨s, m, e, hpos, htwo⟩ : ∃ s m e hpos,
      (Float.ofNat 2).toModel.unpack = .finite s m e hpos := ⟨_, _, _, _, rfl⟩
  change IsZero (z / Float.ofNat 2)
  rw [div_eq, hz, htwo]
  exact isZero_pack _

theorem Alike.half (hx : Alike x x') : Alike (Scalar.half x) (Scalar.half x') := by
  rcases hx with rfl | ⟨hz, hz'⟩
  · exact refl _
  · exact Or.inr ⟨isZero_half hz, isZero_half hz'⟩

theorem Alike.abs_eq (hx : Alike x x') : x.abs = x'.abs := by
  rcases hx with rfl | ⟨⟨sign, hz⟩, ⟨sign', hz'⟩⟩
  · rfl
  · rw [Binary64.abs_eq, Binary64.abs_eq, hz, hz']
    rfl

theorem Alike.hypot_eq (hx : Alike x x') (hy : Alike y y') : hypot x y = hypot x' y' := by
  unfold hypot
  rw [hx.abs_eq, hy.abs_eq]

theorem hypot_of_isZero (hx : IsZero x) (hy : IsZero y) : hypot x y = 0 := by
  have hzeros : hypot x y = hypot 0 0 :=
    Alike.hypot_eq (Or.inr ⟨hx, isZero_zero⟩) (Or.inr ⟨hy, isZero_zero⟩)
  rw [hzeros]
  decide +kernel

theorem isZero_sub_self (hfinite : x.isFinite = true) : IsZero (x - x) := by
  change x.toModel.unpack.isFinite = true at hfinite
  rw [sub_eq]
  cases hx : x.toModel.unpack with
  | notANumber => simp [hx, UnpackedFloat.isFinite] at hfinite
  | infinity s => simp [hx, UnpackedFloat.isFinite] at hfinite
  | zero s =>
      simp only [UnpackedFloat.sub]
      split <;> exact isZero_pack _
  | finite s m e hpos =>
      simp only [UnpackedFloat.sub, Int.sub_self, UnpackedFloat.normalize]
      exact isZero_pack .positive

theorem isZero_sub_of_alike (hfinite : x.isFinite = true) (h : Alike x y) : IsZero (y - x) :=
  (h.sub (Alike.refl x)).isZero (isZero_sub_self hfinite)

theorem eq_zero_of_isZero (h : IsZero x) : x = 0 ∨ x = -0 := by
  obtain ⟨sign, hsign⟩ := h
  cases sign with
  | positive => exact Or.inl (ofModel_pack_of_unpack hsign).symm
  | negative => exact Or.inr (ofModel_pack_of_unpack hsign).symm

theorem ne_nan_of_isFinite (h : x.isFinite = true) : x ≠ Float.nan := by
  rintro rfl
  revert h
  decide +kernel

theorem Alike.beq (hfinite : x.isFinite = true) (h : Alike x y) : (x == y) = true := by
  rcases h with rfl | ⟨hx, hy⟩
  · exact Float.beq_iff_ne_nan_and_eq.mpr
      ⟨ne_nan_of_isFinite hfinite, ne_nan_of_isFinite hfinite, Or.inl rfl⟩
  · rcases eq_zero_of_isZero hx with rfl | rfl <;> rcases eq_zero_of_isZero hy with rfl | rfl <;>
      decide +kernel

theorem Alike.isFinite (h : Alike x y) (hfinite : y.isFinite = true) : x.isFinite = true := by
  rcases h with rfl | ⟨hx, -⟩
  · exact hfinite
  · rcases eq_zero_of_isZero hx with rfl | rfl <;> decide +kernel

end Operations

end ArcLength.Binary64
