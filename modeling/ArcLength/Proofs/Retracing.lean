import Mathlib
import ArcLength.Proofs.Budget
import ArcLength.Proofs.Parametrization
import ArcLength.Proofs.Tour

/-!
# Pieces as parts of a curve

A word of sides is a binary number, and so it names a dyadic interval. In the exact plane the piece
that the word leads to is the part of the curve over that interval. Splitting a piece splits its
interval, so the flat pieces of a curve tile the whole interval in order.
-/

namespace ArcLength

open Filter

namespace Curve

def Side.digit : Side → ℕ
  | .left => 0
  | .right => 1

/-- The number with the sides as its binary digits, the first side in the highest place. -/
def ordinal (w : List Side) : ℕ := Nat.ofDigits 2 (w.reverse.map Side.digit)

theorem ordinal_concat (w : List Side) (side : Side) :
    ordinal (w ++ [side]) = side.digit + 2 * ordinal w := by
  rw [ordinal, List.reverse_append, List.reverse_singleton, List.singleton_append, List.map_cons,
    Nat.ofDigits_cons, ordinal]

noncomputable def lower (w : List Side) : ℝ := ordinal w / (2 ^ w.length : ℕ)

noncomputable def upper (w : List Side) : ℝ := (ordinal w + 1) / (2 ^ w.length : ℕ)

theorem lower_left (w : List Side) : lower (w ++ [.left]) = lower w := by
  rw [lower, lower, ordinal_concat, List.length_append, List.length_singleton, pow_succ]
  push_cast [Side.digit]
  field_simp
  ring

theorem upper_left (w : List Side) : upper (w ++ [.left]) = lower (w ++ [.right]) := by
  rw [upper, lower, ordinal_concat, ordinal_concat]
  push_cast [Side.digit, List.length_append, List.length_singleton]
  ring

theorem upper_right (w : List Side) : upper (w ++ [.right]) = upper w := by
  rw [upper, upper, ordinal_concat, List.length_append, List.length_singleton, pow_succ]
  push_cast [Side.digit]
  field_simp
  ring

/-- The intervals of the words follow each other from one parameter to another: each begins where
the one before it ends. -/
def Tiles : ℝ → List (List Side) → ℝ → Prop
  | a, [], b => a = b
  | a, w :: ws, b => lower w = a ∧ Tiles (upper w) ws b

theorem tiles_whole : Tiles 0 [[]] 1 := by simp [Tiles, lower, upper, ordinal]

section Pieces

variable {κ α : Type} [Curve κ α]

theorem descend_concat (c : κ) (w : List Side) (side : Side) :
    descend c (w ++ [side]) = half (descend c w) side :=
  descend_append c w [side]

variable [Scalar α] {tolerance : α} {c : κ}

theorem Unfolds.unique {stack ps ps' : List κ} (h : Unfolds tolerance stack ps)
    (h' : Unfolds tolerance stack ps') : ps = ps' := by
  induction h generalizing ps' with
  | nil => cases h' with
    | nil => rfl
  | flat hflat _ ih =>
      cases h' with
      | flat _ hlater => rw [ih hlater]
      | halves hsplit _ => simp [hflat] at hsplit
  | halves hsplit _ ih =>
      cases h' with
      | flat hflat _ => simp [hsplit] at hflat
      | halves _ hhalves => exact ih hhalves

theorem Unfolds.exists_tiles {stack ps : List κ} (h : Unfolds tolerance stack ps)
    {ws : List (List Side)} (hstack : stack = ws.map (descend c)) {a b : ℝ} (htiles : Tiles a ws b) :
    ∃ vs, ps = vs.map (descend c) ∧ Tiles a vs b := by
  -- a split puts the words of the two halves in place of the word of the piece
  induction h generalizing ws a with
  | nil => exact ⟨ws, hstack, htiles⟩
  | flat _ _ ih =>
      cases ws with
      | nil => simp at hstack
      | cons w ws =>
          obtain ⟨rfl, rfl⟩ := List.cons.inj hstack
          obtain ⟨vs, rfl, hvs⟩ := ih rfl htiles.2
          exact ⟨w :: vs, rfl, htiles.1, hvs⟩
  | halves _ _ ih =>
      cases ws with
      | nil => simp at hstack
      | cons w ws =>
          obtain ⟨rfl, rfl⟩ := List.cons.inj hstack
          have hhalves : (split (descend c w)).1 :: (split (descend c w)).2 :: ws.map (descend c) =
              ((w ++ [.left]) :: (w ++ [.right]) :: ws).map (descend c) := by
            simp only [List.map_cons, descend_concat]
            rfl
          refine ih hhalves ⟨?_, ?_, ?_⟩
          · exact (lower_left w).trans htiles.1
          · exact (upper_left w).symm
          · rw [upper_right]
            exact htiles.2

end Pieces

variable {κ : Type} [Curve κ ℝ] [Parametric κ]

theorem pointAt_half (c : κ) (side : Side) (t : ℝ) :
    Parametric.pointAt (half c side) t = Parametric.pointAt c ((side.digit + t) / 2) := by
  cases side with
  | left =>
      rw [Side.digit, Nat.cast_zero, zero_add]
      exact Parametric.pointAt_left c t
  | right =>
      rw [Side.digit, Nat.cast_one]
      exact Parametric.pointAt_right c t

theorem pointAt_descend (c : κ) (w : List Side) (t : ℝ) :
    Parametric.pointAt (descend c w) t =
      Parametric.pointAt c ((ordinal w + t) / 2 ^ w.length) := by
  induction w using List.reverseRecOn generalizing t with
  | nil => simp [descend, ordinal]
  | append_singleton w side ih =>
      rw [descend_concat, pointAt_half, ih, ordinal_concat, List.length_append,
        List.length_singleton, pow_succ]
      congr 1
      push_cast
      field_simp
      ring

/-- What the pieces of a curve are as parts of it. A word leads to the part over its interval. From
every state with a tolerance above zero the flat pieces belong to words whose intervals tile the
whole, and measuring that is not cut short meets exactly these, in this order. -/
structure Retraces (c : κ) : Prop where
  pointAt_descend : ∀ (w : List Side) (t : ℝ), Parametric.pointAt (descend c w) t =
    Parametric.pointAt c ((ordinal w + t) / 2 ^ w.length)
  tiles : ∀ s : State ℝ, 0 < s.tolerance → ∃ ws, Tiles 0 ws 1 ∧ ∀ᶠ budget in atTop,
    ∃ length t, s.curveLength budget c = some (length, t) ∧
      total 0 (s.met budget c) = length ∧
      (s.passes length = false → s.met budget c = ws.map (descend c))

theorem retraces_of_parametric (c : κ) : Retraces c := by
  refine ⟨pointAt_descend c, fun s htolerance => ?_⟩
  obtain ⟨depth, hpieces⟩ := exists_flatPieces_eq_pieces htolerance c
  have hunfolds : Unfolds s.tolerance [c] (pieces s.tolerance c) := .of_flatPieces hpieces
  have hstack : [c] = [[]].map (descend c) := rfl
  obtain ⟨ws, hws, htiles⟩ := hunfolds.exists_tiles hstack tiles_whole
  refine ⟨ws, htiles, ?_⟩
  filter_upwards [eventually_measuredAs htolerance c] with budget hmeasured
  obtain ⟨before, last, after, -, hmeasure⟩ := hmeasured s.passes
  have hlength := State.curveLength_eq budget s c
  rw [hmeasure] at hlength
  refine ⟨_, _, hlength, State.total_met hlength, fun huncut => ?_⟩
  rw [(State.unfolds_met hlength huncut).unique hunfolds, hws]

/-- How the pieces lie that are met when a curve is measured from a state and not cut short: there
are some, and they lead from the start of the curve to its end without a gap. -/
def Tours {α : Type} [Scalar α] {κ : Type} [Curve κ α] (budget : ℕ) (s : State α) (c : κ) : Prop :=
  ∀ length t, s.curveLength budget c = some (length, t) → s.passes length = false →
    s.met budget c ≠ [] ∧ Joins (start c) (s.met budget c) (finish c)

theorem tours_of_lawful {α : Type} [Scalar α] {κ : Type} [Curve κ α] [Lawful κ] (budget : ℕ)
    (s : State α) (c : κ) : Tours budget s c := by
  intro length t h huncut
  refine ⟨?_, State.joins_met h huncut⟩
  have hle := (State.unfolds_met h huncut).length_le
  exact List.ne_nil_of_length_pos hle

/-- An arch whose halves are flat at tolerance 1, while the whole is not. -/
noncomputable def arch : QuadraticCurve ℝ := ⟨⟨0, 0⟩, ⟨(3 : ℕ), (4 : ℕ)⟩, ⟨(6 : ℕ), 0⟩⟩

theorem arch_eq : arch = ⟨⟨0, 0⟩, ⟨3, 4⟩, ⟨6, 0⟩⟩ := rfl

theorem split_arch :
    split arch = (⟨⟨0, 0⟩, ⟨3 / 2, 2⟩, ⟨3, 2⟩⟩, ⟨⟨3, 2⟩, ⟨9 / 2, 2⟩, ⟨6, 0⟩⟩) := by
  change QuadraticCurve.split arch = _
  simp only [QuadraticCurve.split, arch_eq, Point.midpoint, Scalar.half]
  norm_num

theorem isFlat_quadratic_iff {tolerance : ℝ} {p q r : Point ℝ} :
    isFlat tolerance (QuadraticCurve.mk p q r) = true ↔
      p.distance q + q.distance r - p.distance r ≤ tolerance :=
  isFlat_iff

theorem unfolds_arch : Unfolds 1 [arch] [(split arch).1, (split arch).2] := by
  have hbent : isFlat (1 : ℝ) arch = false := by
    have hfirst : (Point.mk 0 0 : Point ℝ).distance ⟨3, 4⟩ = 5 :=
      Point.distance_eq_of_sq (by norm_num) (by norm_num)
    have hsecond : (Point.mk 3 4 : Point ℝ).distance ⟨6, 0⟩ = 5 :=
      Point.distance_eq_of_sq (by norm_num) (by norm_num)
    have hchord : (Point.mk 0 0 : Point ℝ).distance ⟨6, 0⟩ = 6 :=
      Point.distance_eq_of_sq (by norm_num) (by norm_num)
    rw [← Bool.not_eq_true, arch_eq, isFlat_quadratic_iff, hfirst, hsecond, hchord]
    norm_num
  have hleft : isFlat (1 : ℝ) (split arch).1 = true := by
    have hfirst : (Point.mk 0 0 : Point ℝ).distance ⟨3 / 2, 2⟩ = 5 / 2 :=
      Point.distance_eq_of_sq (by norm_num) (by norm_num)
    have hsecond : (Point.mk (3 / 2) 2 : Point ℝ).distance ⟨3, 2⟩ = 3 / 2 :=
      Point.distance_eq_of_sq (by norm_num) (by norm_num)
    have hchord : 3 ≤ (Point.mk 0 0 : Point ℝ).distance ⟨3, 2⟩ :=
      Real.le_sqrt_of_sq_le (by norm_num)
    rw [split_arch, isFlat_quadratic_iff]
    linarith
  have hright : isFlat (1 : ℝ) (split arch).2 = true := by
    have hfirst : (Point.mk 3 2 : Point ℝ).distance ⟨9 / 2, 2⟩ = 3 / 2 :=
      Point.distance_eq_of_sq (by norm_num) (by norm_num)
    have hsecond : (Point.mk (9 / 2) 2 : Point ℝ).distance ⟨6, 0⟩ = 5 / 2 :=
      Point.distance_eq_of_sq (by norm_num) (by norm_num)
    have hchord : 3 ≤ (Point.mk 3 2 : Point ℝ).distance ⟨6, 0⟩ :=
      Real.le_sqrt_of_sq_le (by norm_num)
    rw [split_arch, isFlat_quadratic_iff]
    linarith
  exact .halves hbent (.flat hleft (.flat hright .nil))

/-- **Splitting retraces the curve.** For quadratics and cubics over the reals, the piece that a word
of sides leads to is the curve over the dyadic interval of the word, and the flat pieces that are
met tile the curve in order. In every number system, and whatever the point between two others is
taken to be, the pieces start where the curve starts, each where the one before it ends, and end
where the curve ends. -/
theorem retraces_quadratic_and_cubic :
    (∀ c : QuadraticCurve ℝ, Retraces c) ∧ (∀ c : CubicCurve ℝ, Retraces c) ∧
    ∀ {α : Type} [Scalar α] (budget : ℕ) (s : State α),
      (∀ c : QuadraticCurve α, Tours budget s c) ∧ (∀ c : CubicCurve α, Tours budget s c) ∧
      ∀ between : Point α → Point α → Point α,
        (∀ c : QuadraticCurve.With between, Tours budget s c) ∧
        ∀ c : CubicCurve.With between, Tours budget s c :=
  ⟨retraces_of_parametric, retraces_of_parametric, fun budget s =>
    ⟨tours_of_lawful budget s, tours_of_lawful budget s, fun _ =>
      ⟨tours_of_lawful budget s, tours_of_lawful budget s⟩⟩⟩

/-- On the arch, the middle of the second quarter lies at three eighths of it. Measuring the arch
meets its two halves, which tile it. -/
theorem retraces_arch :
    Parametric.pointAt (descend arch [.left, .right]) (1 / 2) = ⟨9 / 4, 15 / 8⟩ ∧
    ∃ ws, Tiles 0 ws 1 ∧ ∀ᶠ budget in atTop,
      State.met budget (.initial .totalLength 0 1) arch = ws.map (descend arch) ∧
      State.met budget (.initial .totalLength 0 1) arch =
        [⟨⟨0, 0⟩, ⟨3 / 2, 2⟩, ⟨3, 2⟩⟩, ⟨⟨3, 2⟩, ⟨9 / 2, 2⟩, ⟨6, 0⟩⟩] := by
  obtain ⟨hquadratic, -⟩ := retraces_quadratic_and_cubic
  have hpart := (hquadratic arch).pointAt_descend [.left, .right] (1 / 2)
  obtain ⟨ws, htiles, hmet⟩ := (hquadratic arch).tiles (.initial .totalLength 0 1) one_pos
  refine ⟨hpart.trans ?_, ws, htiles, ?_⟩
  · change QuadraticCurve.pointAt _ _ = _
    norm_num [QuadraticCurve.pointAt, arch_eq, ordinal, Side.digit, Nat.ofDigits]
  · filter_upwards [hmet] with budget hbudget
    obtain ⟨length, t, hlength, -, huncut⟩ := hbudget
    have hpasses : (State.initial .totalLength 0 (1 : ℝ)).passes length = false := rfl
    have hhalves := (State.unfolds_met hlength hpasses).unique unfolds_arch
    rw [split_arch] at hhalves
    exact ⟨huncut hpasses, hhalves⟩

end Curve

end ArcLength
