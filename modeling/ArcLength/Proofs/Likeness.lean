import Mathlib
import ArcLength.Proofs.Results
import ArcLength.Proofs.Runs
import ArcLength.Proofs.SignedZero
import ArcLength.Proofs.Steps

/-!
# Length walks from like states

Two pens that stand at numerically equal points may still differ in the sign of a zero. Their length
walks agree: curves from like points have like halves and the same lengths, and so each stroke
counts the same from both and leaves like states.
-/

namespace ArcLength

namespace Point

/-- The same point up to the signs of zeros. -/
def Alike (p q : Point Float) : Prop := Binary64.Alike p.x q.x ∧ Binary64.Alike p.y q.y

def IsFinite (p : Point Float) : Prop := p.x.isFinite = true ∧ p.y.isFinite = true

variable {p p' q q' r : Point Float}

theorem Alike.refl (p : Point Float) : p.Alike p := ⟨.refl _, .refl _⟩

theorem Alike.symm (h : p.Alike q) : q.Alike p := ⟨h.1.symm, h.2.symm⟩

theorem Alike.trans (h : p.Alike q) (h' : q.Alike r) : p.Alike r :=
  ⟨h.1.trans h'.1, h.2.trans h'.2⟩

theorem alike_of_beq (h : (p == q) = true) : p.Alike q := by
  change (p.x == q.x && p.y == q.y) = true at h
  obtain ⟨hx, hy⟩ := Bool.and_eq_true_iff.mp h
  exact ⟨.of_beq hx, .of_beq hy⟩

theorem Alike.beq (hfinite : p.IsFinite) (h : p.Alike q) : (p == q) = true :=
  Bool.and_eq_true_iff.mpr ⟨h.1.beq hfinite.1, h.2.beq hfinite.2⟩

theorem Alike.isFinite (h : p.Alike q) (hfinite : q.IsFinite) : p.IsFinite :=
  ⟨h.1.isFinite hfinite.1, h.2.isFinite hfinite.2⟩

theorem Alike.midpoint (hp : p.Alike p') (hq : q.Alike q') :
    (p.midpoint q).Alike (p'.midpoint q') :=
  ⟨(hp.1.add hq.1).half, (hp.2.add hq.2).half⟩

theorem Alike.distance_eq (hp : p.Alike p') (hq : q.Alike q') : p.distance q = p'.distance q' :=
  Binary64.Alike.hypot_eq (hq.1.sub hp.1) (hq.2.sub hp.2)

theorem distance_eq_zero_of_alike (hfinite : p.IsFinite) (h : p.Alike q) : p.distance q = 0 :=
  Binary64.hypot_of_isZero (Binary64.isZero_sub_of_alike hfinite.1 h.1)
    (Binary64.isZero_sub_of_alike hfinite.2 h.2)

end Point

/-- Curves that correspond have the same lengths, and so have their halves. -/
structure Curve.Congruence {κ α : Type} [Curve κ α] [Scalar α] (R : κ → κ → Prop) : Prop where
  polygonLength_eq : ∀ {c d}, R c d → Curve.polygonLength c = Curve.polygonLength d
  chord_eq : ∀ {c d}, R c d → Curve.chord c = Curve.chord d
  left : ∀ {c d}, R c d → R (Curve.split c).1 (Curve.split d).1
  right : ∀ {c d}, R c d → R (Curve.split c).2 (Curve.split d).2

def QuadraticCurve.Alike (c d : QuadraticCurve Float) : Prop :=
  c.start.Alike d.start ∧ c.control.Alike d.control ∧ c.finish.Alike d.finish

theorem QuadraticCurve.congruence_alike : Curve.Congruence QuadraticCurve.Alike where
  polygonLength_eq := fun ⟨hstart, hcontrol, hfinish⟩ =>
    congrArg₂ (· + ·) (hstart.distance_eq hcontrol) (hcontrol.distance_eq hfinish)
  chord_eq := fun ⟨hstart, _, hfinish⟩ => hstart.distance_eq hfinish
  left := fun ⟨hstart, hcontrol, hfinish⟩ =>
    ⟨hstart, hstart.midpoint hcontrol,
      (hstart.midpoint hcontrol).midpoint (hcontrol.midpoint hfinish)⟩
  right := fun ⟨hstart, hcontrol, hfinish⟩ =>
    ⟨(hstart.midpoint hcontrol).midpoint (hcontrol.midpoint hfinish),
      hcontrol.midpoint hfinish, hfinish⟩

def CubicCurve.Alike (c d : CubicCurve Float) : Prop :=
  c.start.Alike d.start ∧ c.control1.Alike d.control1 ∧ c.control2.Alike d.control2 ∧
    c.finish.Alike d.finish

theorem CubicCurve.alike_split {c d : CubicCurve Float} (h : c.Alike d) :
    c.split.1.Alike d.split.1 ∧ c.split.2.Alike d.split.2 := by
  obtain ⟨hstart, hcontrol1, hcontrol2, hfinish⟩ := h
  have hbetween := hcontrol1.midpoint hcontrol2
  have hleft1 := hstart.midpoint hcontrol1
  have hleft2 := hleft1.midpoint hbetween
  have hright2 := hcontrol2.midpoint hfinish
  have hright1 := hbetween.midpoint hright2
  have hjunction := hleft2.midpoint hright1
  exact ⟨⟨hstart, hleft1, hleft2, hjunction⟩, ⟨hjunction, hright1, hright2, hfinish⟩⟩

theorem CubicCurve.congruence_alike : Curve.Congruence CubicCurve.Alike where
  polygonLength_eq := fun ⟨hstart, hcontrol1, hcontrol2, hfinish⟩ =>
    congrArg₂ (· + ·)
      (congrArg₂ (· + ·) (hstart.distance_eq hcontrol1) (hcontrol1.distance_eq hcontrol2))
      (hcontrol2.distance_eq hfinish)
  chord_eq := fun ⟨hstart, _, _, hfinish⟩ => hstart.distance_eq hfinish
  left := fun h => (alike_split h).1
  right := fun h => (alike_split h).2

namespace Curve

variable {κ α : Type} [Curve κ α] [Scalar α] {R : κ → κ → Prop} {tolerance : α}
  {enough : α → Bool}

theorem Congruence.isFlat_eq (hR : Congruence R) {c d : κ} (h : R c d) :
    isFlat tolerance c = isFlat tolerance d := by
  rw [isFlat, isFlat, hR.polygonLength_eq h, hR.chord_eq h]

/-- Corresponding stacks are visited with the same sums. -/
theorem Congruence.rel_visit (hR : Congruence R) {budget : ℕ} {c d : κ} {later later' : List κ}
    {length : α} (h : R c d) (hlater : List.Forall₂ R later later') :
    Option.Rel (fun m n => m.length = n.length) (visit tolerance enough budget c later length)
      (visit tolerance enough budget d later' length) := by
  induction budget generalizing c d later later' length with
  | zero => exact .none
  | succ budget ih =>
      cases hflat : isFlat tolerance c with
      | false =>
          have hflat' := (hR.isFlat_eq h).symm.trans hflat
          rw [visit_of_not_flat hflat, visit_of_not_flat hflat']
          exact ih (hR.left h) (.cons (hR.right h) hlater)
      | true =>
          have hflat' := (hR.isFlat_eq h).symm.trans hflat
          have hlength := hR.polygonLength_eq h
          cases hcut : enough (length + polygonLength c) with
          | true =>
              have hcut' : enough (length + polygonLength d) = true := by rwa [← hlength]
              rw [visit_of_enough hflat hcut, visit_of_enough hflat' hcut', hlength]
              exact .some rfl
          | false =>
              have hcut' : enough (length + polygonLength d) = false := by rwa [← hlength]
              cases hlater with
              | nil =>
                  rw [visit_of_last hflat hcut, visit_of_last hflat' hcut', hlength]
                  exact .some rfl
              | cons hnext hrest =>
                  rw [visit_of_next hflat hcut, visit_of_next hflat' hcut', hlength]
                  exact ih hnext hrest

end Curve

namespace State

/-- Length walks with the same tolerance whose pens are alike. -/
structure Alike (s t : State Float) : Prop where
  goal_left : s.goal = .totalLength
  goal_right : t.goal = .totalLength
  tolerance_eq : s.tolerance = t.tolerance
  current : s.current.Alike t.current

variable {s t : State Float}

theorem passes_of_totalLength {α : Type} [Scalar α] {s : State α} (h : s.goal = .totalLength) :
    s.passes = Curve.never :=
  passes_of_not_isLengthQuery (by rw [isLengthQuery, h]; rfl)

theorem Alike.land {κ : Type} [Curve κ Float] (h : s.Alike t) (last last' : κ)
    (control1 control2 finish : Point Float) :
    (s.land last control1 control2 finish).Alike (t.land last' control1 control2 finish) where
  goal_left := h.goal_left
  goal_right := h.goal_right
  tolerance_eq := h.tolerance_eq
  current := by
    rw [land_current_of_not_query (by rw [isLengthQuery, h.goal_left]; rfl),
      land_current_of_not_query (by rw [isLengthQuery, h.goal_right]; rfl)]
    exact .refl finish

theorem Alike.rel_drawCurve {κ : Type} [Curve κ Float] {R : κ → κ → Prop} (h : s.Alike t)
    (hR : Curve.Congruence R) {c d : κ} (hcurves : R c d) (budget : ℕ)
    (control1 control2 finish : Point Float) :
    Option.Rel (fun r r' => r.1 = r'.1 ∧ r.2.Alike r'.2)
      (s.drawCurve budget c control1 control2 finish)
      (t.drawCurve budget d control1 control2 finish) := by
  rw [drawCurve, drawCurve, passes_of_totalLength h.goal_left, passes_of_totalLength h.goal_right,
    h.tolerance_eq]
  refine rel_map (hR.rel_visit hcurves .nil) ?_
  intro m n _ _ hlength
  exact ⟨hlength, h.land _ _ control1 control2 finish⟩

/-- From like states a stroke counts the same length and leaves like states. -/
theorem Alike.rel_draw (h : s.Alike t) (budget : ℕ) {e : Element Float}
    (hstroke : e.isStroke = true) :
    Option.Rel (fun r r' => r.1 = r'.1 ∧ r.2.Alike r'.2) (s.draw budget e) (t.draw budget e) := by
  cases e with
  | moveTo p => simp [Element.isStroke] at hstroke
  | lineTo p =>
      exact .some ⟨h.current.distance_eq (.refl p),
        h.goal_left, h.goal_right, h.tolerance_eq, .refl p⟩
  | quadTo c p =>
      rw [draw_quadTo, draw_quadTo]
      exact h.rel_drawCurve QuadraticCurve.congruence_alike
        ⟨h.current, .refl c, .refl p⟩ budget _ _ _
  | cubicTo c₁ c₂ p =>
      rw [draw_cubicTo, draw_cubicTo]
      exact h.rel_drawCurve CubicCurve.congruence_alike
        ⟨h.current, .refl c₁, .refl c₂, .refl p⟩ budget _ _ _
  | close => simp [Element.isStroke] at hstroke

end State

end ArcLength
