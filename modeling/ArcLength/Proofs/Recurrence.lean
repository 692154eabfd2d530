import Mathlib
import ArcLength.Binary64
import ArcLength.Proofs.Budget
import ArcLength.Proofs.Steps

/-!
# Subdivision in finite arithmetic

Midpoints of doubles are rounded, so a half need not be smaller than the piece. There are only
finitely many doubles. So the subdivision of a curve goes on for ever exactly if a piece that has to
be split comes back among its own halves, and there are curves on which it does.
-/

namespace ArcLength

namespace Curve

variable {κ α : Type} [Curve κ α] [Scalar α] {tolerance : α} {c : κ}

/-- A piece that has to be split is met again among its own halves. -/
def Recurs (tolerance : α) (c : κ) : Prop :=
  ∃ w v : List Side, v ≠ [] ∧ SplitsAlong tolerance c (w ++ v) ∧
    descend c (w ++ v) = descend c w

theorem splitsAlong_take {w : List Side} (h : SplitsAlong tolerance c w) (k : ℕ) :
    SplitsAlong tolerance c (w.take k) := by
  induction w generalizing c k with
  | nil => simpa using h
  | cons side w ih =>
      cases k with
      | zero => exact h.1
      | succ k => exact ⟨h.1, ih h.2 k⟩

/-- The way back to a piece can be gone any number of times. -/
theorem Recurs.exists_splitsAlong (h : Recurs tolerance c) (depth : ℕ) :
    ∃ u : List Side, u.length = depth ∧ SplitsAlong tolerance c u := by
  obtain ⟨w, v, hne, hsplits, hback⟩ := h
  rw [splitsAlong_append hne] at hsplits
  rw [descend_append] at hback
  have hround : ∀ n : ℕ, ∃ u : List Side, n < u.length ∧ SplitsAlong tolerance (descend c w) u := by
    intro n
    induction n with
    | zero => exact ⟨v, List.length_pos_iff.mpr hne, hsplits.2⟩
    | succ n ih =>
        obtain ⟨u, hlength, hu⟩ := ih
        have hu' : u ≠ [] := List.length_pos_iff.mp (Nat.zero_lt_of_lt hlength)
        refine ⟨v ++ u, ?_, (splitsAlong_append hu').mpr ⟨hsplits.2, by rwa [hback]⟩⟩
        have hpos : 0 < v.length := List.length_pos_iff.mpr hne
        rw [List.length_append]
        omega
  obtain ⟨u, hlength, hu⟩ := hround depth
  have hu' : u ≠ [] := List.length_pos_iff.mp (Nat.zero_lt_of_lt hlength)
  refine ⟨(w ++ u).take depth, ?_, splitsAlong_take ?_ depth⟩
  · rw [List.length_take, List.length_append]
    omega
  · exact (splitsAlong_append hu').mpr ⟨hsplits.1, hu⟩

/-- Among finitely many pieces a way of splits that is long enough passes one of them twice. -/
theorem recurs_of_exists_splitsAlong [Finite κ]
    (h : ∀ depth : ℕ, ∃ u : List Side, u.length = depth ∧ SplitsAlong tolerance c u) :
    Recurs tolerance c := by
  have := Fintype.ofFinite κ
  obtain ⟨u, hlength, hu⟩ := h (Fintype.card κ)
  obtain ⟨i, j, hne, hsame⟩ := Fintype.exists_ne_map_eq_of_card_lt
    (fun i : Fin (Fintype.card κ + 1) => descend c (u.take i)) (by simp)
  have hrecurs : ∀ i j : ℕ, i < j → j ≤ u.length →
      descend c (u.take j) = descend c (u.take i) → Recurs tolerance c := by
    intro i j hlt hle hback
    have hjoin : u.take i ++ (u.take j).drop i = u.take j := by
      have htake : (u.take j).take i = u.take i := by
        rw [List.take_take, min_eq_left hlt.le]
      rw [← htake]
      exact List.take_append_drop i (u.take j)
    refine ⟨u.take i, (u.take j).drop i, ?_, ?_, ?_⟩
    · rw [← List.length_pos_iff, List.length_drop, List.length_take]
      omega
    · rw [hjoin]
      exact splitsAlong_take hu j
    · rw [hjoin]
      exact hback
  have hi := i.isLt
  have hj := j.isLt
  rcases Nat.lt_or_gt_of_ne (Fin.val_ne_of_ne hne) with hlt | hlt
  · exact hrecurs i j hlt (by omega) hsame.symm
  · exact hrecurs j i hlt (by omega) hsame

/-- Among finitely many pieces, either no piece recurs and every measure ends within one number of
steps, or the measure that is never cut does not end. -/
theorem recurs_or_exists_measure [Finite κ] (tolerance : α) (c : κ) :
    (Recurs tolerance c ∧ ∀ budget, measure budget tolerance never c = none) ∨
      (¬ Recurs tolerance c ∧ ∃ steps, ∀ budget, steps ≤ budget →
        ∀ enough : α → Bool, ∃ m, measure budget tolerance enough c = some m) := by
  by_cases hrecurs : Recurs tolerance c
  · refine Or.inl ⟨hrecurs, ?_⟩
    intro budget
    by_contra hends
    obtain ⟨m, hm⟩ := Option.ne_none_iff_exists'.mp hends
    obtain ⟨depth, hdepth⟩ := exists_measure_never_iff.mp ⟨budget, m, hm⟩
    obtain ⟨u, hlength, hu⟩ := hrecurs.exists_splitsAlong depth
    exact hdepth u hlength hu
  · refine Or.inr ⟨hrecurs, ?_⟩
    have hflat : ∃ depth, flatPieces tolerance depth c ≠ none := by
      by_contra hnone
      apply hrecurs
      apply recurs_of_exists_splitsAlong
      intro depth
      exact flatPieces_eq_none_iff.mp (not_not.mp fun h => hnone ⟨depth, h⟩)
    obtain ⟨depth, hdepth⟩ := hflat
    obtain ⟨ps, hps⟩ := Option.ne_none_iff_exists'.mp hdepth
    exact ⟨_, fun budget hbudget enough => exists_measure_of_flatPieces hps hbudget enough⟩

/-- A curve that is its own right half, behind a flat left half that adds nothing, is visited again
and again. -/
theorem measure_eq_none_of_right_half {enough : α → Bool} (hflat : isFlat tolerance c = false)
    (hright : (split c).2 = c) (hleft : isFlat tolerance (split c).1 = true)
    (hadds : 0 + polygonLength (split c).1 = (0 : α)) (hopen : enough 0 = false) (budget : ℕ) :
    measure budget tolerance enough c = none := by
  -- two steps lead back to the same stack and the same sum
  have hround : ∀ n, visit tolerance enough (n + 2) c [] 0 = visit tolerance enough n c [] 0 := by
    intro n
    rw [visit_of_not_flat hflat, visit_of_next hleft (by rw [hadds]; exact hopen), hright, hadds]
  have hnone : ∀ n, visit tolerance enough n c [] 0 = none ∧
      visit tolerance enough (n + 1) c [] 0 = none := by
    intro n
    induction n with
    | zero =>
        refine ⟨rfl, ?_⟩
        rw [visit_of_not_flat hflat]
        rfl
    | succ n ih => exact ⟨ih.2, by rw [hround]; exact ih.1⟩
  exact (hnone budget).1

end Curve

instance finite_float : Finite Float :=
  Finite.of_injective Float.toBits fun _ _ h => Float.toBits_inj.mp h

instance {α : Type} [Finite α] : Finite (Point α) :=
  Finite.of_injective (fun p => (p.x, p.y)) fun p q h => by
    obtain ⟨hx, hy⟩ := Prod.mk.inj h
    exact Point.ext hx hy

instance {α : Type} [Finite α] : Finite (QuadraticCurve α) :=
  Finite.of_injective (fun c => (c.start, c.control, c.finish)) fun c d h => by
    simp only [Prod.mk.injEq] at h
    exact QuadraticCurve.ext h.1 h.2.1 h.2.2

instance {α : Type} [Finite α] : Finite (CubicCurve α) :=
  Finite.of_injective (fun c => (c.start, c.control1, c.control2, c.finish)) fun c d h => by
    simp only [Prod.mk.injEq] at h
    exact CubicCurve.ext h.1 h.2.1 h.2.2.1 h.2.2.2

namespace State

open Curve

/-- Measuring a curve ends if no piece recurs, and never ends for the whole length if one does. -/
def EndsUnlessRecurring {κ : Type} [Curve κ Float] (s : State Float) (c : κ) : Prop :=
  (¬ Recurs s.tolerance c → ∃ steps, ∀ budget, steps ≤ budget →
    ∃ length t, s.curveLength budget c = some (length, t)) ∧
  (Recurs s.tolerance c → s.goal = .totalLength → ∀ budget, s.curveLength budget c = none)

theorem endsUnlessRecurring_of_finite {κ : Type} [Curve κ Float] [Finite κ] (s : State Float)
    (c : κ) : s.EndsUnlessRecurring c := by
  obtain ⟨hrecurs, hnone⟩ | ⟨hnot, steps, hsteps⟩ := recurs_or_exists_measure s.tolerance c
  · refine ⟨fun h => absurd hrecurs h, ?_⟩
    intro _ hgoal budget
    have hquery : s.isLengthQuery = false := by rw [isLengthQuery, hgoal]; rfl
    rw [curveLength_eq, passes_of_not_isLengthQuery hquery, hnone]
    rfl
  · refine ⟨fun _ => ⟨steps, ?_⟩, fun h => absurd h hnot⟩
    intro budget hbudget
    obtain ⟨m, hm⟩ := hsteps budget hbudget s.passes
    rw [curveLength_eq, hm]
    exact ⟨_, _, rfl⟩

/-- **In binary64 subdivision ends unless a piece recurs.** For every quadratic and cubic and every
tolerance, a measure of any kind ends if no piece that has to be split comes back among its own
halves. If one does, the whole length is never found. -/
theorem curveLength_ends_unless_recurring (s : State Float) :
    (∀ c : QuadraticCurve Float, s.EndsUnlessRecurring c) ∧
      ∀ c : CubicCurve Float, s.EndsUnlessRecurring c :=
  ⟨s.endsUnlessRecurring_of_finite, s.endsUnlessRecurring_of_finite⟩

end State

/-- A corner between `2 ^ 53` and the next double. The sums of neighbours are rounded down to the
even one, so the right half is the corner again. -/
def neighbourCorner : QuadraticCurve Float :=
  ⟨⟨9007199254740992, 9007199254740992⟩, ⟨9007199254740992, 9007199254740994⟩,
    ⟨9007199254740994, 9007199254740994⟩⟩

/-- Neither the whole length of the corner nor a query at its start is ever found. -/
theorem State.curveLength_neighbourCorner :
    (∀ p ∈ [neighbourCorner.start, neighbourCorner.control, neighbourCorner.finish],
      p.x.isFinite = true ∧ p.y.isFinite = true) ∧
    (0 : Float) < defaultTolerance ∧
    ∀ (goal : Goal) (budget : ℕ),
      (State.initial goal 0 defaultTolerance).curveLength budget neighbourCorner = none := by
  refine ⟨by decide +kernel, by decide +kernel, ?_⟩
  intro goal budget
  have hopen : (State.initial goal (0 : Float) defaultTolerance).passes 0 = false := by
    cases goal <;> decide +kernel
  have hnone : Curve.measure budget defaultTolerance
      (State.initial goal 0 defaultTolerance).passes neighbourCorner = none :=
    Curve.measure_eq_none_of_right_half (by decide +kernel) (by decide +kernel)
      (by decide +kernel) (by decide +kernel) hopen budget
  rw [State.curveLength_eq]
  exact congrArg (Option.map _) hnone

end ArcLength
