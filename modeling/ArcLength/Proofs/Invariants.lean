import Mathlib
import ArcLength.Proofs.Drawing
import ArcLength.Proofs.Itinerary
import ArcLength.Proofs.Simulation
import ArcLength.Proofs.Tour

/-!
# What drawing keeps

Elements may be drawn in any order and from any state. Drawing moves the five points of the state
and leaves the rest alone. The start of the subpath moves with a move only, and the pen comes to the
end of what is drawn, unless a query leaves it behind the flat piece on which it was cut.
-/

namespace ArcLength

open Filter

namespace Curve

variable {κ α : Type} [Curve κ α] [Scalar α] {tolerance : α} {enough : α → Bool}

/-- A flat piece of a curve: one that halving leads to, where all on the way are not flat. -/
inductive FlatPart (tolerance : α) : κ → κ → Prop where
  | whole {c : κ} (hflat : isFlat tolerance c = true) : FlatPart tolerance c c
  | half {c piece : κ} (side : Side) (hsplit : isFlat tolerance c = false)
      (hpart : FlatPart tolerance (half c side) piece) : FlatPart tolerance c piece

theorem FlatPart.mem_flatPieces {c piece : κ} (h : FlatPart tolerance c piece) {depth : ℕ}
    {ps : List κ} (hps : flatPieces tolerance depth c = some ps) : piece ∈ ps := by
  induction h generalizing depth ps with
  | whole hflat =>
      rw [flatPieces_of_flat hflat] at hps
      rw [← Option.some.inj hps]
      exact List.mem_singleton_self _
  | half side hsplit _ ih =>
      cases depth with
      | zero => simp [flatPieces, hsplit] at hps
      | succ depth =>
          obtain ⟨first, second, hfirst, hsecond, rfl⟩ :=
            (flatPieces_succ_of_not_flat hsplit).mp hps
          cases side with
          | left => exact List.mem_append_left second (ih hfirst)
          | right => exact List.mem_append_right first (ih hsecond)

/-- A point where a flat piece of a curve ends, which is one of those that recursion yields. -/
def IsFlatEnd (tolerance : α) (c : κ) (p : Point α) : Prop :=
  ∃ piece, FlatPart tolerance c piece ∧ finish piece = p ∧
    ∀ depth ps, flatPieces tolerance depth c = some ps → piece ∈ ps

theorem FlatPart.isFlatEnd {c piece : κ} (h : FlatPart tolerance c piece) :
    IsFlatEnd tolerance c (finish piece) :=
  ⟨piece, h, rfl, fun _ _ hps => h.mem_flatPieces hps⟩

theorem exists_flatPart_of_visit {budget : ℕ} {piece : κ} {later : List κ} {length : α}
    {m : Measured κ α} (h : visit tolerance enough budget piece later length = some m) :
    ∃ c ∈ piece :: later, FlatPart tolerance c m.last := by
  induction budget generalizing piece later length with
  | zero => simp [visit] at h
  | succ budget ih =>
      cases hflat : isFlat tolerance piece with
      | false =>
          rw [visit_of_not_flat hflat] at h
          obtain ⟨c, hc, hpart⟩ := ih h
          rw [List.mem_cons, List.mem_cons] at hc
          obtain rfl | rfl | hlater := hc
          · exact ⟨piece, List.mem_cons_self, .half .left hflat hpart⟩
          · exact ⟨piece, List.mem_cons_self, .half .right hflat hpart⟩
          · exact ⟨c, List.mem_cons_of_mem piece hlater, hpart⟩
      | true =>
          cases hcut : enough (length + polygonLength piece) with
          | true =>
              rw [visit_of_enough hflat hcut] at h
              obtain rfl := Option.some.inj h
              exact ⟨piece, List.mem_cons_self, .whole hflat⟩
          | false =>
              cases later with
              | nil =>
                  rw [visit_of_last hflat hcut] at h
                  obtain rfl := Option.some.inj h
                  exact ⟨piece, List.mem_cons_self, .whole hflat⟩
              | cons next later =>
                  rw [visit_of_next hflat hcut] at h
                  obtain ⟨c, hc, hpart⟩ := ih h
                  exact ⟨c, List.mem_cons_of_mem piece hc, hpart⟩

theorem flatPart_of_measure {budget : ℕ} {c : κ} {m : Measured κ α}
    (h : measure budget tolerance enough c = some m) : FlatPart tolerance c m.last := by
  obtain ⟨d, hd, hpart⟩ := exists_flatPart_of_visit h
  rwa [List.mem_singleton.mp hd] at hpart

/-- A visit that ends comes to the same with one more step in its budget. -/
theorem visit_succ {budget : ℕ} {piece : κ} {later : List κ} {length : α} {m : Measured κ α}
    (h : visit tolerance enough budget piece later length = some m) :
    visit tolerance enough (budget + 1) piece later length = some m := by
  induction budget generalizing piece later length with
  | zero => simp [visit] at h
  | succ budget ih =>
      cases hflat : isFlat tolerance piece with
      | false =>
          rw [visit_of_not_flat hflat] at h ⊢
          exact ih h
      | true =>
          cases hcut : enough (length + polygonLength piece) with
          | true => rwa [visit_of_enough hflat hcut] at h ⊢
          | false =>
              cases later with
              | nil => rwa [visit_of_last hflat hcut] at h ⊢
              | cons next later =>
                  rw [visit_of_next hflat hcut] at h ⊢
                  exact ih h

theorem measure_of_le {budget budget' : ℕ} (hle : budget ≤ budget') {c : κ} {m : Measured κ α}
    (h : measure budget tolerance enough c = some m) :
    measure budget' tolerance enough c = some m := by
  induction budget', hle using Nat.le_induction with
  | base => exact h
  | succ budget' _ ih => exact visit_succ ih

end Curve

namespace State

theorem exists_eventually_drawCurve {κ : Type} [Curve κ ℝ] [Curve.Planar κ] {s : State ℝ}
    (htolerance : 0 < s.tolerance) (c : κ) (control1 control2 finish : Point ℝ) :
    ∃ r, ∀ᶠ budget in atTop, s.drawCurve budget c control1 control2 finish = some r := by
  obtain ⟨budget₀, hmeasured⟩ := (Curve.eventually_measuredAs htolerance c).exists
  obtain ⟨before, last, after, -, hmeasure⟩ := hmeasured s.passes
  refine ⟨(Curve.total 0 (before ++ [last]), s.land last control1 control2 finish), ?_⟩
  filter_upwards [eventually_ge_atTop budget₀] with budget hle
  rw [drawCurve, Curve.measure_of_le hle hmeasure]
  rfl

theorem exists_eventually_draw {s : State ℝ} (htolerance : 0 < s.tolerance) (e : Element ℝ) :
    ∃ r, ∀ᶠ budget in atTop, s.draw budget e = some r := by
  cases e with
  | moveTo p => exact ⟨_, Eventually.of_forall fun _ => rfl⟩
  | lineTo p => exact ⟨_, Eventually.of_forall fun _ => rfl⟩
  | quadTo c p =>
      simp only [draw_quadTo]
      exact exists_eventually_drawCurve htolerance _ _ _ _
  | cubicTo c₁ c₂ p =>
      simp only [draw_cubicTo]
      exact exists_eventually_drawCurve htolerance _ _ _ _
  | close => exact ⟨_, Eventually.of_forall fun _ => rfl⟩

/-- For a tolerance above zero drawing ends, and every large budget comes to the same. -/
theorem exists_eventually_drawAll {s : State ℝ} (htolerance : 0 < s.tolerance)
    (es : List (Element ℝ)) : ∃ r, ∀ᶠ budget in atTop, s.drawAll budget es = some r := by
  induction es generalizing s with
  | nil => exact ⟨_, Eventually.of_forall fun _ => rfl⟩
  | cons e rest ih =>
      obtain ⟨⟨length, s₁⟩, hdraw⟩ := exists_eventually_draw htolerance e
      obtain ⟨budget₀, hdraw₀⟩ := hdraw.exists
      rw [← tolerance_of_draw hdraw₀] at htolerance
      obtain ⟨⟨lengths, t⟩, hrest⟩ := ih htolerance
      refine ⟨(length :: lengths, t), ?_⟩
      filter_upwards [hdraw, hrest] with budget hfirst hlater
      rw [drawAll, hfirst, Option.bind_some, hlater]
      rfl

section Draw

variable {α : Type} [Scalar α] {budget : ℕ} {s t : State α} {e : Element α} {length : α}

theorem subpathStart_of_draw (h : s.draw budget e = some (length, t)) (hmove : e.isMove = false) :
    t.subpathStart = s.subpathStart := by
  cases e with
  | moveTo p => simp [Element.isMove] at hmove
  | lineTo p =>
      obtain ⟨-, rfl⟩ := Prod.mk.inj (Option.some.inj h)
      rfl
  | quadTo c p =>
      rw [draw_quadTo] at h
      obtain ⟨m, -, -, rfl⟩ := exists_measure_of_drawCurve h
      rfl
  | cubicTo c₁ c₂ p =>
      rw [draw_cubicTo] at h
      obtain ⟨m, -, -, rfl⟩ := exists_measure_of_drawCurve h
      rfl
  | close =>
      obtain ⟨-, rfl⟩ := Prod.mk.inj (Option.some.inj h)
      rfl

theorem draw_totalLength (hs : s.goal = .totalLength) (h : s.draw budget e = some (length, t)) :
    t.previous = s.previous ∧ t.current = s.target e := by
  have hquery : s.isLengthQuery = false := by rw [isLengthQuery, hs]; rfl
  cases e with
  | moveTo p =>
      obtain ⟨-, rfl⟩ := Prod.mk.inj (Option.some.inj h)
      exact ⟨rfl, rfl⟩
  | lineTo p =>
      obtain ⟨-, rfl⟩ := Prod.mk.inj (Option.some.inj h)
      exact ⟨rfl, rfl⟩
  | quadTo c p =>
      rw [draw_quadTo] at h
      obtain ⟨m, -, -, rfl⟩ := exists_measure_of_drawCurve h
      exact ⟨by simp [land, hquery], land_current_of_not_query hquery⟩
  | cubicTo c₁ c₂ p =>
      rw [draw_cubicTo] at h
      obtain ⟨m, -, -, rfl⟩ := exists_measure_of_drawCurve h
      exact ⟨by simp [land, hquery], land_current_of_not_query hquery⟩
  | close =>
      obtain ⟨-, rfl⟩ := Prod.mk.inj (Option.some.inj h)
      exact ⟨rfl, rfl⟩

theorem isFlatEnd_of_drawCurve {κ : Type} [Curve κ α] {c : κ} {control1 control2 finish : Point α}
    (hquery : s.isLengthQuery = true)
    (h : s.drawCurve budget c control1 control2 finish = some (length, t)) :
    Curve.IsFlatEnd s.tolerance c t.current := by
  obtain ⟨m, hmeasure, -, rfl⟩ := exists_measure_of_drawCurve h
  rw [land_current_of_query hquery]
  exact (Curve.flatPart_of_measure hmeasure).isFlatEnd

end Draw

/-- What drawing one element does. The first points coincide behind a move or a close, so that a
second close changes nothing; the pen of a length walk comes to the end of the element, and that of
a query to the end of one of its flat pieces. -/
structure Drawn (s : State ℝ) (e : Element ℝ) (length : ℝ) (t : State ℝ) : Prop where
  length_nonneg : 0 ≤ length
  at_subpathStart : e.isMove = true ∨ e = .close → t.current = t.subpathStart ∧
    t.lastControl1 = t.subpathStart ∧ t.lastControl2 = t.subpathStart ∧
    ∀ budget, t.draw budget .close = some (0, t)
  of_totalLength : s.goal = .totalLength → t.previous = s.previous ∧ t.current = s.target e
  on_quadratic : s.isLengthQuery = true → ∀ control finish, e = .quadTo control finish →
    Curve.IsFlatEnd s.tolerance (QuadraticCurve.mk s.current control finish) t.current
  on_cubic : s.isLengthQuery = true → ∀ control1 control2 finish,
    e = .cubicTo control1 control2 finish →
    Curve.IsFlatEnd s.tolerance (CubicCurve.mk s.current control1 control2 finish) t.current
  of_not_past : s.isLengthQuery = true → s.totalLength + length ≤ s.desiredLength →
    t.current = s.target e

section Exact

variable {budget : ℕ} {s t : State ℝ} {e : Element ℝ} {es : List (Element ℝ)} {length : ℝ}
  {lengths : List ℝ}

theorem drawCurve_length_nonneg {κ : Type} [Curve κ ℝ] [Curve.Planar κ] {c : κ}
    {control1 control2 finish : Point ℝ}
    (h : s.drawCurve budget c control1 control2 finish = some (length, t)) : 0 ≤ length := by
  obtain ⟨m, hmeasure, rfl, -⟩ := exists_measure_of_drawCurve h
  rw [← (Curve.total_met hmeasure).1, total_eq_walked, zero_add]
  exact walked_nonneg _

theorem draw_length_nonneg (h : s.draw budget e = some (length, t)) : 0 ≤ length := by
  cases e with
  | moveTo p =>
      obtain ⟨rfl, -⟩ := Prod.mk.inj (Option.some.inj h)
      exact le_rfl
  | lineTo p =>
      obtain ⟨rfl, -⟩ := Prod.mk.inj (Option.some.inj h)
      exact Point.distance_nonneg _ _
  | quadTo c p =>
      rw [draw_quadTo] at h
      exact drawCurve_length_nonneg h
  | cubicTo c₁ c₂ p =>
      rw [draw_cubicTo] at h
      exact drawCurve_length_nonneg h
  | close =>
      obtain ⟨rfl, -⟩ := Prod.mk.inj (Option.some.inj h)
      exact Point.distance_nonneg _ _

theorem draw_close_of_at_subpathStart (hcurrent : t.current = t.subpathStart)
    (hcontrol1 : t.lastControl1 = t.subpathStart) (hcontrol2 : t.lastControl2 = t.subpathStart) :
    t.draw budget .close = some (0, t) := by
  have hlength : t.current.distance t.subpathStart = 0 := by rw [hcurrent, Point.distance_self]
  have hstate : { t with
      current := t.subpathStart, lastControl1 := t.subpathStart,
      lastControl2 := t.subpathStart } = t :=
    State.ext rfl rfl rfl rfl hcurrent.symm rfl rfl hcontrol1.symm hcontrol2.symm rfl rfl rfl
  rw [draw, closeSubpath, hlength, hstate]

theorem points_of_draw (h : s.draw budget e = some (length, t))
    (he : e.isMove = true ∨ e = .close) : t.current = t.subpathStart ∧
      t.lastControl1 = t.subpathStart ∧ t.lastControl2 = t.subpathStart := by
  cases e with
  | moveTo p =>
      obtain ⟨-, rfl⟩ := Prod.mk.inj (Option.some.inj h)
      exact ⟨rfl, rfl, rfl⟩
  | close =>
      obtain ⟨-, rfl⟩ := Prod.mk.inj (Option.some.inj h)
      exact ⟨rfl, rfl, rfl⟩
  | lineTo p => simp [Element.isMove] at he
  | quadTo c p => simp [Element.isMove] at he
  | cubicTo c₁ c₂ p => simp [Element.isMove] at he

theorem drawn_of_draw (h : s.draw budget e = some (length, t)) : s.Drawn e length t where
  length_nonneg := draw_length_nonneg h
  at_subpathStart he := by
    obtain ⟨hcurrent, hcontrol1, hcontrol2⟩ := points_of_draw h he
    exact ⟨hcurrent, hcontrol1, hcontrol2,
      fun _ => draw_close_of_at_subpathStart hcurrent hcontrol1 hcontrol2⟩
  of_totalLength hs := draw_totalLength hs h
  on_quadratic hquery control finish he := by
    rw [he, draw_quadTo] at h
    exact isFlatEnd_of_drawCurve hquery h
  on_cubic hquery control1 control2 finish he := by
    rw [he, draw_cubicTo] at h
    exact isFlatEnd_of_drawCurve hquery h
  of_not_past hquery hle := by
    have hfollows : s.Follows { s with goal := .totalLength } := rfl
    have huncut : s.passes length = false := by
      rw [passes, hquery, Bool.true_and, decide_eq_false_iff_not]
      exact not_lt.mpr hle
    exact (hfollows.draw_of_uncut hquery rfl h (Or.inl huncut)).2

/-- The second state is the first one but for its five points. -/
def MovesPoints (s t : State ℝ) : Prop :=
  t = { s with
    current := t.current, previous := t.previous, subpathStart := t.subpathStart,
    lastControl1 := t.lastControl1, lastControl2 := t.lastControl2 }

theorem exists_of_drawAll_cons (h : s.drawAll budget (e :: es) = some (lengths, t)) :
    ∃ length u later, s.draw budget e = some (length, u) ∧
      u.drawAll budget es = some (later, t) ∧ lengths = length :: later := by
  obtain ⟨⟨length, u⟩, hdraw, hrest⟩ := Option.bind_eq_some_iff.mp h
  obtain ⟨⟨later, t'⟩, hlater, heq⟩ := Option.map_eq_some_iff.mp hrest
  obtain ⟨rfl, rfl⟩ := Prod.mk.inj heq
  exact ⟨length, u, later, hdraw, hlater, rfl⟩

theorem exists_of_drawAll_append {before after : List (Element ℝ)}
    (h : s.drawAll budget (before ++ after) = some (lengths, t)) :
    ∃ first u later, s.drawAll budget before = some (first, u) ∧
      u.drawAll budget after = some (later, t) ∧ lengths = first ++ later := by
  rw [drawAll_append] at h
  obtain ⟨⟨first, u⟩, hfirst, hrest⟩ := Option.bind_eq_some_iff.mp h
  obtain ⟨⟨later, t'⟩, hlater, heq⟩ := Option.map_eq_some_iff.mp hrest
  obtain ⟨rfl, rfl⟩ := Prod.mk.inj heq
  exact ⟨first, u, later, hfirst, hlater, rfl⟩

theorem movesPoints_of_drawAll (h : s.drawAll budget es = some (lengths, t)) :
    s.MovesPoints t := by
  rw [MovesPoints]
  induction es generalizing s lengths with
  | nil =>
      obtain ⟨-, rfl⟩ := Prod.mk.inj (Option.some.inj h)
      rfl
  | cons e rest ih =>
      obtain ⟨length, u, later, hdraw, hlater, -⟩ := exists_of_drawAll_cons h
      rw [ih hlater, draw_frame hdraw]

theorem lengths_of_drawAll (h : s.drawAll budget es = some (lengths, t)) :
    lengths.length = es.length ∧ ∀ length ∈ lengths, 0 ≤ length := by
  induction es generalizing s lengths with
  | nil =>
      obtain ⟨rfl, -⟩ := Prod.mk.inj (Option.some.inj h)
      simp
  | cons e rest ih =>
      obtain ⟨length, u, later, hdraw, hlater, rfl⟩ := exists_of_drawAll_cons h
      obtain ⟨hcount, hnonneg⟩ := ih hlater
      refine ⟨by simp [hcount], ?_⟩
      intro l hl
      rcases List.mem_cons.mp hl with rfl | hmem
      · exact draw_length_nonneg hdraw
      · exact hnonneg l hmem

theorem subpathStart_of_drawAll (h : s.drawAll budget es = some (lengths, t))
    (hmoves : ∀ e ∈ es, e.isMove = false) : t.subpathStart = s.subpathStart := by
  induction es generalizing s lengths with
  | nil =>
      obtain ⟨-, rfl⟩ := Prod.mk.inj (Option.some.inj h)
      rfl
  | cons e rest ih =>
      obtain ⟨length, u, later, hdraw, hlater, -⟩ := exists_of_drawAll_cons h
      rw [ih hlater fun f hf => hmoves f (List.mem_cons_of_mem e hf),
        subpathStart_of_draw hdraw (hmoves e List.mem_cons_self)]

theorem subpathStart_of_drawAll_move {p : Point ℝ} {before after : List (Element ℝ)}
    (h : s.drawAll budget (before ++ .moveTo p :: after) = some (lengths, t))
    (hmoves : ∀ e ∈ after, e.isMove = false) : t.subpathStart = p := by
  obtain ⟨first, r, later, -, hrest, -⟩ := exists_of_drawAll_append h
  obtain ⟨length, u, later, hdraw, hlater, -⟩ := exists_of_drawAll_cons hrest
  obtain ⟨-, rfl⟩ := Prod.mk.inj (Option.some.inj hdraw)
  exact subpathStart_of_drawAll hlater hmoves

theorem previous_of_drawAll (hs : s.goal = .totalLength)
    (h : s.drawAll budget es = some (lengths, t)) : t.previous = s.previous := by
  induction es generalizing s lengths with
  | nil =>
      obtain ⟨-, rfl⟩ := Prod.mk.inj (Option.some.inj h)
      rfl
  | cons e rest ih =>
      obtain ⟨length, u, later, hdraw, hlater, -⟩ := exists_of_drawAll_cons h
      rw [ih ((goal_of_draw hdraw).trans hs) hlater, (draw_totalLength hs hdraw).1]

end Exact

/-- What a sequence of elements keeps that is drawn from `s` to `t`. -/
structure Keeps (budget : ℕ) (s : State ℝ) (es : List (Element ℝ)) (lengths : List ℝ)
    (t : State ℝ) : Prop where
  movesPoints : s.MovesPoints t
  subpathStart_of_move : ∀ before p after, es = before ++ .moveTo p :: after →
    (∀ e ∈ after, e.isMove = false) → t.subpathStart = p
  subpathStart_of_no_move : (∀ e ∈ es, e.isMove = false) → t.subpathStart = s.subpathStart
  length_eq : lengths.length = es.length
  lengths_nonneg : ∀ length ∈ lengths, 0 ≤ length
  previous_of_totalLength : s.goal = .totalLength → t.previous = s.previous
  drawn : ∀ before e after, es = before ++ e :: after → ∃ first r length u later,
    s.drawAll budget before = some (first, r) ∧ s.MovesPoints r ∧
      r.draw budget e = some (length, u) ∧ r.Drawn e length u ∧
      u.drawAll budget after = some (later, t) ∧ lengths = first ++ length :: later

/-- **What drawing keeps.** From every state any sequence of elements may be drawn. For a tolerance
above zero drawing ends, with one result for every large budget. Wherever it ends, only the five
points have changed. The start of the subpath is the point of the latest move, or else what it was,
no length is negative, and a length walk keeps its previous point. Each element on the way is drawn
as `Drawn` has it. -/
theorem drawAll_keeps_invariants (s : State ℝ) (es : List (Element ℝ)) :
    (0 < s.tolerance → ∃ r, ∀ᶠ budget in atTop, s.drawAll budget es = some r) ∧
    ∀ budget lengths t, s.drawAll budget es = some (lengths, t) →
      s.Keeps budget es lengths t := by
  refine ⟨fun htolerance => exists_eventually_drawAll htolerance es, ?_⟩
  intro budget lengths t h
  obtain ⟨hcount, hnonneg⟩ := lengths_of_drawAll h
  refine ⟨movesPoints_of_drawAll h, ?_, subpathStart_of_drawAll h, hcount, hnonneg,
    fun hs => previous_of_drawAll hs h, ?_⟩
  · rintro before p after rfl hmoves
    exact subpathStart_of_drawAll_move h hmoves
  · rintro before e after rfl
    obtain ⟨first, r, rest, hfirst, hrest, rfl⟩ := exists_of_drawAll_append h
    obtain ⟨length, u, later, hdraw, hlater, rfl⟩ := exists_of_drawAll_cons hrest
    exact ⟨first, r, length, u, later, hfirst, movesPoints_of_drawAll hfirst, hdraw,
      drawn_of_draw hdraw, hlater, rfl⟩

/-- A point query over an arch that is closed: the close leads back to where the arch began, and a
second close would change nothing. -/
theorem drawAll_keeps_invariants_closedArch :
    ∃ budget lengths t, (State.initial .pointAtLength (1 : ℝ) 1).drawAll budget
        [.moveTo ⟨3, 0⟩, .quadTo ⟨1, 1⟩ ⟨2, 0⟩, .close] = some (lengths, t) ∧
      t.subpathStart = ⟨3, 0⟩ ∧ t.current = ⟨3, 0⟩ ∧ t.draw budget .close = some (0, t) ∧
      (∀ length ∈ lengths, 0 ≤ length) := by
  obtain ⟨hends, hkeeps⟩ := drawAll_keeps_invariants (State.initial .pointAtLength (1 : ℝ) 1)
    [.moveTo ⟨3, 0⟩, .quadTo ⟨1, 1⟩ ⟨2, 0⟩, .close]
  obtain ⟨⟨lengths, t⟩, hdraws⟩ := hends zero_lt_one
  obtain ⟨budget, hdraw⟩ := hdraws.exists
  have hkept := hkeeps budget lengths t hdraw
  have hstart : t.subpathStart = ⟨3, 0⟩ :=
    hkept.subpathStart_of_move [] ⟨3, 0⟩ [.quadTo ⟨1, 1⟩ ⟨2, 0⟩, .close] rfl
      (by simp [Element.isMove])
  obtain ⟨_, _, _, u, _, -, -, -, hdrawn, hlast, -⟩ :=
    hkept.drawn [.moveTo ⟨3, 0⟩, .quadTo ⟨1, 1⟩ ⟨2, 0⟩] .close [] rfl
  obtain ⟨-, rfl⟩ := Prod.mk.inj (Option.some.inj hlast)
  obtain ⟨hcurrent, -, -, hclose⟩ := hdrawn.at_subpathStart (Or.inr rfl)
  exact ⟨budget, lengths, u, hdraw, hstart, hcurrent.trans hstart, hclose budget,
    hkept.lengths_nonneg⟩

end State

end ArcLength
