import ArcLength.Path.Walk
import ArcLength.Proofs.Visit

/-!
# Steps of a walk

What drawing an element, entering it and walking it do to a state, for every goal at once. Later
proofs use these equations and do not open the definitions.
-/

namespace ArcLength.State

variable {α : Type} [Scalar α]

theorem passes_of_not_isLengthQuery {s : State α} (h : s.isLengthQuery = false) :
    s.passes = Curve.never := by
  funext length
  simp [passes, h]

/-- The state after a curve: a query rests on the last piece met. -/
def land {κ : Type} [Curve κ α] (s : State α) (last : κ) (control1 control2 finish : Point α) :
    State α :=
  { s with
    previous := if s.isLengthQuery then Curve.start last else s.previous
    current := if s.isLengthQuery then Curve.finish last else finish
    lastControl1 := control1
    lastControl2 := control2 }

section Land

variable {κ : Type} [Curve κ α] {s : State α} {last : κ} {control1 control2 finish : Point α}

omit [Scalar α] in
theorem land_current_of_query (h : s.isLengthQuery = true) :
    (s.land last control1 control2 finish).current = Curve.finish last := if_pos h

omit [Scalar α] in
theorem land_previous_of_query (h : s.isLengthQuery = true) :
    (s.land last control1 control2 finish).previous = Curve.start last := if_pos h

omit [Scalar α] in
theorem land_current_of_not_query (h : s.isLengthQuery = false) :
    (s.land last control1 control2 finish).current = finish := by
  simp [land, h]

end Land

theorem curveLength_eq {κ : Type} [Curve κ α] (budget : Nat) (s : State α) (c : κ) :
    s.curveLength budget c =
      (Curve.measure budget s.tolerance s.passes c).map fun m =>
        (m.length, s.land m.last s.lastControl1 s.lastControl2 s.current) := by
  unfold curveLength
  cases Curve.measure budget s.tolerance s.passes c with
  | none => rfl
  | some m => cases hquery : s.isLengthQuery <;> simp [land, hquery]

/-- Draws a curve and leaves control points behind. Quadratics and cubics differ in the curve and in
what they leave. -/
def drawCurve {κ : Type} [Curve κ α] (budget : Nat) (s : State α) (c : κ)
    (control1 control2 finish : Point α) : Option (α × State α) :=
  (Curve.measure budget s.tolerance s.passes c).map fun m =>
    (m.length, s.land m.last control1 control2 finish)

theorem draw_quadTo (budget : Nat) (s : State α) (control finish : Point α) :
    s.draw budget (.quadTo control finish) =
      s.drawCurve budget (QuadraticCurve.mk s.current control finish) control finish finish := by
  rw [draw, quadTo, curveLength_eq, drawCurve]
  cases Curve.measure budget s.tolerance s.passes
      (QuadraticCurve.mk s.current control finish) with
  | none => rfl
  | some m => cases hquery : s.goal.isLengthQuery <;> simp [land, landing, isLengthQuery, hquery]

theorem draw_cubicTo (budget : Nat) (s : State α) (control1 control2 finish : Point α) :
    s.draw budget (.cubicTo control1 control2 finish) =
      s.drawCurve budget (CubicCurve.mk s.current control1 control2 finish)
        finish control2 finish := by
  rw [draw, cubicTo, curveLength_eq, drawCurve]
  cases Curve.measure budget s.tolerance s.passes
      (CubicCurve.mk s.current control1 control2 finish) with
  | none => rfl
  | some m => cases hquery : s.goal.isLengthQuery <;> simp [land, landing, isLengthQuery, hquery]

theorem exists_measure_of_drawCurve {κ : Type} [Curve κ α] {budget : Nat} {s s' : State α} {c : κ}
    {control1 control2 finish : Point α} {length : α}
    (h : s.drawCurve budget c control1 control2 finish = some (length, s')) :
    ∃ m, Curve.measure budget s.tolerance s.passes c = some m ∧ length = m.length ∧
      s' = s.land m.last control1 control2 finish := by
  obtain ⟨m, hmeasure, heq⟩ := Option.map_eq_some_iff.mp h
  obtain ⟨rfl, rfl⟩ := Prod.mk.inj heq
  exact ⟨m, hmeasure, rfl, rfl⟩

theorem drawCurve_frame {κ : Type} [Curve κ α] {budget : Nat} {s s' : State α} {c : κ}
    {control1 control2 finish : Point α} {length : α}
    (h : s.drawCurve budget c control1 control2 finish = some (length, s')) :
    s' = { s with
      current := s'.current, previous := s'.previous, subpathStart := s'.subpathStart,
      lastControl1 := s'.lastControl1, lastControl2 := s'.lastControl2 } := by
  obtain ⟨m, -, -, rfl⟩ := exists_measure_of_drawCurve h
  rfl

theorem draw_frame {budget : Nat} {s s' : State α} {e : Element α} {length : α}
    (h : s.draw budget e = some (length, s')) :
    s' = { s with
      current := s'.current, previous := s'.previous, subpathStart := s'.subpathStart,
      lastControl1 := s'.lastControl1, lastControl2 := s'.lastControl2 } := by
  cases e with
  | moveTo p =>
      obtain ⟨-, rfl⟩ := Prod.mk.inj (Option.some.inj h)
      rfl
  | lineTo p =>
      obtain ⟨-, rfl⟩ := Prod.mk.inj (Option.some.inj h)
      rfl
  | quadTo c p =>
      rw [draw_quadTo] at h
      exact drawCurve_frame h
  | cubicTo c₁ c₂ p =>
      rw [draw_cubicTo] at h
      exact drawCurve_frame h
  | close =>
      obtain ⟨-, rfl⟩ := Prod.mk.inj (Option.some.inj h)
      rfl

def poised (s : State α) (index : Nat) : State α :=
  { s with segmentIndex := index, previous := s.current }

def count (s : State α) (length : α) : State α :=
  { s with totalLength := s.totalLength + length }

theorem count_current (s : State α) (length : α) : (s.count length).current = s.current := rfl

theorem count_previous (s : State α) (length : α) : (s.count length).previous = s.previous := rfl

theorem enter_eq (budget : Nat) (s : State α) (index : Nat) (e : Element α) :
    s.enter budget index e =
      ((s.poised index).draw budget e).map fun drawn => drawn.2.count drawn.1 := by
  rw [enter, ← poised]
  cases (s.poised index).draw budget e <;> rfl

theorem enter_quadTo {budget index : Nat} {s : State α} {control finish : Point α}
    {m : Measured (QuadraticCurve α) α}
    (h : Curve.measure budget s.tolerance s.passes
      (QuadraticCurve.mk s.current control finish) = some m) :
    s.enter budget index (.quadTo control finish) =
      some (((s.poised index).land m.last control finish finish).count m.length) := by
  have hpoised : Curve.measure budget (s.poised index).tolerance (s.poised index).passes
      (QuadraticCurve.mk (s.poised index).current control finish) = some m := h
  rw [enter_eq, draw_quadTo, drawCurve, hpoised]
  rfl

theorem enter_cubicTo {budget index : Nat} {s : State α} {control1 control2 finish : Point α}
    {m : Measured (CubicCurve α) α}
    (h : Curve.measure budget s.tolerance s.passes
      (CubicCurve.mk s.current control1 control2 finish) = some m) :
    s.enter budget index (.cubicTo control1 control2 finish) =
      some (((s.poised index).land m.last finish control2 finish).count m.length) := by
  have hpoised : Curve.measure budget (s.poised index).tolerance (s.poised index).passes
      (CubicCurve.mk (s.poised index).current control1 control2 finish) = some m := h
  rw [enter_eq, draw_cubicTo, drawCurve, hpoised]
  rfl

theorem advance_eq (budget : Nat) (s : State α) (index : Nat) (e : Element α) :
    s.advance budget index e = (s.enter budget index e).map fun t =>
      if !e.isMove && t.reached then .answered t.resolve else .walking t := by
  rw [advance]
  cases s.enter budget index e <;> rfl

theorem advanceAll_cons (budget : Nat) (s : State α) (index : Nat) (e : Element α)
    (rest : List (Element α)) :
    s.advanceAll budget index (e :: rest) = (s.advance budget index e).bind fun
      | .answered t => some (.answered t)
      | .walking t => t.advanceAll budget (index + 1) rest := by
  rw [advanceAll]
  cases s.advance budget index e with
  | none => rfl
  | some r => cases r <;> rfl

/-- A walk counts lengths, moves its points, and leaves the rest of its state alone. -/
theorem enter_frame {budget index : Nat} {s t : State α} {e : Element α}
    (h : s.enter budget index e = some t) :
    t = { s with
      totalLength := t.totalLength, segmentIndex := index,
      current := t.current, previous := t.previous, subpathStart := t.subpathStart,
      lastControl1 := t.lastControl1, lastControl2 := t.lastControl2 } := by
  rw [enter_eq] at h
  obtain ⟨⟨length, s'⟩, hdraw, rfl⟩ := Option.map_eq_some_iff.mp h
  rw [count, draw_frame hdraw]
  rfl

theorem reached_count_of_passes {budget : Nat} {s s' : State α} {e : Element α} {length : α}
    (h : s.draw budget e = some (length, s')) (hpasses : s.passes length = true) :
    (s'.count length).reached = true := by
  obtain ⟨hquery, hpassed⟩ := Bool.and_eq_true_iff.mp hpasses
  rw [draw_frame h]
  exact Bool.and_eq_true_iff.mpr
    ⟨hquery, decide_eq_true (Scalar.le_of_lt (of_decide_eq_true hpassed))⟩

@[simp]
theorem resolve_success (s : State α) : s.resolve.success = true := by
  cases hgoal : s.goal <;> simp [resolve, hgoal]

@[simp]
theorem resolve_segmentIndex (s : State α) : s.resolve.segmentIndex = s.segmentIndex := by
  cases hgoal : s.goal <;> simp [resolve, hgoal]

section Advance

variable {budget index : Nat} {s s' : State α} {e : Element α} {es : List (Element α)}

theorem advance_of_totalLength (hs : s.goal = .totalLength) :
    s.advance budget index e = (s.enter budget index e).map .walking := by
  rw [advance_eq, enter_eq, Option.map_map, Option.map_map]
  cases hdraw : (s.poised index).draw budget e with
  | none => rfl
  | some drawn =>
      obtain ⟨length, s₁⟩ := drawn
      have hgoal : s₁.goal = .totalLength := by
        rw [draw_frame hdraw]
        exact hs
      simp [State.count, reached, isLengthQuery, hgoal, Goal.isLengthQuery]

theorem enter_of_advance (h : s.advance budget index e = some (.walking s')) :
    s.enter budget index e = some s' := by
  rw [advance_eq] at h
  obtain ⟨t, henter, hwalking⟩ := Option.map_eq_some_iff.mp h
  split at hwalking
  · simp at hwalking
  · rw [henter, Progress.walking.inj hwalking]

theorem goal_of_advance (h : s.advance budget index e = some (.walking s')) :
    s'.goal = s.goal := by
  rw [enter_frame (enter_of_advance h)]

theorem advanceAll_frame (h : s.advanceAll budget index es = some (.walking s')) :
    s' = { s with
      totalLength := s'.totalLength, segmentIndex := s'.segmentIndex,
      current := s'.current, previous := s'.previous, subpathStart := s'.subpathStart,
      lastControl1 := s'.lastControl1, lastControl2 := s'.lastControl2 } := by
  induction es generalizing s index with
  | nil =>
      obtain rfl := Progress.walking.inj (Option.some.inj h)
      rfl
  | cons e rest ih =>
      rw [advanceAll_cons] at h
      obtain ⟨r, hstep, hrest⟩ := Option.bind_eq_some_iff.mp h
      cases r with
      | answered t => simp at hrest
      | walking s₁ =>
          rw [ih hrest, enter_frame (enter_of_advance hstep)]

theorem segmentIndex_of_advanceAll (h : s.advanceAll budget index es = some (.walking s'))
    (hne : es ≠ []) : s'.segmentIndex + 1 = index + es.length := by
  induction es generalizing s index with
  | nil => exact absurd rfl hne
  | cons e rest ih =>
      rw [advanceAll_cons] at h
      obtain ⟨r, hstep, hrest⟩ := Option.bind_eq_some_iff.mp h
      cases r with
      | answered t => simp at hrest
      | walking s₁ =>
          cases rest with
          | nil =>
              have hend : s₁ = s' := Progress.walking.inj (Option.some.inj hrest)
              rw [← hend, enter_frame (enter_of_advance hstep)]
              simp
          | cons f rest =>
              rw [ih hrest (by simp), List.length_cons (a := e)]
              push_cast
              omega

end Advance

end ArcLength.State
