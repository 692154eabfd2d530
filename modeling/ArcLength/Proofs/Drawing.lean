import Mathlib
import ArcLength.Path.Query
import ArcLength.Proofs.Likeness

/-!
# Drawing lists of elements

`State.drawAll` draws elements one after another and lists their lengths. The walk that sums the
whole length draws the same, adds the lengths in order, and keeps its pen where drawing leaves it.
-/

namespace ArcLength

variable {α : Type} [Scalar α] {budget : ℕ}

namespace State

/-- Draws elements one after the other: the length of each, and the state behind the last. -/
def drawAll (budget : ℕ) (s : State α) : List (Element α) → Option (List α × State α)
  | [] => some ([], s)
  | e :: rest => (s.draw budget e).bind fun drawn =>
      (drawn.2.drawAll budget rest).map fun r => (drawn.1 :: r.1, r.2)

variable {s s' t : State α} {e : Element α} {es fs : List (Element α)} {length : α}

theorem drawAll_append : s.drawAll budget (es ++ fs) = (s.drawAll budget es).bind fun r =>
    (r.2.drawAll budget fs).map fun r' => (r.1 ++ r'.1, r'.2) := by
  induction es generalizing s with
  | nil => simp [drawAll]
  | cons e rest ih =>
      rw [List.cons_append, drawAll, drawAll]
      cases s.draw budget e with
      | none => rfl
      | some drawn =>
          simp only [Option.bind_some, ih]
          cases drawn.2.drawAll budget rest with
          | none => rfl
          | some r => simp [Option.map_map, Function.comp_def]

theorem drawAll_singleton : s.drawAll budget [e] =
    (s.draw budget e).map fun drawn => ([drawn.1], drawn.2) := by
  rw [drawAll]
  cases s.draw budget e <;> rfl

theorem goal_of_draw (h : s.draw budget e = some (length, s')) : s'.goal = s.goal := by
  rw [draw_frame h]

theorem tolerance_of_draw (h : s.draw budget e = some (length, s')) :
    s'.tolerance = s.tolerance := by
  rw [draw_frame h]

theorem drawCurve_of_totalLength {κ : Type} [Curve κ α] {c : κ} {control1 control2 finish : Point α}
    (hs : s.goal = .totalLength)
    (h : s.drawCurve budget c control1 control2 finish = some (length, s')) :
    s'.current = finish ∧ s'.subpathStart = s.subpathStart := by
  obtain ⟨m, -, -, rfl⟩ := exists_measure_of_drawCurve h
  exact ⟨land_current_of_not_query (by rw [isLengthQuery, hs]; rfl), rfl⟩

/-- A stroke of a length walk leaves the pen at its last point. -/
theorem draw_stroke (hs : s.goal = .totalLength) (hstroke : e.isStroke = true)
    (h : s.draw budget e = some (length, s')) :
    e.points.getLast? = some s'.current ∧ s'.subpathStart = s.subpathStart := by
  cases e with
  | moveTo p => simp [Element.isStroke] at hstroke
  | lineTo p =>
      obtain ⟨-, rfl⟩ := Prod.mk.inj (Option.some.inj h)
      exact ⟨rfl, rfl⟩
  | quadTo c p =>
      rw [draw_quadTo] at h
      obtain ⟨hcurrent, hstart⟩ := drawCurve_of_totalLength hs h
      exact ⟨by rw [hcurrent]; rfl, hstart⟩
  | cubicTo c₁ c₂ p =>
      rw [draw_cubicTo] at h
      obtain ⟨hcurrent, hstart⟩ := drawCurve_of_totalLength hs h
      exact ⟨by rw [hcurrent]; rfl, hstart⟩
  | close => simp [Element.isStroke] at hstroke

theorem drawAll_frame {lengths : List α} (h : s.drawAll budget es = some (lengths, s')) :
    s'.goal = s.goal ∧ s'.tolerance = s.tolerance := by
  induction es generalizing s lengths with
  | nil =>
      obtain ⟨-, rfl⟩ := Prod.mk.inj (Option.some.inj h)
      exact ⟨rfl, rfl⟩
  | cons e rest ih =>
      obtain ⟨drawn, hdraw, hrest⟩ := Option.bind_eq_some_iff.mp h
      obtain ⟨r, hdrawn, heq⟩ := Option.map_eq_some_iff.mp hrest
      obtain ⟨-, rfl⟩ := Prod.mk.inj heq
      obtain ⟨hgoal, htolerance⟩ := ih hdrawn
      exact ⟨hgoal.trans (goal_of_draw hdraw), htolerance.trans (tolerance_of_draw hdraw)⟩

theorem subpathStart_of_strokes {lengths : List α} (hs : s.goal = .totalLength)
    (hstrokes : ∀ e ∈ es, e.isStroke = true) (h : s.drawAll budget es = some (lengths, s')) :
    s'.subpathStart = s.subpathStart := by
  induction es generalizing s lengths with
  | nil =>
      obtain ⟨-, rfl⟩ := Prod.mk.inj (Option.some.inj h)
      rfl
  | cons e rest ih =>
      obtain ⟨drawn, hdraw, hrest⟩ := Option.bind_eq_some_iff.mp h
      obtain ⟨r, hdrawn, heq⟩ := Option.map_eq_some_iff.mp hrest
      obtain ⟨-, rfl⟩ := Prod.mk.inj heq
      have hstart := (draw_stroke hs (hstrokes e List.mem_cons_self) hdraw).2
      rw [← hstart]
      exact ih ((goal_of_draw hdraw).trans hs)
        (fun f hf => hstrokes f (List.mem_cons_of_mem e hf)) hdrawn

/-- A segment that is drawn leaves the pen at its end. -/
theorem drawAll_elements {lengths : List α} {segment : Segment α} (hs : s.goal = .totalLength)
    (h : s.drawAll budget segment.elements = some (lengths, s')) :
    s'.current = segment.finish ∧ s'.subpathStart = s.subpathStart := by
  have hstart := subpathStart_of_strokes hs (fun _ he => Segment.isStroke_of_mem_elements he) h
  obtain ⟨before, e, heq, hfinish⟩ := segment.exists_elements_eq
  have hstroke : e.isStroke = true :=
    Segment.isStroke_of_mem_elements (s := segment) (by simp [heq])
  rw [heq, drawAll_append] at h
  obtain ⟨r, hbefore, hrest⟩ := Option.bind_eq_some_iff.mp h
  obtain ⟨r', hlast, heq'⟩ := Option.map_eq_some_iff.mp hrest
  obtain ⟨-, rfl⟩ := Prod.mk.inj heq'
  rw [drawAll_singleton] at hlast
  obtain ⟨drawn, hdraw, rfl⟩ := Option.map_eq_some_iff.mp hlast
  have hgoal : r.2.goal = .totalLength := (drawAll_frame hbefore).1.trans hs
  obtain ⟨hcurrent, -⟩ := draw_stroke hgoal hstroke hdraw
  rw [hfinish] at hcurrent
  exact ⟨(Option.some.inj hcurrent).symm, hstart⟩

/-- The first state is the second one but for what a length walk counts. -/
def Counts (s t : State α) : Prop :=
  s = { t with
    totalLength := s.totalLength, segmentIndex := s.segmentIndex, previous := s.previous }

omit [Scalar α] in
theorem Counts.goal_eq (h : s.Counts t) : s.goal = t.goal := by
  have hgoal := congrArg goal h
  exact hgoal

omit [Scalar α] in
theorem Counts.current_eq (h : s.Counts t) : s.current = t.current := by
  have hcurrent := congrArg current h
  exact hcurrent

omit [Scalar α] in
theorem Counts.subpathStart_eq (h : s.Counts t) : s.subpathStart = t.subpathStart := by
  have hstart := congrArg subpathStart h
  exact hstart

theorem Counts.rel_drawCurve {κ : Type} [Curve κ α] (h : s.Counts t) (ht : t.goal = .totalLength)
    (c : κ) (control1 control2 finish : Point α) :
    Option.Rel (fun r r' => r.1 = r'.1 ∧ r.2.Counts r'.2)
      (s.drawCurve budget c control1 control2 finish)
      (t.drawCurve budget c control1 control2 finish) := by
  have hs : s.goal = .totalLength := h.goal_eq.trans ht
  have htolerance := congrArg tolerance h
  change s.tolerance = t.tolerance at htolerance
  rw [drawCurve, drawCurve, passes_of_totalLength hs, passes_of_totalLength ht, htolerance]
  cases Curve.measure budget t.tolerance Curve.never c with
  | none => exact .none
  | some m =>
      refine .some ⟨rfl, ?_⟩
      have hs' : s.isLengthQuery = false := by rw [isLengthQuery, hs]; rfl
      have ht' : t.isLengthQuery = false := by rw [isLengthQuery, ht]; rfl
      simp only [Counts, State.land, hs', ht', Bool.false_eq_true, if_false]
      rw [h]

theorem Counts.rel_draw (h : s.Counts t) (ht : t.goal = .totalLength) (e : Element α) :
    Option.Rel (fun r r' => r.1 = r'.1 ∧ r.2.Counts r'.2) (s.draw budget e) (t.draw budget e) := by
  cases e with
  | moveTo p =>
      rw [h]
      exact .some ⟨rfl, rfl⟩
  | lineTo p =>
      rw [h]
      exact .some ⟨rfl, rfl⟩
  | quadTo c p =>
      rw [draw_quadTo, draw_quadTo, h.current_eq]
      exact h.rel_drawCurve ht _ _ _ _
  | cubicTo c₁ c₂ p =>
      rw [draw_cubicTo, draw_cubicTo, h.current_eq]
      exact h.rel_drawCurve ht _ _ _ _
  | close =>
      rw [h]
      exact .some ⟨rfl, rfl⟩

omit [Scalar α] in
theorem Counts.poised (h : s.Counts t) (index : ℕ) : (s.poised index).Counts t := by
  rw [h]
  rfl

theorem Counts.count (h : s.Counts t) (length : α) : (s.count length).Counts t := by
  rw [h]
  rfl

/-- A walk under way whose state counts the given total over the drawn one. -/
def IsAt (total : α) (t : State α) (p : Progress α) : Prop :=
  ∃ s, p = .walking s ∧ s.Counts t ∧ s.totalLength = total

theorem Counts.rel_advance (h : s.Counts t) (ht : t.goal = .totalLength) (index : ℕ)
    (e : Element α) :
    Option.Rel (fun p drawn => IsAt (s.totalLength + drawn.1) drawn.2 p)
      (s.advance budget index e) (t.draw budget e) := by
  have hs : s.goal = .totalLength := h.goal_eq.trans ht
  have hdraw : Option.Rel _ ((s.poised index).draw budget e) (t.draw budget e) :=
    (h.poised index).rel_draw ht e
  rw [advance_of_totalLength hs, enter_eq, Option.map_map, ← Option.map_id' (x := t.draw budget e)]
  refine rel_map hdraw ?_
  intro left right hleft _ hrel
  obtain ⟨hlength, hcounts⟩ := hrel
  refine ⟨_, rfl, hcounts.count left.1, ?_⟩
  have htotal : left.2.totalLength = s.totalLength := by rw [draw_frame hleft]; rfl
  change left.2.totalLength + left.1 = s.totalLength + right.1
  rw [htotal, hlength]

/-- **The length walk adds up what is drawn.** -/
theorem Counts.rel_advanceAll (h : s.Counts t) (ht : t.goal = .totalLength) (index : ℕ)
    (es : List (Element α)) :
    Option.Rel (fun p drawn => IsAt (drawn.1.foldl (· + ·) s.totalLength) drawn.2 p)
      (s.advanceAll budget index es) (t.drawAll budget es) := by
  induction es generalizing s t index with
  | nil => exact .some ⟨s, rfl, h, rfl⟩
  | cons e rest ih =>
      rw [advanceAll_cons, drawAll]
      refine rel_bind (h.rel_advance ht index e) ?_
      intro p drawn _ hdraw hstep
      obtain ⟨s', rfl, hcounts, htotal⟩ := hstep
      have hrest := ih hcounts ((goal_of_draw hdraw).trans ht) (index + 1)
      rw [htotal] at hrest
      change Option.Rel _ (s'.advanceAll budget (index + 1) rest) _
      rw [← Option.map_id' (x := s'.advanceAll budget (index + 1) rest)]
      exact rel_map hrest fun _ _ _ _ hwalk => hwalk

end State

theorem Path.length_of_walking {p : Path α} {tolerance : α} {t : State α}
    (h : (State.initial .totalLength 0 tolerance).advanceAll budget 0 p.elements =
      some (.walking t)) : p.length budget tolerance = some t.totalLength := by
  have hgoal : t.goal = .totalLength := by rw [State.advanceAll_frame h]; rfl
  simp [length_eq_map, walk, h, State.reached, State.isLengthQuery, hgoal, Goal.isLengthQuery]

theorem Path.length_of_not_walking {p : Path α} {tolerance : α}
    (h : (State.initial .totalLength 0 tolerance).advanceAll budget 0 p.elements = none) :
    p.length budget tolerance = none := by
  simp [length_eq_map, walk, h]

end ArcLength
