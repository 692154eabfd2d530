import ArcLength.Binary64
import ArcLength.Proofs.Steps

/-!
# A query follows the length walk

A query draws the same elements as the walk that sums the whole length. Up to the element that
answers it, its state is the state of that walk, but for the goal and for the previous point, which
a query moves along the pieces of a curve. The budget is the same on both sides.
-/

namespace ArcLength

variable {α : Type} [Scalar α]

namespace State

/-- The first state is the second one, but for the goal and the previous point. -/
def Follows (q s : State α) : Prop :=
  q = { s with goal := q.goal, previous := q.previous }

/-- Where the pen stands once an element is drawn whole. -/
def target (s : State α) : Element α → Point α
  | .moveTo p => p
  | .lineTo p => p
  | .quadTo _ p => p
  | .cubicTo _ _ p => p
  | .close => s.subpathStart

/-! ### One element in both walks

`q` is the state of a query and `s` the state of the length walk that it follows.
-/

section Step

variable {budget index : Nat} {q s q' s' : State α} {e : Element α} {length : α}

omit [Scalar α] in
theorem Follows.tolerance_eq (h : q.Follows s) : q.tolerance = s.tolerance := by
  have htolerance := congrArg tolerance h
  exact htolerance

omit [Scalar α] in
theorem Follows.current_eq (h : q.Follows s) : q.current = s.current := by
  have hcurrent := congrArg current h
  exact hcurrent

omit [Scalar α] in
theorem Follows.subpathStart_eq (h : q.Follows s) : q.subpathStart = s.subpathStart := by
  have hstart := congrArg subpathStart h
  exact hstart

omit [Scalar α] in
theorem Follows.totalLength_eq (h : q.Follows s) : q.totalLength = s.totalLength := by
  have htotal := congrArg totalLength h
  exact htotal

omit [Scalar α] in
theorem Follows.land {κ : Type} [Curve κ α] (hfollows : q.Follows s)
    (hq : q.isLengthQuery = true) (hs : s.isLengthQuery = false) {last last' : κ}
    {control1 control2 finish : Point α} (hfinish : Curve.finish last = finish) :
    (q.land last control1 control2 finish).Follows (s.land last' control1 control2 finish) := by
  obtain ⟨goal, previous, rfl⟩ : ∃ goal previous,
      q = { s with goal := goal, previous := previous } := ⟨_, _, hfollows⟩
  simp only [isLengthQuery] at hq hs
  simp [State.land, Follows, isLengthQuery, hq, hs, hfinish]

theorem Follows.drawCurve_of_uncut {κ : Type} [Curve κ α] [Curve.Lawful κ]
    (hfollows : q.Follows s) (hq : q.isLengthQuery = true) (hs : s.isLengthQuery = false) {c : κ}
    {control1 control2 : Point α}
    (h : q.drawCurve budget c control1 control2 (Curve.finish c) = some (length, q'))
    (huncut : q.passes length = false) :
    (∃ s', s.drawCurve budget c control1 control2 (Curve.finish c) = some (length, s') ∧
      q'.Follows s') ∧ q'.current = Curve.finish c := by
  obtain ⟨m, hmeasure, rfl, rfl⟩ := exists_measure_of_drawCurve h
  have hfinish : Curve.finish m.last = Curve.finish c :=
    Curve.finish_measure_of_uncut hmeasure huncut
  have hmeasure' : Curve.measure budget s.tolerance s.passes c = some m := by
    rw [passes_of_not_isLengthQuery hs, ← hfollows.tolerance_eq]
    exact Curve.visit_never_of_uncut hmeasure huncut
  refine ⟨⟨s.land m.last control1 control2 (Curve.finish c), ?_, hfollows.land hq hs hfinish⟩, ?_⟩
  · rw [drawCurve, hmeasure']
    rfl
  · rw [land_current_of_query hq]
    exact hfinish

/-- An element that a query draws uncut is drawn by the length walk too, with the same length, and
the query's pen stands at its end. -/
theorem Follows.draw_of_uncut (hfollows : q.Follows s) (hq : q.isLengthQuery = true)
    (hs : s.isLengthQuery = false) (h : q.draw budget e = some (length, q'))
    (huncut : q.passes length = false ∨ e.isMove = true) :
    (∃ s', s.draw budget e = some (length, s') ∧ q'.Follows s') ∧ q'.current = q.target e := by
  cases e with
  | moveTo p =>
      obtain ⟨rfl, rfl⟩ := Prod.mk.inj (Option.some.inj h)
      refine ⟨⟨_, rfl, ?_⟩, rfl⟩
      rw [hfollows]
      rfl
  | lineTo p =>
      obtain ⟨rfl, rfl⟩ := Prod.mk.inj (Option.some.inj h)
      rw [hfollows]
      exact ⟨⟨_, rfl, rfl⟩, rfl⟩
  | quadTo c p =>
      rw [draw_quadTo, hfollows.current_eq] at h
      rw [draw_quadTo]
      exact hfollows.drawCurve_of_uncut hq hs h (huncut.resolve_right (by simp [Element.isMove]))
  | cubicTo c₁ c₂ p =>
      rw [draw_cubicTo, hfollows.current_eq] at h
      rw [draw_cubicTo]
      exact hfollows.drawCurve_of_uncut hq hs h (huncut.resolve_right (by simp [Element.isMove]))
  | close =>
      obtain ⟨rfl, rfl⟩ := Prod.mk.inj (Option.some.inj h)
      rw [hfollows]
      exact ⟨⟨_, rfl, rfl⟩, rfl⟩

theorem Follows.exists_drawCurve {κ : Type} [Curve κ α] (hfollows : q.Follows s)
    (hs : s.isLengthQuery = false) {c : κ} {control1 control2 finish : Point α}
    (h : s.drawCurve budget c control1 control2 finish = some (length, s')) :
    ∃ length' q', q.drawCurve budget c control1 control2 finish = some (length', q') := by
  obtain ⟨m, hmeasure, -, -⟩ := exists_measure_of_drawCurve h
  rw [passes_of_not_isLengthQuery hs, ← hfollows.tolerance_eq] at hmeasure
  obtain ⟨m', hmeasure', -⟩ := Curve.exists_visit_of_never hmeasure q.passes
  exact ⟨_, _, Option.map_eq_some_iff.mpr ⟨m', hmeasure', rfl⟩⟩

theorem Follows.exists_draw (hfollows : q.Follows s) (hs : s.isLengthQuery = false)
    (h : s.draw budget e = some (length, s')) :
    ∃ length' q', q.draw budget e = some (length', q') := by
  cases e with
  | moveTo p => exact ⟨_, _, rfl⟩
  | lineTo p => exact ⟨_, _, rfl⟩
  | quadTo c p =>
      rw [draw_quadTo, ← hfollows.current_eq] at h
      rw [draw_quadTo]
      exact hfollows.exists_drawCurve hs h
  | cubicTo c₁ c₂ p =>
      rw [draw_cubicTo, ← hfollows.current_eq] at h
      rw [draw_cubicTo]
      exact hfollows.exists_drawCurve hs h
  | close => exact ⟨_, _, rfl⟩

omit [Scalar α] in
theorem Follows.poised (h : q.Follows s) (index : Nat) :
    (q.poised index).Follows (s.poised index) := by
  rw [Follows] at h ⊢
  rw [h]
  rfl

theorem Follows.count (h : q.Follows s) (length : α) :
    (q.count length).Follows (s.count length) := by
  rw [Follows] at h ⊢
  rw [h]
  rfl

theorem Follows.advance_of_walking (hfollows : q.Follows s) (hq : q.isLengthQuery = true)
    (hs : s.goal = .totalLength) (h : q.advance budget index e = some (.walking q')) :
    ∃ s', s.advance budget index e = some (.walking s') ∧ q'.Follows s' := by
  have hs' : s.isLengthQuery = false := by rw [isLengthQuery, hs]; rfl
  rw [advance_eq, enter_eq, Option.map_map] at h
  obtain ⟨⟨length, q₁⟩, hdraw, hwalking⟩ := Option.map_eq_some_iff.mp h
  rw [Function.comp_apply] at hwalking
  split at hwalking
  · simp at hwalking
  · rename_i hopen
    obtain rfl := Progress.walking.inj hwalking
    have huncut : (q.poised index).passes length = false ∨ e.isMove = true := by
      cases hmove : e.isMove with
      | true => exact Or.inr rfl
      | false =>
          refine Or.inl (Bool.eq_false_iff.mpr fun hpasses => hopen ?_)
          simp [hmove, reached_count_of_passes hdraw hpasses]
    obtain ⟨⟨s₁, hdraw', hfollows₁⟩, -⟩ :=
      (hfollows.poised index).draw_of_uncut hq hs' hdraw huncut
    refine ⟨s₁.count length, ?_, hfollows₁.count length⟩
    rw [advance_of_totalLength hs, enter_eq, hdraw']
    rfl

theorem Follows.exists_advance (hfollows : q.Follows s) (hs : s.goal = .totalLength)
    (h : s.advance budget index e = some (.walking s')) :
    ∃ r, q.advance budget index e = some r := by
  have hs' : s.isLengthQuery = false := by rw [isLengthQuery, hs]; rfl
  rw [advance_of_totalLength hs, enter_eq, Option.map_map] at h
  obtain ⟨⟨length, s₁⟩, hdraw, -⟩ := Option.map_eq_some_iff.mp h
  obtain ⟨length', q₁, hdraw'⟩ := (hfollows.poised index).exists_draw hs' hdraw
  rw [advance_eq, enter_eq, hdraw']
  exact ⟨_, rfl⟩

end Step

section Run

variable {budget index : Nat} {q s q' s' : State α} {es : List (Element α)}

/-- As long as a query is not answered, it follows the length walk. -/
theorem Follows.advanceAll_of_walking (hfollows : q.Follows s) (hq : q.isLengthQuery = true)
    (hs : s.goal = .totalLength) (h : q.advanceAll budget index es = some (.walking q')) :
    ∃ s', s.advanceAll budget index es = some (.walking s') ∧ q'.Follows s' := by
  induction es generalizing q s index with
  | nil =>
      obtain rfl := Progress.walking.inj (Option.some.inj h)
      exact ⟨s, rfl, hfollows⟩
  | cons e rest ih =>
      rw [advanceAll_cons] at h
      obtain ⟨r, hstep, hrest⟩ := Option.bind_eq_some_iff.mp h
      cases r with
      | answered t => simp at hrest
      | walking q₁ =>
          obtain ⟨s₁, hstep', hfollows₁⟩ := hfollows.advance_of_walking hq hs hstep
          have hq₁ : q₁.isLengthQuery = true := by
            rw [isLengthQuery, goal_of_advance hstep]
            exact hq
          have hs₁ : s₁.goal = .totalLength := (goal_of_advance hstep').trans hs
          obtain ⟨s', hrest', hfollows'⟩ := ih hfollows₁ hq₁ hs₁ hrest
          exact ⟨s', by rw [advanceAll_cons, hstep']; exact hrest', hfollows'⟩

theorem Follows.exists_advanceAll (hfollows : q.Follows s) (hq : q.isLengthQuery = true)
    (hs : s.goal = .totalLength) (h : s.advanceAll budget index es = some (.walking s')) :
    ∃ r, q.advanceAll budget index es = some r := by
  induction es generalizing q s index with
  | nil => exact ⟨_, rfl⟩
  | cons e rest ih =>
      rw [advanceAll_cons, advance_of_totalLength hs] at h
      obtain ⟨r, hstep, hrest⟩ := Option.bind_eq_some_iff.mp h
      obtain ⟨s₁, hstep₁, rfl⟩ := Option.map_eq_some_iff.mp hstep
      rw [← advance_of_totalLength hs] at hstep
      have hs₁ : s₁.goal = .totalLength := (goal_of_advance hstep).trans hs
      obtain ⟨r, hr⟩ := hfollows.exists_advance hs hstep
      rw [advanceAll_cons, hr]
      cases r with
      | answered t => exact ⟨_, rfl⟩
      | walking q₁ =>
          obtain ⟨s₁', hstep', hfollows₁⟩ := hfollows.advance_of_walking hq hs hr
          obtain rfl : s₁' = s₁ :=
            Progress.walking.inj (Option.some.inj (hstep'.symm.trans hstep))
          have hq₁ : q₁.isLengthQuery = true := by
            rw [isLengthQuery, goal_of_advance hr]
            exact hq
          exact ih hfollows₁ hq₁ hs₁ hrest

end Run

end State

open State in
/-- **A query follows the length walk.** For every path, goal and start state, after any number of
elements none of which answers the query, its state is the state of the length walk but for the
goal and the previous point. Where the length walk ends the query ends too, and a curve that is
drawn uncut is drawn to its end with the length that the length walk counts. -/
theorem Path.query_follows_length_walk (budget : Nat) (p : Path α) (s : State α) (goal : Goal)
    (hs : s.goal = .totalLength) (hgoal : goal.isLengthQuery = true) :
    (∀ k q, { s with goal := goal }.advanceAll budget 0 (p.elements.take k) = some (.walking q) →
      ∃ l, s.advanceAll budget 0 (p.elements.take k) = some (.walking l) ∧ q.Follows l) ∧
    (∀ k l, s.advanceAll budget 0 (p.elements.take k) = some (.walking l) →
      ∃ r, { s with goal := goal }.advanceAll budget 0 (p.elements.take k) = some r ∧
        ∀ q, r = .walking q → q.Follows l) ∧
    (∀ (q : State α) (e : Element α) (length : α) (q' : State α), q.goal = goal →
      q.draw budget e = some (length, q') → q.passes length = false →
      q'.current = q.target e ∧
        ∃ l', { q with goal := .totalLength }.draw budget e = some (length, l') ∧
          q'.Follows l') := by
  have hfollows : State.Follows { s with goal := goal } s := rfl
  refine ⟨?_, ?_, ?_⟩
  · intro k q hwalk
    exact hfollows.advanceAll_of_walking hgoal hs hwalk
  · intro k l hwalk
    obtain ⟨r, hr⟩ := hfollows.exists_advanceAll hgoal hs hwalk
    refine ⟨r, hr, ?_⟩
    rintro q rfl
    obtain ⟨l', hwalk', hfollows'⟩ := hfollows.advanceAll_of_walking hgoal hs hr
    obtain rfl := Progress.walking.inj (Option.some.inj (hwalk'.symm.trans hwalk))
    exact hfollows'
  · intro q e length q' hq hdraw huncut
    have hfollows' : q.Follows { q with goal := .totalLength } := rfl
    have hquery : q.isLengthQuery = true := by rw [isLengthQuery, hq]; exact hgoal
    obtain ⟨hlength, htarget⟩ := hfollows'.draw_of_uncut hquery rfl hdraw (Or.inl huncut)
    exact ⟨htarget, hlength⟩

/-- A query that is still under way behind a curve and a stroke to no number. -/
theorem Path.query_follows_length_walk_past_nan :
    ∃ q l : State Float,
      (State.initial .pointAtLength 100 1).advanceAll 9 0
        [.moveTo ⟨0, 0⟩, .quadTo ⟨1, 1⟩ ⟨2, 0⟩, .lineTo ⟨Binary64.notANumber, 0⟩]
          = some (.walking q) ∧
      (State.initial .totalLength 100 1).advanceAll 9 0
        [.moveTo ⟨0, 0⟩, .quadTo ⟨1, 1⟩ ⟨2, 0⟩, .lineTo ⟨Binary64.notANumber, 0⟩]
          = some (.walking l) ∧
      q.Follows l := by
  have hwalks : ((State.initial .pointAtLength (100 : Float) 1).advanceAll 9 0
      [.moveTo ⟨0, 0⟩, .quadTo ⟨1, 1⟩ ⟨2, 0⟩, .lineTo ⟨Binary64.notANumber, 0⟩]).any
        (fun | .walking _ => true | .answered _ => false) = true := by
    decide +kernel
  obtain ⟨r, hr, hopen⟩ := Option.any_eq_true .. |>.mp hwalks
  cases r with
  | answered a => simp at hopen
  | walking q =>
      obtain ⟨hquery, -⟩ := Path.query_follows_length_walk 9
        ⟨[.moveTo ⟨0, 0⟩, .quadTo ⟨1, 1⟩ ⟨2, 0⟩, .lineTo ⟨Binary64.notANumber, 0⟩]⟩
        (State.initial .totalLength (100 : Float) 1) .pointAtLength rfl rfl
      obtain ⟨l, hl, hfollows⟩ := hquery 3 q hr
      exact ⟨q, l, hr, hl, hfollows⟩

end ArcLength
