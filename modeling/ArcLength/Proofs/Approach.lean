import ArcLength.Path.Query
import ArcLength.Proofs.Steps

/-!
# The approach to an answer

A walk is an approach, which only draws and counts, and an answer, which is worked out at the state
that the approach ends in. The approach sees of the goal only that there is a query, and of the
desired length only how it compares. So two queries whose desired lengths compare alike have the
same approach, whatever they ask for.
-/

namespace ArcLength

variable {α : Type} [Scalar α]

/-- Lengths that compare alike with every length. -/
def Interchangeable (d d' : α) : Prop :=
  (∀ length, d < length ↔ d' < length) ∧ ∀ length, d ≤ length ↔ d' ≤ length

theorem Interchangeable.refl (d : α) : Interchangeable d d :=
  ⟨fun _ => Iff.rfl, fun _ => Iff.rfl⟩

namespace State

/-- The state with another query. -/
def ask (s : State α) (goal : Goal) (desiredLength : α) : State α := { s with goal, desiredLength }

/-- The state with its query answered, if it is. -/
def settle (s : State α) (answered : Bool) : State α := if answered then s.resolve else s

/-- Walks up to the element that answers the query, and tells whether there is one. -/
def approach (budget : Nat) (s : State α) : Nat → List (Element α) → Option (State α × Bool)
  | _, [] => some (s, false)
  | index, e :: rest => do
    let t ← s.enter budget index e
    if !e.isMove && t.reached then return (t, true) else t.approach budget (index + 1) rest

theorem approach_cons (budget : Nat) (s : State α) (index : Nat) (e : Element α)
    (rest : List (Element α)) :
    s.approach budget index (e :: rest) = (s.enter budget index e).bind fun t =>
      if !e.isMove && t.reached then some (t, true) else t.approach budget (index + 1) rest := by
  rw [approach]
  cases s.enter budget index e <;> rfl

theorem advanceAll_eq_approach (budget : Nat) (s : State α) (index : Nat)
    (es : List (Element α)) :
    s.advanceAll budget index es = (s.approach budget index es).map fun r =>
      if r.2 then .answered r.1.resolve else .walking r.1 := by
  induction es generalizing s index with
  | nil => rfl
  | cons e rest ih =>
      rw [advanceAll_cons, advance_eq, approach_cons]
      cases s.enter budget index e with
      | none => rfl
      | some t =>
          rw [Option.map_some, Option.bind_some, Option.bind_some]
          cases !e.isMove && t.reached with
          | true => rfl
          | false => exact ih t (index + 1)

/-- What an approach leaves as it was. -/
theorem approach_frame {budget index : Nat} {s : State α} {es : List (Element α)}
    {r : State α × Bool} (h : s.approach budget index es = some r) : r.1 = { s with
      totalLength := r.1.totalLength, segmentIndex := r.1.segmentIndex,
      current := r.1.current, previous := r.1.previous, subpathStart := r.1.subpathStart,
      lastControl1 := r.1.lastControl1, lastControl2 := r.1.lastControl2 } := by
  induction es generalizing s index with
  | nil =>
      obtain rfl := Option.some.inj h
      rfl
  | cons e rest ih =>
      rw [approach_cons] at h
      obtain ⟨t, henter, hrest⟩ := Option.bind_eq_some_iff.mp h
      split at hrest
      · obtain rfl := Option.some.inj hrest
        rw [enter_frame henter]
      · rw [ih hrest, enter_frame henter]

section Ask

variable {s t : State α} {goal : Goal} {d : α}

/-- The state may be asked the other query instead. -/
structure Askable (s : State α) (goal : Goal) (d : α) : Prop where
  isLengthQuery : s.isLengthQuery = true
  goal_isLengthQuery : goal.isLengthQuery = true
  interchangeable : Interchangeable s.desiredLength d

theorem Askable.of_eq (h : s.Askable goal d) (hgoal : t.goal = s.goal)
    (hdesired : t.desiredLength = s.desiredLength) : t.Askable goal d where
  isLengthQuery := by
    rw [State.isLengthQuery, hgoal]
    exact h.isLengthQuery
  goal_isLengthQuery := h.goal_isLengthQuery
  interchangeable := hdesired ▸ h.interchangeable

theorem Askable.passes_eq (h : s.Askable goal d) : (s.ask goal d).passes = s.passes := by
  funext length
  have hquery : (s.ask goal d).isLengthQuery = s.isLengthQuery :=
    h.goal_isLengthQuery.trans h.isLengthQuery.symm
  rw [passes, passes, hquery]
  exact congrArg _ (decide_eq_decide.mpr (h.interchangeable.1 (s.totalLength + length)).symm)

theorem Askable.reached_eq (h : s.Askable goal d) : (s.ask goal d).reached = s.reached := by
  have hquery : (s.ask goal d).isLengthQuery = s.isLengthQuery :=
    h.goal_isLengthQuery.trans h.isLengthQuery.symm
  rw [reached, reached, hquery]
  exact congrArg _ (decide_eq_decide.mpr (h.interchangeable.2 s.totalLength).symm)

theorem Askable.drawCurve_eq {κ : Type} [Curve κ α] (h : s.Askable goal d) (budget : Nat) (c : κ)
    (control1 control2 finish : Point α) :
    (s.ask goal d).drawCurve budget c control1 control2 finish =
      (s.drawCurve budget c control1 control2 finish).map fun drawn =>
        (drawn.1, drawn.2.ask goal d) := by
  have hland : ∀ last : κ, (s.ask goal d).land last control1 control2 finish =
      (s.land last control1 control2 finish).ask goal d := by
    intro last
    have hquery : (s.ask goal d).isLengthQuery = true := h.goal_isLengthQuery
    simp only [land, hquery, h.isLengthQuery, if_true]
    rfl
  rw [drawCurve, drawCurve, h.passes_eq, Option.map_map]
  simp only [hland]
  rfl

theorem Askable.draw_eq (h : s.Askable goal d) (budget : Nat) (e : Element α) :
    (s.ask goal d).draw budget e =
      (s.draw budget e).map fun drawn => (drawn.1, drawn.2.ask goal d) := by
  cases e with
  | moveTo p => rfl
  | lineTo p => rfl
  | quadTo c p =>
      rw [draw_quadTo, draw_quadTo]
      exact h.drawCurve_eq budget _ _ _ _
  | cubicTo c₁ c₂ p =>
      rw [draw_cubicTo, draw_cubicTo]
      exact h.drawCurve_eq budget _ _ _ _
  | close => rfl

theorem Askable.enter_eq (h : s.Askable goal d) (budget index : Nat) (e : Element α) :
    (s.ask goal d).enter budget index e =
      (s.enter budget index e).map (State.ask · goal d) := by
  have hpoised : (s.poised index).Askable goal d := h.of_eq rfl rfl
  rw [State.enter_eq, State.enter_eq]
  change Option.map _ (((s.poised index).ask goal d).draw budget e) = _
  rw [hpoised.draw_eq, Option.map_map, Option.map_map]
  rfl

/-- Another query has the same approach. -/
theorem Askable.approach_eq (h : s.Askable goal d) (budget index : Nat) (es : List (Element α)) :
    (s.ask goal d).approach budget index es =
      (s.approach budget index es).map fun r => (r.1.ask goal d, r.2) := by
  induction es generalizing s index with
  | nil => rfl
  | cons e rest ih =>
      rw [approach_cons, approach_cons, h.enter_eq]
      cases henter : s.enter budget index e with
      | none => rfl
      | some t =>
          have ht : t.Askable goal d := by
            refine h.of_eq ?_ ?_ <;> rw [enter_frame henter]
          rw [Option.map_some, Option.bind_some, Option.bind_some, ht.reached_eq]
          split
          · rfl
          · exact ih ht (index + 1)

end Ask

end State

namespace Path

/-- Walks a path up to where the query is answered: at an element, or on a path of bare moves at
rest. -/
def approach (budget : Nat) (p : Path α) (s : State α) : Option (State α × Bool) :=
  (s.approach budget 0 p.elements).map fun r =>
    if !r.2 && (!p.isEmpty && r.1.reached) then ({ r.1 with previous := r.1.current }, true) else r

theorem walk_eq_approach (budget : Nat) (p : Path α) (s : State α) :
    p.walk budget s = (p.approach budget s).map fun r => r.1.settle r.2 := by
  rw [walk, approach, State.advanceAll_eq_approach]
  cases s.approach budget 0 p.elements with
  | none => rfl
  | some r =>
      obtain ⟨t, answered⟩ := r
      cases answered with
      | true => rfl
      | false =>
          change some (if !p.isEmpty && t.reached then t.resolveAtRest else t) = some _
          cases hrest : !p.isEmpty && t.reached <;>
            simp [hrest, State.resolveAtRest, State.settle]

theorem approach_frame {budget : Nat} {p : Path α} {s : State α} {r : State α × Bool}
    (h : p.approach budget s = some r) : r.1 = { s with
      totalLength := r.1.totalLength, segmentIndex := r.1.segmentIndex,
      current := r.1.current, previous := r.1.previous, subpathStart := r.1.subpathStart,
      lastControl1 := r.1.lastControl1, lastControl2 := r.1.lastControl2 } := by
  obtain ⟨r, happroach, rfl⟩ := Option.map_eq_some_iff.mp h
  have hframe := State.approach_frame happroach
  split
  · rw [hframe]
  · exact hframe

theorem approach_ask {s : State α} {goal : Goal} {d : α} (h : s.Askable goal d) (budget : Nat)
    (p : Path α) : p.approach budget (s.ask goal d) =
      (p.approach budget s).map fun r => (r.1.ask goal d, r.2) := by
  rw [approach, approach, h.approach_eq, Option.map_map, Option.map_map]
  refine Option.map_congr fun r hr => ?_
  have hend : r.1.Askable goal d := by
    refine h.of_eq ?_ ?_ <;> rw [State.approach_frame hr]
  simp only [Function.comp_apply, hend.reached_eq]
  split <;> rfl

end Path

end ArcLength
