import Mathlib.Tactic.Choose
import ArcLength.Path.Query
import ArcLength.Proofs.Steps

/-!
# Paths without curves

The tolerance and the budget are for curves only. A walk along strokes and closes carries the
tolerance along and never looks at it, and it always ends. So every query of a path without curves
has one result. Nothing here is a fact of arithmetic.
-/

namespace ArcLength

variable {α : Type} [Scalar α]

def Element.isCurve : Element α → Bool
  | .quadTo _ _ => true
  | .cubicTo _ _ _ => true
  | _ => false

namespace State

def withTolerance (s : State α) (tolerance : α) : State α := { s with tolerance }

theorem reached_withTolerance (s : State α) (tolerance : α) :
    (s.withTolerance tolerance).reached = s.reached := rfl

theorem resolve_withTolerance (s : State α) (tolerance : α) :
    (s.withTolerance tolerance).resolve = s.resolve.withTolerance tolerance := by
  cases hgoal : s.goal <;> simp [resolve, withTolerance, hgoal, pullBack, slope]

end State

def Progress.withTolerance : Progress α → α → Progress α
  | .walking s, tolerance => .walking (s.withTolerance tolerance)
  | .answered s, tolerance => .answered (s.withTolerance tolerance)

namespace State

variable {e : Element α} {es : List (Element α)}

theorem exists_draw_of_straight (s : State α) (he : e.isCurve = false) :
    ∃ (length : α) (t : State α), ∀ budget tolerance,
      (s.withTolerance tolerance).draw budget e = some (length, t.withTolerance tolerance) := by
  cases e with
  | moveTo p => exact ⟨0, (s.moveTo p).2, fun _ _ => rfl⟩
  | lineTo p => exact ⟨(s.lineTo p).1, (s.lineTo p).2, fun _ _ => rfl⟩
  | quadTo c p => simp [Element.isCurve] at he
  | cubicTo c₁ c₂ p => simp [Element.isCurve] at he
  | close => exact ⟨s.closeSubpath.1, s.closeSubpath.2, fun _ _ => rfl⟩

theorem exists_advance_of_straight (s : State α) (index : Nat) (he : e.isCurve = false) :
    ∃ r : Progress α, ∀ budget tolerance,
      (s.withTolerance tolerance).advance budget index e = some (r.withTolerance tolerance) := by
  obtain ⟨length, t, hdraw⟩ := (s.poised index).exists_draw_of_straight he
  have hadvance : ∀ budget tolerance, (s.withTolerance tolerance).advance budget index e =
      some (if !e.isMove && (t.count length).reached then
        .answered ((t.count length).resolve.withTolerance tolerance)
        else .walking ((t.count length).withTolerance tolerance)) := by
    intro budget tolerance
    have hdraw' : ((s.withTolerance tolerance).poised index).draw budget e =
        some (length, t.withTolerance tolerance) := hdraw budget tolerance
    have hreached : ((t.withTolerance tolerance).count length).reached =
        (t.count length).reached := rfl
    rw [advance_eq, enter_eq, hdraw', Option.map_some, Option.map_some, hreached]
    rw [← resolve_withTolerance]
    rfl
  cases hanswer : !e.isMove && (t.count length).reached with
  | true =>
      refine ⟨.answered (t.count length).resolve, fun budget tolerance => ?_⟩
      rw [hadvance, hanswer]
      rfl
  | false =>
      refine ⟨.walking (t.count length), fun budget tolerance => ?_⟩
      rw [hadvance, hanswer]
      rfl

theorem exists_advanceAll_of_straight (s : State α) (index : Nat)
    (hes : ∀ e ∈ es, e.isCurve = false) :
    ∃ r : Progress α, ∀ budget tolerance,
      (s.withTolerance tolerance).advanceAll budget index es = some (r.withTolerance tolerance) := by
  induction es generalizing s index with
  | nil => exact ⟨.walking s, fun _ _ => rfl⟩
  | cons e rest ih =>
      obtain ⟨r, hr⟩ := s.exists_advance_of_straight index (hes e List.mem_cons_self)
      cases r with
      | answered t =>
          refine ⟨.answered t, fun budget tolerance => ?_⟩
          rw [advanceAll_cons, hr]
          rfl
      | walking t =>
          obtain ⟨r, hrest⟩ := ih t (index + 1) fun f hf => hes f (List.mem_cons_of_mem e hf)
          refine ⟨r, fun budget tolerance => ?_⟩
          rw [advanceAll_cons, hr]
          exact hrest budget tolerance

end State

namespace Path

/-- A query that has one result, whatever the budget and the tolerance. -/
def Unaffected {β : Type} (query : Nat → α → Option β) : Prop :=
  ∃ b, ∀ budget tolerance, query budget tolerance = some b

variable {p : Path α}

theorem exists_walk_of_straight (hp : ∀ e ∈ p.elements, e.isCurve = false) (s : State α) :
    ∃ t : State α, ∀ budget tolerance,
      p.walk budget (s.withTolerance tolerance) = some (t.withTolerance tolerance) := by
  obtain ⟨r, hr⟩ := s.exists_advanceAll_of_straight 0 hp
  cases r with
  | answered t =>
      refine ⟨t, fun budget tolerance => ?_⟩
      rw [walk, hr]
      rfl
  | walking t =>
      refine ⟨if !p.isEmpty && t.reached then t.resolveAtRest else t, fun budget tolerance => ?_⟩
      have hrest : (t.withTolerance tolerance).resolveAtRest =
          t.resolveAtRest.withTolerance tolerance :=
        ({ t with previous := t.current } : State α).resolve_withTolerance tolerance
      rw [walk, hr]
      change some (if !p.isEmpty && (t.withTolerance tolerance).reached then
        (t.withTolerance tolerance).resolveAtRest else t.withTolerance tolerance) = _
      rw [hrest, State.reached_withTolerance]
      split <;> rfl

theorem exists_walk_initial_of_straight (hp : ∀ e ∈ p.elements, e.isCurve = false) (goal : Goal)
    (d : α) : ∃ t : State α, ∀ budget tolerance,
      p.walk budget (.initial goal d tolerance) = some (t.withTolerance tolerance) :=
  exists_walk_of_straight hp (.initial goal d 0)

theorem unaffected_length (hp : ∀ e ∈ p.elements, e.isCurve = false) :
    Unaffected fun budget tolerance => p.length budget tolerance := by
  obtain ⟨t, ht⟩ := exists_walk_initial_of_straight hp .totalLength 0
  refine ⟨t.totalLength, fun budget tolerance => ?_⟩
  dsimp only
  rw [length_eq_map, ht]
  rfl

theorem unaffected_pointAtLength (hp : ∀ e ∈ p.elements, e.isCurve = false) (x : α) :
    Unaffected fun budget tolerance => p.pointAtLength budget x tolerance := by
  obtain ⟨t, ht⟩ := exists_walk_initial_of_straight hp .pointAtLength (Scalar.max 0 x)
  refine ⟨(t.current, t.success), fun budget tolerance => ?_⟩
  dsimp only
  rw [pointAtLength_eq_map, seek_eq, ht]
  rfl

theorem unaffected_normalAngleAtLength (hp : ∀ e ∈ p.elements, e.isCurve = false) (x : α) :
    Unaffected fun budget tolerance => p.normalAngleAtLength budget x tolerance := by
  obtain ⟨t, ht⟩ := exists_walk_initial_of_straight hp .normalAngleAtLength (Scalar.max 0 x)
  refine ⟨(t.normalAngle, t.success), fun budget tolerance => ?_⟩
  dsimp only
  rw [normalAngleAtLength_eq_map, seek_eq, ht]
  rfl

theorem unaffected_segmentIndexAtLength (hp : ∀ e ∈ p.elements, e.isCurve = false) (x : α) :
    Unaffected fun budget tolerance => p.segmentIndexAtLength budget x tolerance := by
  obtain ⟨t, ht⟩ := exists_walk_initial_of_straight hp .pointAtLength (Scalar.max 0 x)
  refine ⟨t.segmentIndex, fun budget tolerance => ?_⟩
  dsimp only
  rw [segmentIndexAtLength_eq_map, seek_eq, ht]
  rfl

theorem unaffected_samplePoints (hp : ∀ e ∈ p.elements, e.isCurve = false) (count : Int) :
    Unaffected fun budget tolerance => p.samplePoints budget count tolerance := by
  obtain ⟨total, htotal⟩ := unaffected_length hp
  have hpoints := unaffected_pointAtLength hp
  choose answer hanswer using hpoints
  by_cases hnone : count ≤ 0 || p.isEmpty
  · refine ⟨[], fun budget tolerance => ?_⟩
    simp only [samplePoints_eq, hnone, if_true]
  · refine ⟨(evenly total count.toNat).map fun x => (answer x).1, fun budget tolerance => ?_⟩
    have hlength : p.length budget tolerance = some total := htotal budget tolerance
    have hpoint : ∀ x, p.pointAtLength budget x tolerance = some (answer x) :=
      fun x => hanswer x budget tolerance
    simp only [samplePoints_eq, hnone, hlength, hpoint]
    exact List.mapM_pure

end Path

end ArcLength
