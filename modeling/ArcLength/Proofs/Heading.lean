import Mathlib
import ArcLength.Proofs.Approach
import ArcLength.Proofs.Concatenation
import ArcLength.Proofs.Plane
import ArcLength.Proofs.Results
import ArcLength.Proofs.Simulation

/-!
# The direction at the answer

An angle query and a point query from one state have the same approach, so they are answered on the
same piece or not at all. The angle is the direction of that piece, and the point lies on its line.
In the exact plane the angle is at most a half turn to either side.
-/

namespace ArcLength

namespace Point

variable {α : Type} [Scalar α]

def heading (p q : Point α) : α := Scalar.atan2 (q.y - p.y) (q.x - p.x)

/-- The point at an offset in a direction. -/
def shifted (p : Point α) (angle offset : α) : Point α :=
  ⟨p.x + offset * Scalar.cos angle, p.y + offset * Scalar.sin angle⟩

end Point

theorem degrees_mem_Ioc {angle : ℝ} (h : angle ∈ Set.Ioc (-Real.pi) Real.pi) :
    Scalar.degrees angle ∈ Set.Ioc (-180 : ℝ) 180 := by
  have hdegrees : Scalar.degrees angle = angle * 180 / Real.pi := by
    rw [mul_div_assoc]
    rfl
  rw [hdegrees, Set.mem_Ioc, lt_div_iff₀ Real.pi_pos, div_le_iff₀ Real.pi_pos]
  constructor <;> linarith [h.1, h.2]

namespace State

variable {α : Type} [Scalar α] {s : State α}

/-- How an angle query `a` and a point query `q` from the state `s` end, answered or not. They differ
in the goal, in the point that answers the one and in the angle that answers the other. -/
structure EndsAlike (s : State α) (answered : Bool) (a q : State α) : Prop where
  agree : q = { a with
    goal := .pointAtLength, current := q.current, normalAngle := s.normalAngle }
  desiredLength_eq : a.desiredLength = s.desiredLength
  success_eq : a.success = (answered || s.success)
  current_of_unanswered : answered = false → q.current = a.current
  normalAngle_of_unanswered : answered = false → a.normalAngle = s.normalAngle
  normalAngle_of_answered : answered = true →
    a.normalAngle = Scalar.degrees (a.previous.heading a.current)
  current_of_answered : answered = true →
    q.current = a.current.shifted (a.previous.heading a.current)
      (Scalar.max (s.desiredLength - a.totalLength) (-a.previous.distance a.current))

theorem resolve_of_angle {t : State α} (hgoal : t.goal = .normalAngleAtLength) : t.resolve =
    { t with success := true, normalAngle := Scalar.degrees (t.previous.heading t.current) } := by
  rw [resolve, hgoal]
  rfl

theorem resolve_ask_point (t : State α) (d : α) : (t.ask .pointAtLength d).resolve =
    { t.ask .pointAtLength d with
      success := true
      current := t.current.shifted (t.previous.heading t.current)
        (Scalar.max (d - t.totalLength) (-t.previous.distance t.current)) } := rfl

theorem endsAlike_settle {t : State α} (answered : Bool) (hgoal : t.goal = .normalAngleAtLength)
    (hdesired : t.desiredLength = s.desiredLength) (hsuccess : t.success = s.success)
    (hangle : t.normalAngle = s.normalAngle) :
    s.EndsAlike answered (t.settle answered)
      ((t.ask .pointAtLength s.desiredLength).settle answered) := by
  cases answered with
  | false =>
      refine ⟨?_, hdesired, hsuccess, fun _ => rfl, fun _ => hangle, by simp, by simp⟩
      simp [settle, ask, hdesired, ← hangle]
  | true =>
      rw [settle, if_pos rfl, settle, if_pos rfl, resolve_of_angle hgoal, resolve_ask_point]
      refine ⟨?_, hdesired, by simp, by simp, by simp, fun _ => rfl, fun _ => rfl⟩
      simp [ask, hdesired, hangle]

end State

namespace Path

variable {α : Type} [Scalar α] {budget : ℕ} {p : Path α} {s : State α}

theorem rel_walk (budget : ℕ) (p : Path α) (s : State α) :
    Option.Rel (fun a q => ∃ answered, s.EndsAlike answered a q)
      (p.walk budget { s with goal := .normalAngleAtLength })
      (p.walk budget { s with goal := .pointAtLength }) := by
  have hask : ({ s with goal := .normalAngleAtLength } : State α).Askable .pointAtLength
      s.desiredLength := ⟨rfl, rfl, .refl _⟩
  have hpoint : p.walk budget { s with goal := .pointAtLength } =
      (p.approach budget { s with goal := .normalAngleAtLength }).map fun r =>
        (r.1.ask .pointAtLength s.desiredLength).settle r.2 := by
    change p.walk budget (({ s with goal := .normalAngleAtLength } : State α).ask .pointAtLength
      s.desiredLength) = _
    rw [walk_eq_approach, approach_ask hask, Option.map_map]
    rfl
  rw [hpoint, walk_eq_approach]
  cases happroach : p.approach budget { s with goal := .normalAngleAtLength } with
  | none => exact .none
  | some r =>
      refine .some ⟨r.2, State.endsAlike_settle r.2 ?_ ?_ ?_ ?_⟩ <;> rw [approach_frame happroach]

/-- Where the walk of the whole length ends, the subdivision of every curve ends, and so does every
query. -/
theorem isSome_walk_of_totalLength {goal : Goal} (hgoal : goal.isLengthQuery = true)
    (h : (p.walk budget { s with goal := .totalLength }).isSome = true) :
    (p.walk budget { s with goal := goal }).isSome = true := by
  rw [walk_eq_map, Option.isSome_map] at h ⊢
  obtain ⟨r, hrun⟩ := Option.isSome_iff_exists.mp h
  cases r with
  | answered t => exact absurd hrun (State.advanceAll_ne_answered rfl)
  | walking t =>
      -- every query follows the walk of the whole length up to its answer
      have hfollows : State.Follows { s with goal := goal } { s with goal := .totalLength } := rfl
      obtain ⟨r, hquery⟩ := hfollows.exists_advanceAll hgoal rfl hrun
      rw [hquery]
      rfl

/-- **Angle and point are taken from the same piece.** From every state, an angle query and a point
query both end or neither does, and both do where the walk of the whole length does. They agree in
all but the answers. Unanswered, they leave point and angle alike. Answered, the angle is the
direction from the previous point to the current one, and the point lies in that direction, back by
what the total exceeds the desired length by and not past the previous point. Over the reals the
angle of an answer lies above `-180` and is at most `180`. -/
theorem angle_and_point_share_piece :
    (∀ {α : Type} [Scalar α] (budget : ℕ) (p : Path α) (s : State α),
      Option.Rel (fun a q => ∃ answered, s.EndsAlike answered a q)
        (p.walk budget { s with goal := .normalAngleAtLength })
        (p.walk budget { s with goal := .pointAtLength }) ∧
      ((p.walk budget { s with goal := .totalLength }).isSome = true →
        (p.walk budget { s with goal := .normalAngleAtLength }).isSome = true)) ∧
    ∀ (s a q : State ℝ), s.EndsAlike true a q → a.normalAngle ∈ Set.Ioc (-180) 180 := by
  refine ⟨fun budget p s => ⟨rel_walk budget p s, isSome_walk_of_totalLength rfl⟩, ?_⟩
  intro s a q hends
  rw [hends.normalAngle_of_answered rfl]
  exact degrees_mem_Ioc (Complex.arg_mem_Ioc _)

/-- Both queries at the length one are answered on an arch. -/
theorem angle_and_point_share_piece_arch :
    ∃ a q : State Float,
      Path.walk 9 ⟨[.moveTo ⟨0, 0⟩, .quadTo ⟨1, 1⟩ ⟨2, 0⟩]⟩
        (State.initial .normalAngleAtLength (1 : Float) 1) = some a ∧
      Path.walk 9 ⟨[.moveTo ⟨0, 0⟩, .quadTo ⟨1, 1⟩ ⟨2, 0⟩]⟩
        (State.initial .pointAtLength (1 : Float) 1) = some q ∧
      (State.initial .totalLength (1 : Float) 1).EndsAlike true a q := by
  have hanswered : (Path.walk 9 ⟨[.moveTo ⟨0, 0⟩, .quadTo ⟨1, 1⟩ ⟨2, 0⟩]⟩
      (State.initial .normalAngleAtLength (1 : Float) 1)).any State.success = true := by
    decide +kernel
  obtain ⟨a, ha, hsuccess⟩ := Option.any_eq_true .. |>.mp hanswered
  obtain ⟨hwalks, -⟩ := angle_and_point_share_piece
  obtain ⟨hrel, -⟩ := hwalks 9 ⟨[.moveTo ⟨0, 0⟩, .quadTo ⟨1, 1⟩ ⟨2, 0⟩]⟩
    (State.initial .totalLength (1 : Float) 1)
  change Option.Rel _ (Path.walk 9 _ (State.initial .normalAngleAtLength 1 1))
    (Path.walk 9 _ (State.initial .pointAtLength 1 1)) at hrel
  rw [ha] at hrel
  obtain ⟨q, hq, answered, hends⟩ := exists_of_rel_some hrel
  have hfresh : (State.initial .totalLength (1 : Float) 1).success = false := rfl
  have htrue : answered = true := by simpa [hsuccess, hfresh] using hends.success_eq.symm
  exact ⟨a, q, ha, hq, htrue ▸ hends⟩

end Path

end ArcLength
