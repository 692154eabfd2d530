import ArcLength.Proofs.Steps

/-!
# Walks carried over

A map of states that goes along with entering an element goes along with whole walks. It may read the
elements in another number system and count them from a later index.
-/

namespace ArcLength

variable {α β : Type} [Scalar α] [Scalar β]

def Progress.map (carry : State α → State β) : Progress α → Progress β
  | .walking s => .walking (carry s)
  | .answered s => .answered (carry s)

/-- How a walk along a path ends, by how the walk along its elements does. -/
def Path.finishWalk (p : Path α) : Progress α → State α
  | .answered t => t
  | .walking t => if !p.isEmpty && t.reached then t.resolveAtRest else t

theorem Path.walk_eq_map (budget : Nat) (p : Path α) (s : State α) :
    p.walk budget s = (s.advanceAll budget 0 p.elements).map p.finishWalk := by
  rw [walk]
  cases s.advanceAll budget 0 p.elements with
  | none => rfl
  | some r => cases r <;> rfl

/-- States and elements are carried over in such a way that the steps of a walk are too, with indices
that are later by `n`. -/
structure Carries (budget n : Nat) (carry : State α → State β) (read : Element α → Element β) :
    Prop where
  isMove_read : ∀ e, (read e).isMove = e.isMove
  enter_carry : ∀ s index e,
    (carry s).enter budget (index + n) (read e) = (s.enter budget index e).map carry
  reached_carry : ∀ s, (carry s).reached = s.reached
  resolve_carry : ∀ s, (carry s).resolve = carry s.resolve
  rest_carry : ∀ s, { carry s with previous := (carry s).current } =
    carry { s with previous := s.current }

namespace Carries

variable {budget n : Nat} {carry : State α → State β} {read : Element α → Element β}
  (h : Carries budget n carry read)

include h

theorem advance_carry (s : State α) (index : Nat) (e : Element α) :
    (carry s).advance budget (index + n) (read e) =
      (s.advance budget index e).map (Progress.map carry) := by
  rw [State.advance_eq, State.advance_eq, h.enter_carry, Option.map_map, Option.map_map]
  congr 1
  funext t
  simp only [Function.comp_apply, h.isMove_read, h.reached_carry, h.resolve_carry]
  split <;> rfl

theorem advanceAll_carry (s : State α) (index : Nat) (es : List (Element α)) :
    (carry s).advanceAll budget (index + n) (es.map read) =
      (s.advanceAll budget index es).map (Progress.map carry) := by
  induction es generalizing s index with
  | nil => rfl
  | cons e rest ih =>
      rw [List.map_cons, State.advanceAll_cons, State.advanceAll_cons, h.advance_carry]
      cases s.advance budget index e with
      | none => rfl
      | some r =>
          cases r with
          | answered t => rfl
          | walking t =>
              have hindex : index + n + 1 = index + 1 + n := Nat.add_right_comm index n 1
              simp only [Option.map_some, Progress.map, Option.bind_some, hindex]
              exact ih t (index + 1)

theorem finishWalk_carry {p : Path α} {q : Path β} (hempty : q.isEmpty = p.isEmpty)
    (r : Progress α) : q.finishWalk (r.map carry) = carry (p.finishWalk r) := by
  cases r with
  | answered t => rfl
  | walking t =>
      have hrest : (carry t).resolveAtRest = carry t.resolveAtRest := by
        rw [State.resolveAtRest, h.rest_carry, h.resolve_carry, State.resolveAtRest]
      simp only [Progress.map, Path.finishWalk, hempty, h.reached_carry, hrest]
      split <;> rfl

omit h in
/-- **Walks carried over.** If steps are, with the same indices, then so are walks along paths. -/
theorem walk_carry (h : Carries budget 0 carry read) (p : Path α) (s : State α) :
    Path.walk budget ⟨p.elements.map read⟩ (carry s) = (p.walk budget s).map carry := by
  have hrun : (carry s).advanceAll budget 0 (p.elements.map read) =
      (s.advanceAll budget 0 p.elements).map (Progress.map carry) :=
    h.advanceAll_carry s 0 p.elements
  have hempty : (Path.mk (p.elements.map read)).isEmpty = p.isEmpty := by simp [Path.isEmpty]
  rw [Path.walk_eq_map, Path.walk_eq_map, hrun, Option.map_map, Option.map_map]
  exact Option.map_congr fun r _ => h.finishWalk_carry hempty r

end Carries

end ArcLength
