import ArcLength.Path.Query
import ArcLength.Proofs.Steps

/-!
# The stretch that answers a query

A query is answered on the straight stretch that it met last, a stroke or a flat piece of a curve.
`Path.crossing` takes the walk of a point query and keeps that stretch, with what was walked before
it. The answer of the query is read off the ends of the stretch.
-/

namespace ArcLength

variable {α : Type} [Scalar α]

/-- The stretch on which a query is answered. -/
structure Crossing (α : Type) where
  element : Element α
  start : Point α
  finish : Point α
  /-- The length walked before the stretch. -/
  walked : α

namespace State

/-- The last piece met on a curve. The length measured counts its polygon too. -/
def crossingOn {κ : Type} [Curve κ α] (s : State α) (e : Element α) (m : Measured κ α) :
    Crossing α :=
  ⟨e, Curve.start m.last, Curve.finish m.last,
    s.totalLength + (m.length - Curve.polygonLength m.last)⟩

/-- The stretch met last on an element. -/
def crossing (budget : Nat) (s : State α) : Element α → Option (Crossing α)
  | .moveTo _ => none
  | .lineTo p => some ⟨.lineTo p, s.current, p, s.totalLength⟩
  | .quadTo c p =>
      (Curve.measure budget s.tolerance s.passes (QuadraticCurve.mk s.current c p)).map
        (s.crossingOn (.quadTo c p))
  | .cubicTo c₁ c₂ p =>
      (Curve.measure budget s.tolerance s.passes (CubicCurve.mk s.current c₁ c₂ p)).map
        (s.crossingOn (.cubicTo c₁ c₂ p))
  | .close => some ⟨.close, s.current, s.subpathStart, s.totalLength⟩

/-- The stretch met last on the element, among those in a list, that answers a query. -/
def crossingAmong (budget : Nat) (s : State α) : Nat → List (Element α) → Option (Crossing α)
  | _, [] => none
  | index, e :: rest => do
    match ← s.advance budget index e with
    | .answered _ => s.crossing budget e
    | .walking t => t.crossingAmong budget (index + 1) rest

variable {budget index : Nat} {s t : State α} {e : Element α} {es : List (Element α)}

theorem crossing_quadTo {control p : Point α} {m : Measured (QuadraticCurve α) α}
    (h : Curve.measure budget s.tolerance s.passes
      (QuadraticCurve.mk s.current control p) = some m) :
    s.crossing budget (.quadTo control p) = some (s.crossingOn (.quadTo control p) m) := by
  rw [crossing, h]
  rfl

theorem crossing_cubicTo {control1 control2 p : Point α} {m : Measured (CubicCurve α) α}
    (h : Curve.measure budget s.tolerance s.passes
      (CubicCurve.mk s.current control1 control2 p) = some m) :
    s.crossing budget (.cubicTo control1 control2 p) =
      some (s.crossingOn (.cubicTo control1 control2 p) m) := by
  rw [crossing, h]
  rfl

theorem crossingAmong_cons_of_answered (h : s.advance budget index e = some (.answered t)) :
    s.crossingAmong budget index (e :: es) = s.crossing budget e := by
  rw [crossingAmong, h]
  rfl

theorem crossingAmong_cons_of_walking (h : s.advance budget index e = some (.walking t)) :
    s.crossingAmong budget index (e :: es) = t.crossingAmong budget (index + 1) es := by
  rw [crossingAmong, h]
  rfl

theorem ends_of_crossing {c : Crossing α} (hquery : s.isLengthQuery = true)
    (henter : s.enter budget index e = some t) (h : s.crossing budget e = some c) :
    c.element = e ∧ c.start = t.previous ∧ c.finish = t.current := by
  have hpoised : (s.poised index).isLengthQuery = true := hquery
  cases e with
  | moveTo p => simp [crossing] at h
  | lineTo p =>
      obtain rfl := Option.some.inj h
      obtain rfl := Option.some.inj henter
      exact ⟨rfl, rfl, rfl⟩
  | quadTo control p =>
      obtain ⟨m, hmeasure, rfl⟩ := Option.map_eq_some_iff.mp h
      obtain rfl := Option.some.inj ((enter_quadTo hmeasure).symm.trans henter)
      rw [count_previous, count_current, land_previous_of_query hpoised,
        land_current_of_query hpoised]
      exact ⟨rfl, rfl, rfl⟩
  | cubicTo control1 control2 p =>
      obtain ⟨m, hmeasure, rfl⟩ := Option.map_eq_some_iff.mp h
      obtain rfl := Option.some.inj ((enter_cubicTo hmeasure).symm.trans henter)
      rw [count_previous, count_current, land_previous_of_query hpoised,
        land_current_of_query hpoised]
      exact ⟨rfl, rfl, rfl⟩
  | close =>
      obtain rfl := Option.some.inj h
      obtain rfl := Option.some.inj henter
      exact ⟨rfl, rfl, rfl⟩

theorem exists_enter_of_answered (h : s.advance budget index e = some (.answered t)) :
    ∃ r, s.enter budget index e = some r ∧ t = r.resolve := by
  rw [advance_eq] at h
  obtain ⟨r, henter, hanswered⟩ := Option.map_eq_some_iff.mp h
  split at hanswered
  · exact ⟨r, henter, (Progress.answered.inj hanswered).symm⟩
  · simp at hanswered

/-- **The answer is read off the crossing.** Where a walk reports a stretch, its query is answered
from the ends of that stretch. -/
theorem exists_resolve_of_crossingAmong {c : Crossing α} (hquery : s.isLengthQuery = true)
    (h : s.crossingAmong budget index es = some c) :
    ∃ t : State α, s.advanceAll budget index es = some (.answered t.resolve) ∧ c.element ∈ es ∧
      c.start = t.previous ∧ c.finish = t.current := by
  induction es generalizing s index with
  | nil => simp [crossingAmong] at h
  | cons e rest ih =>
      obtain ⟨r, hadvance, -⟩ := Option.bind_eq_some_iff.mp h
      cases r with
      | answered a =>
          rw [crossingAmong_cons_of_answered hadvance] at h
          obtain ⟨t, henter, rfl⟩ := exists_enter_of_answered hadvance
          obtain ⟨helement, hstart, hfinish⟩ := ends_of_crossing hquery henter h
          refine ⟨t, ?_, ?_, hstart, hfinish⟩
          · rw [advanceAll_cons, hadvance]
            rfl
          · rw [helement]
            exact List.mem_cons_self
      | walking t =>
          rw [crossingAmong_cons_of_walking hadvance] at h
          have hquery' : t.isLengthQuery = true := by
            rw [isLengthQuery, goal_of_advance hadvance]
            exact hquery
          obtain ⟨r, hrun, helement, hends⟩ := ih hquery' h
          refine ⟨r, ?_, List.mem_cons_of_mem e helement, hends⟩
          rw [advanceAll_cons, hadvance]
          exact hrun

theorem crossingAmong_append {drawn : List (Element α)}
    (h : s.advanceAll budget index drawn = some (.walking t)) :
    s.crossingAmong budget index (drawn ++ es) =
      t.crossingAmong budget (index + drawn.length) es := by
  induction drawn generalizing s index with
  | nil =>
      obtain rfl := Progress.walking.inj (Option.some.inj h)
      rfl
  | cons e rest ih =>
      rw [advanceAll_cons] at h
      obtain ⟨r, hadvance, hrest⟩ := Option.bind_eq_some_iff.mp h
      cases r with
      | answered a => simp at hrest
      | walking s₁ =>
          rw [List.cons_append, crossingAmong_cons_of_walking hadvance, ih hrest, List.length_cons]
          congr 1
          omega

end State

/-- The stretch on which the point query at a length is answered. -/
def Path.crossing (budget : Nat) (p : Path α) (length tolerance : α) : Option (Crossing α) :=
  State.crossingAmong budget (.initial .pointAtLength (Scalar.max 0 length) tolerance) 0 p.elements

end ArcLength
