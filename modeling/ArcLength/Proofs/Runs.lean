import Mathlib
import ArcLength.Path.OfSegments

/-!
# Runs of segments

A run is a stretch of segments each of which starts where the one before it ends, as far as it goes.
The elements of a path from segments are those of its runs: a move to the start of the run, the
elements of its segments, and a close if the run has come back to its start.
-/

namespace ArcLength

variable {α : Type} [Scalar α]

/-- Whether the element draws something of its own: it is neither a move nor a close. -/
def Element.isStroke : Element α → Bool
  | .moveTo _ => false
  | .lineTo _ => true
  | .quadTo _ _ => true
  | .cubicTo _ _ _ => true
  | .close => false

namespace Segment

/-- Whether the second segment starts where the first one ends. -/
def meets (s t : Segment α) : Bool := t.start == s.finish

def runs (segments : List (Segment α)) : List (List (Segment α)) := segments.splitBy meets

/-- The elements that draw one run. -/
def drawRun : List (Segment α) → List (Element α)
  | [] => []
  | s :: rest => .moveTo s.start :: (s :: rest).flatMap elements ++
      if ((s :: rest).getLast (List.cons_ne_nil s rest)).finish == s.start then [.close] else []

theorem isStroke_of_mem_elements {s : Segment α} {e : Element α} (h : e ∈ s.elements) :
    e.isStroke = true := by
  cases s with
  | arc a =>
      change e ∈ a.elements at h
      unfold Arc.elements at h
      split at h
      · rw [List.mem_singleton.mp h]
        rfl
      · obtain ⟨i, -, rfl⟩ := List.mem_map.mp h
        rfl
  | _ =>
      rw [List.mem_singleton.mp h]
      rfl

/-- The last element of a segment ends where the segment does. -/
theorem exists_elements_eq (s : Segment α) : ∃ (before : List (Element α)) (e : Element α),
    s.elements = before ++ [e] ∧ e.points.getLast? = some s.finish := by
  cases s with
  | line p q => exact ⟨[], .lineTo q, rfl, rfl⟩
  | quadratic p c q => exact ⟨[], .quadTo c q, rfl, rfl⟩
  | cubic p c₁ c₂ q => exact ⟨[], .cubicTo c₁ c₂ q, rfl, rfl⟩
  | arc a =>
      change ∃ before e, a.elements = before ++ [e] ∧ e.points.getLast? = some a.finish
      unfold Arc.elements
      by_cases hsweep : (a.sweepAngle == 0) = true
      · rw [if_pos hsweep]
        exact ⟨[], .lineTo a.finish, rfl, rfl⟩
      · rw [if_neg hsweep]
        have hcount : 1 ≤ a.cubicCount := Nat.le_max_left _ _
        obtain ⟨n, hn⟩ : ∃ n, a.cubicCount = n + 1 := ⟨a.cubicCount - 1, by omega⟩
        refine ⟨(List.range n).map a.cubic, a.cubic n, ?_, ?_⟩
        · rw [hn, List.range_succ, List.map_append]
          rfl
        · simp [Arc.cubic, hn, Element.points]

end Segment

namespace Path

open Segment

/-- What is drawn of the current run, and the runs behind it. -/
theorem elements_of_current_run (current segments : List (Segment α)) (s : Segment α)
    (hcurrent : (s :: current).IsChain fun t u => meets t u = true) :
    .moveTo s.start :: (s :: current).flatMap Segment.elements ++
        strokes s.start ((s :: current).getLast (List.cons_ne_nil s current)).finish segments =
      (runs (s :: current ++ segments)).flatMap drawRun := by
  -- the current run grows by segments that meet it, until one does not
  induction segments generalizing s current with
  | nil =>
      rw [List.append_nil, runs, List.splitBy_of_isChain (List.cons_ne_nil s current) hcurrent,
        List.flatMap_singleton]
      rfl
  | cons t rest ih =>
      by_cases hmeets : meets ((s :: current).getLast (List.cons_ne_nil s current)) t = true
      · have hgrown : (s :: (current ++ [t])).IsChain fun t u => meets t u = true := by
          rw [← List.cons_append, List.isChain_append]
          refine ⟨hcurrent, List.isChain_singleton t, ?_⟩
          intro u hu v hv
          rw [List.getLast?_eq_getLast_of_ne_nil (List.cons_ne_nil s current)] at hu
          obtain rfl := Option.some.inj hu
          obtain rfl := Option.some.inj hv
          exact hmeets
        have hrest := ih (current ++ [t]) s hgrown
        have hlast : (s :: (current ++ [t])).getLast (List.cons_ne_nil s _) = t := by
          simp
        rw [hlast] at hrest
        rw [strokes, if_pos (show (t.start == _) = true from hmeets)]
        simpa using hrest
      · have hnew := ih [] t (List.isChain_singleton t)
        rw [List.getLast_singleton, List.singleton_append] at hnew
        have hsplit : runs (s :: current ++ t :: rest) = (s :: current) :: runs (t :: rest) := by
          rw [runs, List.splitBy_append_cons, List.splitBy_of_isChain (List.cons_ne_nil s current)
            hcurrent]
          · rfl
          · intro u hu
            rw [List.getLast?_eq_getLast_of_ne_nil (List.cons_ne_nil s current)] at hu
            obtain rfl := Option.some.inj hu
            exact Bool.not_eq_true _ ▸ hmeets
        have hjoin : ((s :: current) :: runs (t :: rest)).flatMap drawRun =
            drawRun (s :: current) ++ (runs (t :: rest)).flatMap drawRun := List.flatMap_cons
        rw [hsplit, hjoin, ← hnew, strokes, if_neg (show ¬ (t.start == _) = true from hmeets)]
        simp [drawRun, closing]

theorem elements_ofSegments (segments : List (Segment α)) :
    (ofSegments segments).elements = (runs segments).flatMap drawRun := by
  cases segments with
  | nil => rfl
  | cons s rest =>
      have hrun := elements_of_current_run [] rest s (List.isChain_singleton s)
      rw [List.getLast_singleton, List.singleton_append, List.flatMap_singleton] at hrun
      exact hrun

end Path

end ArcLength
