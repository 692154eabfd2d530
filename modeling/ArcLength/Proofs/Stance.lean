import Mathlib
import ArcLength.Proofs.Runs

/-!
# Stances between segments

Between two segments it is known where the current run started and where the pen stands. The
elements of a path from segments are, segment by segment, what leads from there to the segment and
the elements of the segment, and behind the last one what closes its run.
-/

namespace ArcLength

open ArcLength.Path (closing)

variable {α : Type} [Scalar α]

/-- Where a drawing stands: before its first segment, or with the pen in a run. -/
inductive Stance (α : Type) where
  | outset
  | within (runStart pen : Point α)

namespace Stance

/-- What takes the pen to the start of the next segment. -/
def lead : Stance α → Segment α → List (Element α)
  | outset, s => [.moveTo s.start]
  | within runStart pen, s =>
    if s.start == pen then [] else closing runStart pen ++ [.moveTo s.start]

/-- Where the run of the next segment starts. -/
def runStartAt : Stance α → Segment α → Point α
  | outset, s => s.start
  | within runStart pen, s => if s.start == pen then runStart else s.start

/-- The stance behind the next segment. -/
def behind (w : Stance α) (s : Segment α) : Stance α := within (w.runStartAt s) s.finish

/-- What is drawn behind the last segment. -/
def trail : Stance α → List (Element α)
  | outset => []
  | within runStart pen => closing runStart pen

/-- The elements that draw segments from a stance, up to the end of the last one. -/
def traced : Stance α → List (Segment α) → List (Element α)
  | _, [] => []
  | w, s :: rest => w.lead s ++ s.elements ++ (w.behind s).traced rest

variable {w : Stance α} {s : Segment α} {l r : List (Segment α)} {e : Element α}

theorem traced_append : w.traced (l ++ r) = w.traced l ++ (l.foldl behind w).traced r := by
  induction l generalizing w with
  | nil => rfl
  | cons s rest ih => simp [traced, ih]

theorem strokes_eq (runStart pen : Point α) (segments : List (Segment α)) :
    Path.strokes runStart pen segments =
      (within runStart pen).traced segments ++
        (segments.foldl behind (within runStart pen)).trail := by
  induction segments generalizing runStart pen with
  | nil => rfl
  | cons s rest ih =>
      rw [Path.strokes, traced, lead, List.foldl_cons, behind, runStartAt, ih, ih]
      by_cases hmeets : (s.start == pen) = true
      · simp [hmeets]
      · simp [hmeets]

theorem ofSegments_eq_traced (segments : List (Segment α)) :
    (Path.ofSegments segments).elements =
      outset.traced segments ++ (segments.foldl behind outset).trail := by
  cases segments with
  | nil => rfl
  | cons s rest =>
      change .moveTo s.start :: s.elements ++ Path.strokes s.start s.finish rest = _
      rw [strokes_eq]
      simp [traced, lead, behind, runStartAt]

/-- The elements of a segment, with what is drawn before it in front of them. -/
theorem exists_of_mem (before : List (Segment α)) (s : Segment α) (after : List (Segment α)) :
    ∃ post, (Path.ofSegments (before ++ s :: after)).elements =
      outset.traced before ++ (before.foldl behind outset).lead s ++ s.elements ++ post := by
  rw [ofSegments_eq_traced, traced_append, traced]
  simp only [List.append_assoc]
  exact ⟨_, rfl⟩

/-- Whether a segment from the point starts a run of its own. -/
def Leaves (w : Stance α) (p : Point α) : Prop :=
  ∀ runStart pen, w = within runStart pen → (p == pen) = false

theorem lead_of_leaves (h : w.Leaves s.start) :
    w.lead s = w.trail ++ [.moveTo s.start] ∧ w.runStartAt s = s.start := by
  cases w with
  | outset => exact ⟨rfl, rfl⟩
  | within runStart pen =>
      have hjump : ¬ (s.start == pen) = true := by
        rw [h runStart pen rfl]
        exact Bool.false_ne_true
      rw [lead, runStartAt, if_neg hjump, if_neg hjump]
      exact ⟨rfl, rfl⟩

theorem lead_of_not_leaves (h : ¬ w.Leaves s.start) : w.lead s = [] ∧
    ∃ runStart pen, w = within runStart pen ∧ (s.start == pen) = true ∧
      w.runStartAt s = runStart := by
  cases w with
  | outset => exact absurd (fun _ _ hw => nomatch hw) h
  | within runStart pen =>
      have hmeets : (s.start == pen) = true := by
        by_contra hjump
        refine h ?_
        rintro _ _ ⟨⟩
        exact Bool.eq_false_iff.mpr hjump
      rw [lead, runStartAt, if_pos hmeets, if_pos hmeets]
      exact ⟨rfl, runStart, pen, rfl, hmeets, rfl⟩

theorem isStroke_of_mem_trail (h : e ∈ w.trail) : e.isStroke = false := by
  cases w with
  | outset => simp [trail] at h
  | within runStart pen =>
      by_cases hreturned : (pen == runStart) = true
      · rw [trail, closing, if_pos hreturned] at h
        rw [List.mem_singleton.mp h]
        rfl
      · simp [trail, closing, hreturned] at h

theorem isStroke_of_mem_lead (h : e ∈ w.lead s) : e.isStroke = false := by
  by_cases hleaves : w.Leaves s.start
  · rw [(lead_of_leaves hleaves).1] at h
    rcases List.mem_append.mp h with htrail | hmove
    · exact isStroke_of_mem_trail htrail
    · rw [List.mem_singleton.mp hmove]
      rfl
  · simp [(lead_of_not_leaves hleaves).1] at h

theorem filter_isStroke_lead : (w.lead s).filter Element.isStroke = [] :=
  List.filter_eq_nil_iff.mpr fun _ he => by simp [isStroke_of_mem_lead he]

theorem filter_isStroke_trail : w.trail.filter Element.isStroke = [] :=
  List.filter_eq_nil_iff.mpr fun _ he => by simp [isStroke_of_mem_trail he]

theorem filter_isStroke_elements : s.elements.filter Element.isStroke = s.elements :=
  List.filter_eq_self.mpr fun _ he => Segment.isStroke_of_mem_elements he

theorem filter_isStroke_traced :
    (w.traced l).filter Element.isStroke = l.flatMap Segment.elements := by
  induction l generalizing w with
  | nil => rfl
  | cons s rest ih =>
      rw [traced, List.filter_append, List.filter_append, filter_isStroke_lead,
        filter_isStroke_elements, ih, List.flatMap_cons, List.nil_append]

/-- Whether the run has come back to its start. -/
def Returned : Stance α → Prop
  | outset => False
  | within runStart pen => (pen == runStart) = true

omit [Scalar α] in
/-- An element of two joined lists stands in the first or in the second. -/
theorem cut_of_append_eq {es fs pre post : List (Element α)} (h : es ++ fs = pre ++ e :: post) :
    (∃ rest, es = pre ++ e :: rest ∧ post = rest ++ fs) ∨
      ∃ rest, pre = es ++ rest ∧ fs = rest ++ e :: post := by
  induction es generalizing pre with
  | nil => exact Or.inr ⟨pre, rfl, h⟩
  | cons f es ih =>
      cases pre with
      | nil =>
          obtain ⟨rfl, rfl⟩ := List.cons.inj h
          exact Or.inl ⟨es, rfl, rfl⟩
      | cons f' pre =>
          obtain ⟨rfl, htail⟩ := List.cons.inj h
          rcases ih htail with ⟨rest, rfl, rfl⟩ | ⟨rest, rfl, rfl⟩
          · exact Or.inl ⟨rest, rfl, rfl⟩
          · exact Or.inr ⟨rest, rfl, rfl⟩

theorem trail_eq_of_close {pre post : List (Element α)} (h : w.trail = pre ++ .close :: post) :
    w.Returned ∧ pre = [] ∧ post = [] := by
  cases w with
  | outset => simp [trail] at h
  | within runStart pen =>
      by_cases hreturned : (pen == runStart) = true
      · rw [trail, closing, if_pos hreturned] at h
        cases pre with
        | nil => exact ⟨hreturned, rfl, (List.cons.inj h).2.symm⟩
        | cons f pre => simp at h
      · simp [trail, closing, hreturned] at h

theorem lead_eq_of_close {pre post : List (Element α)} (h : w.lead s = pre ++ .close :: post) :
    w.Returned ∧ pre = [] ∧ post = [.moveTo s.start] := by
  by_cases hleaves : w.Leaves s.start
  · rw [(lead_of_leaves hleaves).1] at h
    rcases cut_of_append_eq h with ⟨rest, htrail, rfl⟩ | ⟨rest, -, hmove⟩
    · obtain ⟨hreturned, rfl, rfl⟩ := trail_eq_of_close htrail
      exact ⟨hreturned, rfl, rfl⟩
    · cases rest <;> simp at hmove
  · simp [(lead_of_not_leaves hleaves).1] at h

/-- A close stands behind some of the segments, at a stance that has returned, and the rest is a
move on or nothing. -/
theorem exists_of_close {pre post : List (Element α)}
    (h : w.traced l ++ (l.foldl behind w).trail = pre ++ .close :: post) :
    ∃ before after, l = before ++ after ∧ pre = w.traced before ∧
      (before.foldl behind w).Returned ∧ (post = [] ∨ ∃ p rest, post = .moveTo p :: rest) := by
  induction l generalizing w pre with
  | nil =>
      obtain ⟨hreturned, rfl, rfl⟩ := trail_eq_of_close h
      exact ⟨[], [], rfl, rfl, hreturned, Or.inl rfl⟩
  | cons s rest ih =>
      rw [traced, List.foldl_cons, List.append_assoc, List.append_assoc] at h
      -- the close is in the lead, among the elements of the segment, or behind them
      rcases cut_of_append_eq h with ⟨tail, hlead, rfl⟩ | ⟨pre₁, rfl, hbehind⟩
      · obtain ⟨hreturned, rfl, rfl⟩ := lead_eq_of_close hlead
        exact ⟨[], s :: rest, rfl, rfl, hreturned, Or.inr ⟨_, _, rfl⟩⟩
      · rcases cut_of_append_eq hbehind with ⟨tail, helements, -⟩ | ⟨pre₂, rfl, hrest⟩
        · have hclose : Element.close ∈ s.elements := by simp [helements]
          exact absurd (Segment.isStroke_of_mem_elements hclose) (by simp [Element.isStroke])
        · obtain ⟨before, after, rfl, rfl, hreturned, hpost⟩ := ih hrest
          exact ⟨s :: before, after, rfl, by simp [traced], hreturned, hpost⟩

end Stance

end ArcLength
