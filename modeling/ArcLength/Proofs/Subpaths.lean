import Mathlib
import ArcLength.Proofs.Stance

/-!
# Paths in normal form

A path in normal form is a list of subpaths. Each is a move and strokes, at least one, and a close
exactly if the last stroke ends where the move goes; and each starts elsewhere than the one before
it ends. The segments that its strokes trace give the same path back.
-/

namespace ArcLength

variable {α : Type}

inductive Stroke (α : Type) where
  | line (finish : Point α)
  | quadratic (control finish : Point α)
  | cubic (control1 control2 finish : Point α)
deriving DecidableEq, Repr

namespace Stroke

def finish : Stroke α → Point α
  | line p => p
  | quadratic _ p => p
  | cubic _ _ p => p

def element : Stroke α → Element α
  | line p => .lineTo p
  | quadratic c p => .quadTo c p
  | cubic c₁ c₂ p => .cubicTo c₁ c₂ p

/-- The segment that the stroke draws for a pen at a point. -/
def segment (pen : Point α) : Stroke α → Segment α
  | line p => .line pen p
  | quadratic c p => .quadratic pen c p
  | cubic c₁ c₂ p => .cubic pen c₁ c₂ p

/-- Where strokes from a point leave the pen. -/
def endpoint : Point α → List (Stroke α) → Point α
  | pen, [] => pen
  | _, s :: rest => endpoint s.finish rest

def segments : Point α → List (Stroke α) → List (Segment α)
  | _, [] => []
  | pen, s :: rest => s.segment pen :: segments s.finish rest

theorem segment_start (pen : Point α) (s : Stroke α) : (s.segment pen).start = pen := by
  cases s <;> rfl

theorem segment_finish (pen : Point α) (s : Stroke α) : (s.segment pen).finish = s.finish := by
  cases s <;> rfl

theorem segment_elements [Scalar α] (pen : Point α) (s : Stroke α) :
    (s.segment pen).elements = [s.element] := by
  cases s <;> rfl

end Stroke

structure Subpath (α : Type) where
  start : Point α
  strokes : List (Stroke α)
  strokes_ne_nil : strokes ≠ []

namespace Subpath

def finish (s : Subpath α) : Point α := Stroke.endpoint s.start s.strokes

variable [Scalar α]

def elements (s : Subpath α) : List (Element α) :=
  .moveTo s.start :: s.strokes.map Stroke.element ++
    if s.finish == s.start then [.close] else []

def segments (s : Subpath α) : List (Segment α) := Stroke.segments s.start s.strokes

/-- Whether the second subpath starts elsewhere than the first one ends. -/
def Jumps (s t : Subpath α) : Prop := (t.start == s.finish) = false

end Subpath

namespace Stance

variable [Scalar α] {w : Stance α}

/-- Strokes from the pen are traced as they are. -/
theorem traced_strokes (runStart : Point α) {pen : Point α} {strokes : List (Stroke α)}
    (hself : ∀ s ∈ strokes, (s.finish == s.finish) = true) (hpen : (pen == pen) = true) :
    (within runStart pen).traced (Stroke.segments pen strokes) = strokes.map Stroke.element ∧
      (Stroke.segments pen strokes).foldl behind (within runStart pen) =
        within runStart (Stroke.endpoint pen strokes) := by
  induction strokes generalizing pen with
  | nil => exact ⟨rfl, rfl⟩
  | cons s rest ih =>
      obtain ⟨htraced, hbehind⟩ := ih (fun t ht => hself t (List.mem_cons_of_mem s ht))
        (hself s List.mem_cons_self)
      have hstep : (within runStart pen).behind (s.segment pen) = within runStart s.finish := by
        rw [behind, runStartAt, Stroke.segment_start, Stroke.segment_finish, if_pos hpen]
      refine ⟨?_, ?_⟩
      · rw [Stroke.segments, traced, lead, Stroke.segment_start, if_pos hpen,
          Stroke.segment_elements, hstep, htraced]
        rfl
      · rw [Stroke.segments, List.foldl_cons, hstep, hbehind]
        rfl

theorem traced_subpath {s : Subpath α} (hleaves : w.Leaves s.start)
    (hself : ∀ t ∈ s.strokes, (t.finish == t.finish) = true) :
    w.traced s.segments = w.trail ++ .moveTo s.start :: s.strokes.map Stroke.element ∧
      s.segments.foldl behind w = within s.start s.finish := by
  rw [Subpath.segments, Subpath.finish]
  cases hstrokes : s.strokes with
  | nil => exact absurd hstrokes s.strokes_ne_nil
  | cons t rest =>
      have hstart : (t.segment s.start).start = s.start := t.segment_start s.start
      obtain ⟨hlead, hrun⟩ := lead_of_leaves (w := w) (s := t.segment s.start) (by rwa [hstart])
      have hbehind : w.behind (t.segment s.start) = within s.start t.finish := by
        rw [behind, hrun, hstart, t.segment_finish]
      rw [hstrokes] at hself
      obtain ⟨htraced, hfold⟩ := traced_strokes s.start
        (fun u hu => hself u (List.mem_cons_of_mem t hu)) (hself t List.mem_cons_self)
      refine ⟨?_, ?_⟩
      · rw [Stroke.segments, traced, hlead, hstart, t.segment_elements, hbehind, htraced]
        simp
      · rw [Stroke.segments, List.foldl_cons, hbehind, hfold]
        rfl

/-- Subpaths that jump are traced as they are, behind what closes the run before them. -/
theorem traced_subpaths {subpaths : List (Subpath α)}
    (hjumps : subpaths.IsChain Subpath.Jumps)
    (hself : ∀ s ∈ subpaths, ∀ t ∈ s.strokes, (t.finish == t.finish) = true)
    (hleaves : ∀ s ∈ subpaths.head?, w.Leaves s.start) :
    w.traced (subpaths.flatMap Subpath.segments) ++
        ((subpaths.flatMap Subpath.segments).foldl behind w).trail =
      w.trail ++ subpaths.flatMap Subpath.elements := by
  induction subpaths generalizing w with
  | nil => simp [traced]
  | cons s rest ih =>
      obtain ⟨hjump, hrest⟩ := List.isChain_cons.mp hjumps
      obtain ⟨htraced, hfold⟩ := traced_subpath (hleaves s rfl) (hself s List.mem_cons_self)
      have hleaves' : ∀ t ∈ rest.head?, (within s.start s.finish).Leaves t.start := by
        rintro t ht _ _ ⟨⟩
        exact hjump t ht
      have hrest' := ih hrest (fun t ht => hself t (List.mem_cons_of_mem s ht)) hleaves'
      rw [List.flatMap_cons, traced_append, List.foldl_append, htraced, hfold, List.append_assoc,
        hrest', List.flatMap_cons, Subpath.elements, trail, Path.closing]
      simp

/-- The segments of subpaths that jump give their elements back. -/
theorem elements_ofSegments_subpaths {subpaths : List (Subpath α)}
    (hjumps : subpaths.IsChain Subpath.Jumps)
    (hself : ∀ s ∈ subpaths, ∀ t ∈ s.strokes, (t.finish == t.finish) = true) :
    (Path.ofSegments (subpaths.flatMap Subpath.segments)).elements =
      subpaths.flatMap Subpath.elements := by
  rw [ofSegments_eq_traced, traced_subpaths hjumps hself]
  · rfl
  · rintro s - _ _ ⟨⟩

end Stance

end ArcLength
