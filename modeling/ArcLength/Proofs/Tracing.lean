import Mathlib
import ArcLength.Proofs.Drawing
import ArcLength.Proofs.Significand
import ArcLength.Proofs.Simulation
import ArcLength.Proofs.Stance

/-!
# Tracing segments

A walk along a path from segments draws each segment as if it were alone: the pen stands at the
start of the segment before its first element and at its end behind its last, and what leads from
one segment to the next has no length. Points agree numerically, so up to the signs of zeros.
-/

namespace ArcLength

/-- Lists that add the same to every total. -/
def SameSum (lengths lengths' : List Float) : Prop :=
  ∀ x, Binary64.Settled x → lengths.foldl (· + ·) x = lengths'.foldl (· + ·) x

namespace SameSum

variable {a a' b b' : List Float}

theorem refl (a : List Float) : SameSum a a := fun _ _ => rfl

theorem append (h : SameSum a a') (h' : SameSum b b') : SameSum (a ++ b) (a' ++ b') := by
  intro x hx
  rw [List.foldl_append, List.foldl_append, h x hx]
  exact h' _ (hx.foldl_add a')

theorem of_zeros (h : ∀ length ∈ a, length = 0) : SameSum a [] := by
  intro x hx
  induction a with
  | nil => rfl
  | cons length rest ih =>
      rw [List.foldl_cons, h length List.mem_cons_self, hx.add_zero]
      exact ih fun l hl => h l (List.mem_cons_of_mem length hl)

theorem sum_eq (h : SameSum a b) : a.foldl (· + ·) (0 : Float) = b.foldl (· + ·) 0 :=
  h 0 Binary64.settled_zero

end SameSum

section MapM

variable {A B : Type}

theorem mapM_cons (f : A → Option B) (a : A) (l : List A) :
    (a :: l).mapM f = (f a).bind fun b => (l.mapM f).map (b :: ·) := by
  rw [List.mapM_cons]
  cases f a with
  | none => rfl
  | some b => cases l.mapM f <;> rfl

theorem mapM_concat (f : A → Option B) (l : List A) (a : A) :
    (l ++ [a]).mapM f = (l.mapM f).bind fun bs => (f a).map fun b => bs ++ [b] := by
  rw [List.mapM_append]
  cases l.mapM f with
  | none => rfl
  | some bs => cases hfa : f a <;> simp [hfa]

end MapM

/-- The lengths of the elements that draw the segment alone, for a pen at its start. -/
def Segment.strokeLengths {α : Type} [Scalar α] (budget : ℕ) (tolerance : α) (s : Segment α) :
    Option (List α) :=
  (((State.initial .totalLength 0 tolerance).moveTo s.start).2.drawAll budget s.elements).map
    Prod.fst

namespace State

variable {budget : ℕ} {s t : State Float} {tolerance : Float}

theorem Alike.rel_drawAll (h : s.Alike t) (budget : ℕ) {es : List (Element Float)}
    (hstrokes : ∀ e ∈ es, e.isStroke = true) :
    Option.Rel (fun r r' => r.1 = r'.1 ∧ r.2.Alike r'.2) (s.drawAll budget es)
      (t.drawAll budget es) := by
  induction es generalizing s t with
  | nil => exact .some ⟨rfl, h⟩
  | cons e rest ih =>
      refine rel_bind (h.rel_draw budget (hstrokes e List.mem_cons_self)) ?_
      intro drawn drawn' _ _ hdrawn
      refine rel_map (ih hdrawn.2 fun f hf => hstrokes f (List.mem_cons_of_mem e hf)) ?_
      intro r r' _ _ hr
      exact ⟨by rw [hdrawn.1, hr.1], hr.2⟩

/-- A length walk whose pen and subpath start are those of a stance, at finite points. -/
structure StandsAt (t : State Float) (tolerance : Float) (w : Stance Float) : Prop where
  goal : t.goal = .totalLength
  tolerance : t.tolerance = tolerance
  pen : ∀ runStart pen, w = .within runStart pen →
    t.current.Alike pen ∧ t.subpathStart.Alike runStart ∧ runStart.IsFinite

variable {w : Stance Float} {segment : Segment Float}

/-- A close where the run has come back to its start has no length and keeps the pen in place. -/
theorem StandsAt.close (h : t.StandsAt tolerance w) (hreturned : w.Returned) :
    t.closeSubpath.1 = 0 ∧ (t.closeSubpath.2.current == t.current) = true := by
  cases w with
  | outset => exact hreturned.elim
  | within runStart pen =>
      obtain ⟨hpen, hstart, hfinite⟩ := h.pen runStart pen rfl
      have hcurrent : t.current.Alike runStart := hpen.trans (Point.alike_of_beq hreturned)
      have hback : t.subpathStart.Alike t.current := hstart.trans hcurrent.symm
      exact ⟨Point.distance_eq_zero_of_alike (hcurrent.isFinite hfinite) hback.symm,
        hback.beq (hstart.isFinite hfinite)⟩

theorem StandsAt.drawAll_trail (h : t.StandsAt tolerance w) (budget : ℕ) :
    ∃ lengths t', t.drawAll budget w.trail = some (lengths, t') ∧
      ∀ length ∈ lengths, length = 0 := by
  cases w with
  | outset => exact ⟨[], t, rfl, by simp⟩
  | within runStart pen =>
      rw [Stance.trail, Path.closing]
      by_cases hreturned : (pen == runStart) = true
      · obtain ⟨hzero, -⟩ := h.close (w := .within runStart pen) hreturned
        rw [if_pos hreturned]
        exact ⟨[t.closeSubpath.1], _, rfl, by simp [hzero]⟩
      · rw [if_neg hreturned]
        exact ⟨[], t, rfl, by simp⟩

theorem standsAt_moveTo (hgoal : t.goal = .totalLength) (htolerance : t.tolerance = tolerance)
    {p : Point Float} (hp : p.IsFinite) : (t.moveTo p).2.StandsAt tolerance (.within p p) where
  goal := hgoal
  tolerance := htolerance
  pen := by
    rintro _ _ ⟨⟩
    exact ⟨.refl p, .refl p, hp⟩

/-- What leads to a segment has no length and takes the pen to its start. -/
theorem StandsAt.drawAll_lead (h : t.StandsAt tolerance w) (hstart : segment.start.IsFinite)
    (budget : ℕ) : ∃ lengths t', t.drawAll budget (w.lead segment) = some (lengths, t') ∧
      (∀ length ∈ lengths, length = 0) ∧
      t'.StandsAt tolerance (.within (w.runStartAt segment) segment.start) := by
  by_cases hleaves : w.Leaves segment.start
  · obtain ⟨hlead, hrun⟩ := Stance.lead_of_leaves hleaves
    obtain ⟨zeros, t', htrail, hzeros⟩ := h.drawAll_trail budget
    obtain ⟨hgoal, htolerance⟩ := drawAll_frame htrail
    refine ⟨zeros ++ [0], (t'.moveTo segment.start).2, ?_, ?_, ?_⟩
    · rw [hlead, drawAll_append, htrail]
      rfl
    · intro length hmem
      rcases List.mem_append.mp hmem with hzero | hzero
      · exact hzeros length hzero
      · exact List.mem_singleton.mp hzero
    · rw [hrun]
      exact standsAt_moveTo (hgoal.trans h.goal) (htolerance.trans h.tolerance) hstart
  · -- the pen is there already
    obtain ⟨hlead, runStart, pen, rfl, hmeets, hrun⟩ := Stance.lead_of_not_leaves hleaves
    obtain ⟨hpen, hsubpath, hfinite⟩ := h.pen runStart pen rfl
    rw [hlead, hrun]
    refine ⟨[], t, rfl, by simp, h.goal, h.tolerance, ?_⟩
    rintro _ _ ⟨⟩
    exact ⟨hpen.trans (Point.alike_of_beq hmeets).symm, hsubpath, hfinite⟩

/-- From its start a segment is drawn with the lengths it has alone. -/
theorem StandsAt.rel_elements {runStart : Point Float}
    (h : t.StandsAt tolerance (.within runStart segment.start)) (budget : ℕ) :
    Option.Rel (fun r lengths => r.1 = lengths ∧ r.2.current = segment.finish ∧
        r.2.StandsAt tolerance (.within runStart segment.finish))
      (t.drawAll budget segment.elements) (segment.strokeLengths budget tolerance) := by
  obtain ⟨hpen, hrun, hfinite⟩ := h.pen runStart segment.start rfl
  have halike : t.Alike ((State.initial .totalLength 0 tolerance).moveTo segment.start).2 :=
    ⟨h.goal, rfl, h.tolerance, hpen⟩
  have hstrokes : ∀ e ∈ segment.elements, e.isStroke = true :=
    fun _ he => Segment.isStroke_of_mem_elements he
  rw [Segment.strokeLengths, ← Option.map_id' (x := t.drawAll budget segment.elements)]
  refine rel_map (halike.rel_drawAll budget hstrokes) ?_
  intro r r' hr _ hrel
  obtain ⟨hgoal, htolerance⟩ := drawAll_frame hr
  obtain ⟨hcurrent, hstart⟩ := drawAll_elements h.goal hr
  refine ⟨hrel.1, hcurrent, hgoal.trans h.goal, htolerance.trans h.tolerance, ?_⟩
  rintro _ _ ⟨⟩
  exact ⟨hcurrent ▸ .refl _, hstart ▸ hrun, hfinite⟩

/-- A segment and what leads to it are drawn with the sum that the segment has alone. -/
theorem StandsAt.rel_segment (h : t.StandsAt tolerance w) (hstart : segment.start.IsFinite)
    (budget : ℕ) :
    Option.Rel (fun r lengths => SameSum r.1 lengths ∧ r.2.current = segment.finish ∧
        r.2.StandsAt tolerance (w.behind segment))
      (t.drawAll budget (w.lead segment ++ segment.elements))
      (segment.strokeLengths budget tolerance) := by
  obtain ⟨zeros, t', hlead, hzeros, ht'⟩ := h.drawAll_lead hstart budget
  rw [drawAll_append, hlead, Option.bind_some,
    ← Option.map_id' (x := segment.strokeLengths budget tolerance)]
  refine rel_map (ht'.rel_elements budget) ?_
  rintro r lengths - - ⟨rfl, hcurrent, hstands⟩
  exact ⟨(SameSum.of_zeros hzeros).append (.refl r.1), hcurrent, hstands⟩

/-- Segments are drawn with the sum that they have each alone. -/
theorem StandsAt.rel_traced (h : t.StandsAt tolerance w) {segments : List (Segment Float)}
    (hstarts : ∀ s ∈ segments, s.start.IsFinite) (budget : ℕ) :
    Option.Rel (fun r lengths => SameSum r.1 lengths.flatten ∧
        r.2.StandsAt tolerance (segments.foldl Stance.behind w))
      (t.drawAll budget (w.traced segments))
      (segments.mapM (Segment.strokeLengths budget tolerance)) := by
  induction segments generalizing t w with
  | nil => exact .some ⟨.refl [], h⟩
  | cons s rest ih =>
      rw [Stance.traced, drawAll_append, mapM_cons]
      refine rel_bind (h.rel_segment (hstarts s List.mem_cons_self) budget) ?_
      intro r lengths _ _ hsegment
      refine rel_map (ih hsegment.2.2 fun s hs => hstarts s (List.mem_cons_of_mem _ hs)) ?_
      intro r' lengths' _ _ hrest
      exact ⟨hsegment.1.append hrest.1, hrest.2⟩

/-- A walk of the elements comes through where each segment can be measured alone. Its total is then
the sum of the lengths of the segments, and its state satisfies the predicate, whatever its goal. -/
structure Arrives (budget : ℕ) (tolerance : Float) (es : List (Element Float))
    (segments : List (Segment Float)) (P : State Float → Prop) : Prop where
  isSome_eq : ∀ desired,
    ((State.initial .totalLength desired tolerance).advanceAll budget 0 es).isSome =
      (segments.mapM (Segment.strokeLengths budget tolerance)).isSome
  walking : ∀ goal desired t,
    (State.initial goal desired tolerance).advanceAll budget 0 es = some (.walking t) →
      P t ∧ ∃ lengths, segments.mapM (Segment.strokeLengths budget tolerance) = some lengths ∧
        t.totalLength = lengths.flatten.foldl (· + ·) 0

/-- Predicates on the pen and on the start of its subpath. -/
def OfPen (P : State Float → Prop) : Prop :=
  ∀ s t, s.current = t.current → s.subpathStart = t.subpathStart → P t → P s

variable {es : List (Element Float)} {segments : List (Segment Float)} {P : State Float → Prop}

/-- The elements are drawn where the segments can be measured, with the same sum, to a state that
satisfies the predicate. -/
def Draws (budget : ℕ) (tolerance : Float) (es : List (Element Float))
    (segments : List (Segment Float)) (P : State Float → Prop) : Prop :=
  ∀ desired, Option.Rel (fun r lengths => SameSum r.1 lengths.flatten ∧ P r.2)
    ((State.initial .totalLength desired tolerance).drawAll budget es)
    (segments.mapM (Segment.strokeLengths budget tolerance))

theorem Draws.rel_advanceAll (h : Draws budget tolerance es segments P) (hP : OfPen P)
    (desired : Float) :
    Option.Rel
      (fun p lengths => ∃ t, p = .walking t ∧ P t ∧
        t.totalLength = lengths.flatten.foldl (· + ·) 0)
      ((State.initial .totalLength desired tolerance).advanceAll budget 0 es)
      (segments.mapM (Segment.strokeLengths budget tolerance)) := by
  have hcounts : (State.initial .totalLength desired tolerance).Counts
      (State.initial .totalLength desired tolerance) := rfl
  refine rel_mono (rel_comp (hcounts.rel_advanceAll rfl 0 es) (h desired)) ?_
  rintro p lengths - - ⟨drawn, ⟨s, rfl, hs, htotal⟩, hsum, hdrawn⟩
  exact ⟨s, rfl, hP s drawn.2 hs.current_eq hs.subpathStart_eq hdrawn,
    htotal.trans hsum.sum_eq⟩

theorem exists_length_walk {goal : Goal} {desired : Float}
    (h : (State.initial goal desired tolerance).advanceAll budget 0 es = some (.walking t)) :
    ∃ l, (State.initial .totalLength desired tolerance).advanceAll budget 0 es =
        some (.walking l) ∧ t.current = l.current ∧ t.subpathStart = l.subpathStart ∧
          t.totalLength = l.totalLength := by
  cases hquery : goal.isLengthQuery with
  | false =>
      obtain rfl : goal = .totalLength := by
        cases goal <;> first | rfl | simp [Goal.isLengthQuery] at hquery
      exact ⟨t, h, rfl, rfl, rfl⟩
  | true =>
      have hfollows : (State.initial goal desired tolerance).Follows
          (State.initial .totalLength desired tolerance) := rfl
      obtain ⟨l, hl, hfollows'⟩ := hfollows.advanceAll_of_walking hquery rfl h
      exact ⟨l, hl, hfollows'.current_eq, hfollows'.subpathStart_eq, hfollows'.totalLength_eq⟩

theorem Draws.arrives (h : Draws budget tolerance es segments P) (hP : OfPen P) :
    Arrives budget tolerance es segments P where
  isSome_eq := fun desired => isSome_eq_of_rel (h.rel_advanceAll hP desired)
  walking := by
    intro goal desired t hwalk
    obtain ⟨l, hl, hcurrent, hstart, htotal⟩ := exists_length_walk hwalk
    have hrel := h.rel_advanceAll hP desired
    rw [hl] at hrel
    obtain ⟨lengths, hlengths, l', hl', hdrawn, hsum⟩ := exists_of_rel_some hrel
    obtain rfl := Progress.walking.inj hl'
    exact ⟨hP t l hcurrent hstart hdrawn, lengths, hlengths, htotal.trans hsum⟩

theorem Draws.length_eq (h : Draws budget tolerance es segments fun _ => True) :
    Path.length budget ⟨es⟩ tolerance =
      (segments.mapM (Segment.strokeLengths budget tolerance)).map
        fun lengths => lengths.flatten.foldl (· + ·) 0 := by
  have hrel := h.rel_advanceAll (fun _ _ _ _ _ => trivial) 0
  cases hleft : (State.initial .totalLength 0 tolerance).advanceAll budget 0 es with
  | none =>
      rw [hleft] at hrel
      rw [Path.length_of_not_walking hleft, eq_none_of_rel_none hrel, Option.map_none]
  | some p =>
      rw [hleft] at hrel
      obtain ⟨lengths, hlengths, t, rfl, -, htotal⟩ := exists_of_rel_some hrel
      rw [Path.length_of_walking hleft, htotal, hlengths, Option.map_some]

/-! ### Checkpoints of the drawing

What leads to a segment has no length, so behind it the sum is that of the segments before, and the
pen is at the start of the segment. The elements of the segment add its own lengths and take the pen
to its end.
-/

theorem standsAt_initial (desired tolerance : Float) :
    (State.initial .totalLength desired tolerance).StandsAt tolerance .outset :=
  ⟨rfl, rfl, by simp⟩

theorem draws_traced (hstarts : ∀ s ∈ segments, s.start.IsFinite) (budget : ℕ)
    (tolerance : Float) :
    Draws budget tolerance (Stance.outset.traced segments) segments
      (StandsAt · tolerance (segments.foldl Stance.behind .outset)) :=
  fun desired => (standsAt_initial desired tolerance).rel_traced hstarts budget

theorem draws_traced_append (hstarts : ∀ s ∈ segments, s.start.IsFinite)
    (hzeros : ∀ t : State Float, t.StandsAt tolerance (segments.foldl Stance.behind .outset) →
      ∃ lengths t', t.drawAll budget es = some (lengths, t') ∧
        (∀ length ∈ lengths, length = 0) ∧ P t') :
    Draws budget tolerance (Stance.outset.traced segments ++ es) segments P := by
  intro desired
  rw [drawAll_append,
    ← Option.bind_fun_some (segments.mapM (Segment.strokeLengths budget tolerance))]
  refine rel_bind (draws_traced hstarts budget tolerance desired) ?_
  rintro r lengths - - ⟨hsum, hstands⟩
  obtain ⟨zeros, t', hdraw, hzero, hP⟩ := hzeros r.2 hstands
  rw [hdraw]
  refine .some ⟨?_, hP⟩
  have happend := hsum.append (SameSum.of_zeros hzero)
  rwa [List.append_nil] at happend

theorem draws_lead (hstarts : ∀ s ∈ segments, s.start.IsFinite) (hstart : segment.start.IsFinite)
    (budget : ℕ) (tolerance : Float) :
    Draws budget tolerance
      (Stance.outset.traced segments ++ (segments.foldl Stance.behind .outset).lead segment)
      segments (fun t => (t.current == segment.start) = true) := by
  refine draws_traced_append hstarts ?_
  intro t hstands
  obtain ⟨zeros, t', hlead, hzeros, ht'⟩ := hstands.drawAll_lead hstart budget
  obtain ⟨hpen, -, -⟩ := ht'.pen _ _ rfl
  exact ⟨zeros, t', hlead, hzeros, hpen.beq (hpen.isFinite hstart)⟩

theorem draws_segment (hstarts : ∀ s ∈ segments, s.start.IsFinite)
    (hstart : segment.start.IsFinite) (budget : ℕ) (tolerance : Float) :
    Draws budget tolerance
      (Stance.outset.traced segments ++ (segments.foldl Stance.behind .outset).lead segment ++
        segment.elements)
      (segments ++ [segment]) (fun t => t.current = segment.finish) := by
  intro desired
  rw [List.append_assoc, drawAll_append, mapM_concat]
  refine rel_bind (draws_traced hstarts budget tolerance desired) ?_
  rintro r lengths - - ⟨hsum, hstands⟩
  refine rel_map (hstands.rel_segment hstart budget) ?_
  rintro r' lengths' - - ⟨hsum', hcurrent, -⟩
  refine ⟨?_, hcurrent⟩
  have happend := hsum.append hsum'
  rwa [List.flatten_append, List.flatten_singleton]

theorem draws_returned (hstarts : ∀ s ∈ segments, s.start.IsFinite)
    (hreturned : (segments.foldl Stance.behind .outset).Returned) (budget : ℕ)
    (tolerance : Float) :
    Draws budget tolerance (Stance.outset.traced segments) segments (fun t =>
      t.closeSubpath.1 = 0 ∧ (t.closeSubpath.2.current == t.current) = true) := by
  intro desired
  refine rel_mono (draws_traced hstarts budget tolerance desired) ?_
  rintro r lengths - - ⟨hsum, hstands⟩
  exact ⟨hsum, hstands.close hreturned⟩

theorem draws_trail (hstarts : ∀ s ∈ segments, s.start.IsFinite) (budget : ℕ)
    (tolerance : Float) :
    Draws budget tolerance
      (Stance.outset.traced segments ++ (segments.foldl Stance.behind .outset).trail) segments
      (fun _ => True) := by
  refine draws_traced_append hstarts ?_
  intro t hstands
  obtain ⟨zeros, t', htrail, hzeros⟩ := hstands.drawAll_trail budget
  exact ⟨zeros, t', htrail, hzeros, trivial⟩

end State

open State in
/-- **The path of segments draws the segments.** Its elements are those of its runs: a move, the
elements of the segments, and a close if the run returns. The pen is at the start of each segment
before it and at its end behind it, in every walk that comes so far. A close has no length and keeps
the pen in place, and only a move can follow it. So the length of the path is the sum of the lengths
of the elements that draw each segment alone. -/
theorem Path.ofSegments_draws_segments (segments : List (Segment Float))
    (hstarts : ∀ s ∈ segments, s.start.IsFinite) (budget : ℕ) (tolerance : Float) :
    (ofSegments segments).elements = (Segment.runs segments).flatMap Segment.drawRun ∧
    (ofSegments segments).elements.filter Element.isStroke = segments.flatMap Segment.elements ∧
    (∀ before s after, segments = before ++ s :: after → ∃ pre post,
      (ofSegments segments).elements = pre ++ s.elements ++ post ∧
      pre.filter Element.isStroke = before.flatMap Segment.elements ∧
      Arrives budget tolerance pre before (fun t => (t.current == s.start) = true) ∧
      Arrives budget tolerance (pre ++ s.elements) (before ++ [s])
        (fun t => t.current = s.finish)) ∧
    (∀ pre post, (ofSegments segments).elements = pre ++ .close :: post →
      (post = [] ∨ ∃ p rest, post = .moveTo p :: rest) ∧
      ∃ before after, segments = before ++ after ∧
        pre.filter Element.isStroke = before.flatMap Segment.elements ∧
        Arrives budget tolerance pre before (fun t =>
          t.closeSubpath.1 = 0 ∧ (t.closeSubpath.2.current == t.current) = true)) ∧
    (ofSegments segments).length budget tolerance =
      (segments.mapM (Segment.strokeLengths budget tolerance)).map
        fun lengths => lengths.flatten.foldl (· + ·) 0 := by
  have htraced := Stance.ofSegments_eq_traced segments
  refine ⟨elements_ofSegments segments, ?_, ?_, ?_, ?_⟩
  · rw [htraced, List.filter_append, Stance.filter_isStroke_traced, Stance.filter_isStroke_trail,
      List.append_nil]
  · rintro before s after rfl
    have hbefore : ∀ t ∈ before, t.start.IsFinite :=
      fun t ht => hstarts t (List.mem_append_left _ ht)
    have hs : s.start.IsFinite := hstarts s (by simp)
    obtain ⟨post, hpost⟩ := Stance.exists_of_mem before s after
    refine ⟨Stance.outset.traced before ++ (before.foldl Stance.behind .outset).lead s, post, hpost,
      ?_,
      (draws_lead hbefore hs budget tolerance).arrives ?_,
      (draws_segment hbefore hs budget tolerance).arrives ?_⟩
    · rw [List.filter_append, Stance.filter_isStroke_traced, Stance.filter_isStroke_lead,
        List.append_nil]
    · intro t t' hcurrent _ ht
      rwa [hcurrent]
    · intro t t' hcurrent _ ht
      rwa [hcurrent]
  · intro pre post hclose
    rw [htraced] at hclose
    obtain ⟨before, after, rfl, rfl, hreturned, hpost⟩ := Stance.exists_of_close hclose
    refine ⟨hpost, before, after, rfl, Stance.filter_isStroke_traced, ?_⟩
    have hbefore : ∀ t ∈ before, t.start.IsFinite :=
      fun t ht => hstarts t (List.mem_append_left _ ht)
    refine (draws_returned hbefore hreturned budget tolerance).arrives ?_
    intro t t' hcurrent hstart ht
    simp only [closeSubpath, hcurrent, hstart]
    exact ht
  · have hdraws := draws_trail hstarts budget tolerance
    rw [← htraced] at hdraws
    exact hdraws.length_eq

/-- A triangle that returns to the other zero, and behind a jump a quadratic. -/
theorem Path.ofSegments_draws_triangle_and_chord :
    (∀ s ∈ ([.line ⟨0, 0⟩ ⟨3, 0⟩, .line ⟨3, -0⟩ ⟨3, 4⟩, .line ⟨3, 4⟩ ⟨-0, 0⟩,
        .quadratic ⟨5, 0⟩ ⟨6, 0⟩ ⟨7, 0⟩] : List (Segment Float)), s.start.IsFinite) ∧
    (ofSegments ([.line ⟨0, 0⟩ ⟨3, 0⟩, .line ⟨3, -0⟩ ⟨3, 4⟩, .line ⟨3, 4⟩ ⟨-0, 0⟩,
        .quadratic ⟨5, 0⟩ ⟨6, 0⟩ ⟨7, 0⟩] : List (Segment Float))).elements.filter
          Element.isStroke =
      [.lineTo ⟨3, 0⟩, .lineTo ⟨3, 4⟩, .lineTo ⟨-0, 0⟩, .quadTo ⟨6, 0⟩ ⟨7, 0⟩] ∧
    (ofSegments ([.line ⟨0, 0⟩ ⟨3, 0⟩, .line ⟨3, -0⟩ ⟨3, 4⟩, .line ⟨3, 4⟩ ⟨-0, 0⟩,
        .quadratic ⟨5, 0⟩ ⟨6, 0⟩ ⟨7, 0⟩] : List (Segment Float))).length 9 1 = some 14 := by
  have hstarts : ∀ s ∈ ([.line ⟨0, 0⟩ ⟨3, 0⟩, .line ⟨3, -0⟩ ⟨3, 4⟩, .line ⟨3, 4⟩ ⟨-0, 0⟩,
      .quadratic ⟨5, 0⟩ ⟨6, 0⟩ ⟨7, 0⟩] : List (Segment Float)), s.start.IsFinite := by
    simp only [List.forall_mem_cons, Point.IsFinite, Segment.start]
    decide +kernel
  obtain ⟨-, hstrokes, -, -, hlength⟩ := Path.ofSegments_draws_segments _ hstarts 9 1
  refine ⟨hstarts, hstrokes, hlength.trans ?_⟩
  decide +kernel

end ArcLength
