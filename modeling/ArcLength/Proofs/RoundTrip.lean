import Mathlib
import ArcLength.Proofs.Following

/-!
# Path data that is written and read back

A path in normal form, written in words as path data, is read back as it is: the tokens of the text
are its words, a cursor that follows them draws the segments of its subpaths, and these give the
path.
-/

namespace ArcLength

/-- Subpaths that jump from one to the next, at plain points. -/
def Path.IsNormal (p : Path Float) : Prop :=
  ∃ subpaths : List (Subpath Float), p.elements = subpaths.flatMap Subpath.elements ∧
    subpaths.IsChain Subpath.Jumps ∧ ∀ e ∈ p.elements, ∀ q ∈ e.points, q.IsPlain

theorem Stroke.finish_mem_points {α : Type} (s : Stroke α) : s.finish ∈ s.element.points := by
  cases s <;> simp [Stroke.finish, Stroke.element, Element.points]

theorem Subpath.element_mem {s : Subpath Float} {t : Stroke Float} (h : t ∈ s.strokes) :
    t.element ∈ s.elements := by
  rw [Subpath.elements]
  exact List.mem_append_left _ (List.mem_cons_of_mem _ (List.mem_map_of_mem h))

namespace PathData

theorem arcTo_notMem_words (es : List (Element Float)) :
    Word.command .arcTo ∉ es.flatMap elementWords := by
  intro h
  obtain ⟨e, -, hword⟩ := List.mem_flatMap.mp h
  rcases List.mem_cons.mp hword with hcommand | hpoint
  · cases e <;> simp [commandOf] at hcommand
  · obtain ⟨p, -, hcoordinate⟩ := List.mem_flatMap.mp hpoint
    simp [pointWords] at hcoordinate

/-- The segments of a text that writes subpaths at plain points. -/
theorem segments_of_writes {subpaths : List (Subpath Float)} {text : String}
    (hplain : ∀ e ∈ subpaths.flatMap Subpath.elements, ∀ q ∈ e.points, q.IsPlain)
    (hwrites : Writes ((subpaths.flatMap Subpath.elements).flatMap elementWords) text.toList) :
    segments (Token.ofText text) = .ok (subpaths.flatMap Subpath.segments) := by
  have hscan := scan_of_writes hwrites (arcTo_notMem_words _)
  obtain ⟨instructions, hdeal, hrun⟩ := exists_run hplain hscan none Cursor.initial
  obtain ⟨hsegments, hanchor⟩ := Cursor.followAll_subpaths (c := Cursor.initial) subpaths
  have htokens : Instruction.ofTokens (Token.ofText text) = (instructions, none) := hdeal
  have hanchor' : (Cursor.initial.followAll
      (subpaths.flatMap Subpath.elements)).2.unanchored = false := hanchor
  rw [segments, htokens]
  dsimp only
  rw [hrun]
  dsimp only
  rw [hanchor', hsegments]
  rfl

end PathData

/-- **Path data round trip.** A path in normal form that is written as path data, with absolute
commands and any numerals for its coordinates, is read back as the same path. -/
theorem Path.ofData_of_writes {p : Path Float} (hnormal : p.IsNormal) {text : String}
    (hwrites : PathData.Writes (p.elements.flatMap PathData.elementWords) text.toList) :
    Path.ofData text = .ok p := by
  obtain ⟨subpaths, helements, hjumps, hplain⟩ := hnormal
  rw [helements] at hwrites hplain
  have hself : ∀ s ∈ subpaths, ∀ t ∈ s.strokes, (t.finish == t.finish) = true := by
    intro s hs t ht
    have hmem : t.element ∈ subpaths.flatMap Subpath.elements :=
      List.mem_flatMap.mpr ⟨s, hs, Subpath.element_mem ht⟩
    exact (hplain _ hmem _ t.finish_mem_points).beq_self
  have hpath : Path.ofSegments (subpaths.flatMap Subpath.segments) = p :=
    Path.ext ((Stance.elements_ofSegments_subpaths hjumps hself).trans helements.symm)
  rw [Path.ofData, PathData.segments_of_writes hplain hwrites]
  exact congrArg Except.ok hpath

/-- A subpath that touches its start and returns to it, and a curve elsewhere. -/
def Path.spurAndCurve : Path Float :=
  ⟨[.moveTo ⟨0, 0.5⟩, .lineTo ⟨10, -2⟩, .lineTo ⟨0, 0.5⟩, .lineTo ⟨2, 1⟩, .lineTo ⟨0, 0.5⟩, .close,
    .moveTo ⟨3, 3⟩, .quadTo ⟨1, 2⟩ ⟨0, 0⟩]⟩

theorem Path.isNormal_spurAndCurve : spurAndCurve.IsNormal := by
  have hplain : ∀ e ∈ spurAndCurve.elements, ∀ q ∈ e.points,
      (q.x.isFinite = true ∧ q.y.isFinite = true) ∧ q.x ≠ -0 ∧ q.y ≠ -0 := by
    decide +kernel
  refine ⟨[⟨⟨0, 0.5⟩, [.line ⟨10, -2⟩, .line ⟨0, 0.5⟩, .line ⟨2, 1⟩, .line ⟨0, 0.5⟩], by simp⟩,
    ⟨⟨3, 3⟩, [.quadratic ⟨1, 2⟩ ⟨0, 0⟩], by simp⟩], ?_, ?_, ?_⟩
  · decide +kernel
  · simp only [List.isChain_cons_cons, List.isChain_singleton, and_true, Subpath.Jumps]
    decide +kernel
  · intro e he q hq
    obtain ⟨hfinite, hx, hy⟩ := hplain e he q hq
    exact ⟨hfinite, hx, hy⟩

open PathData Decimal in
theorem Path.writes_spurAndCurve :
    Writes (spurAndCurve.elements.flatMap elementWords)
      "M0 .5L1e1 -2L0 .5L2 1 L0 .5Z M3 3Q1 2 0 0".toList := by
  have hdigit : ∀ d : Fin 10, (Scalar.ofDecimal ⟨false, d, 0⟩ : Float) = Float.ofNat d := by
    decide +kernel
  have hhalf : (Scalar.ofDecimal ⟨false, 5, -1⟩ : Float) = 0.5 := by decide +kernel
  have hten : (Scalar.ofDecimal ⟨false, 1, 1⟩ : Float) = 10 := by decide +kernel
  have hminus : (Scalar.ofDecimal ⟨true, 2, 0⟩ : Float) = -2 := by decide +kernel
  have hfive := isDigit_of_mem_singleton (d := '5') rfl
  have hone := isDigit_of_mem_singleton (d := '1') rfl
  have htwo := isDigit_of_mem_singleton (d := '2') rfl
  refine .command .moveTo (.coordinate (.ofDigit '0' rfl) (hdigit 0) (setOff_space _) (.space ?_))
  refine .coordinate ⟨.unwritten, [], ['5'], none, by simp, hfive, by simp⟩ hhalf
    (setOff_letter .lineTo _) ?_
  refine .command .lineTo (.coordinate
    ⟨.unwritten, ['1'], [], some ⟨'e', .unwritten, ['1'], .inl rfl, hone, by simp⟩, hone,
      by simp, by simp⟩ hten (setOff_space _) (.space ?_))
  refine .coordinate ⟨.minus, ['2'], [], none, htwo, by simp, by simp⟩ hminus
    (setOff_letter .lineTo _) ?_
  refine .command .lineTo (.coordinate (.ofDigit '0' rfl) (hdigit 0) (setOff_space _) (.space ?_))
  refine .coordinate ⟨.unwritten, [], ['5'], none, by simp, hfive, by simp⟩ hhalf
    (setOff_letter .lineTo _) ?_
  refine .command .lineTo (.coordinate (.ofDigit '2' rfl) (hdigit 2) (setOff_space _) (.space ?_))
  refine .coordinate (.ofDigit '1' rfl) (hdigit 1) (setOff_space _) (.space ?_)
  refine .command .lineTo (.coordinate (.ofDigit '0' rfl) (hdigit 0) (setOff_space _) (.space ?_))
  refine .coordinate ⟨.unwritten, [], ['5'], none, by simp, hfive, by simp⟩ hhalf
    (setOff_letter .closePath _) ?_
  refine .command .closePath (.space (.command .moveTo ?_))
  refine .coordinate (.ofDigit '3' rfl) (hdigit 3) (setOff_space _) (.space ?_)
  refine .coordinate (.ofDigit '3' rfl) (hdigit 3) (setOff_letter .quadTo _) ?_
  refine .command .quadTo (.coordinate (.ofDigit '1' rfl) (hdigit 1) (setOff_space _) (.space ?_))
  refine .coordinate (.ofDigit '2' rfl) (hdigit 2) (setOff_space _) (.space ?_)
  refine .coordinate (.ofDigit '0' rfl) (hdigit 0) (setOff_space _) (.space ?_)
  exact .coordinate (.ofDigit '0' rfl) (hdigit 0) setOff_nil .done

theorem Path.ofData_spurAndCurve :
    spurAndCurve.IsNormal ∧
    PathData.Writes (spurAndCurve.elements.flatMap PathData.elementWords)
      "M0 .5L1e1 -2L0 .5L2 1 L0 .5Z M3 3Q1 2 0 0".toList ∧
    Path.ofData "M0 .5L1e1 -2L0 .5L2 1 L0 .5Z M3 3Q1 2 0 0" = .ok spurAndCurve :=
  ⟨isNormal_spurAndCurve, writes_spurAndCurve,
    ofData_of_writes isNormal_spurAndCurve writes_spurAndCurve⟩

end ArcLength
