import Mathlib
import ArcLength.Proofs.Carrying
import ArcLength.Proofs.Location

/-!
# Similar paths

Over the reals a change of scale and origin takes a path to a similar one. Measured on the new scale,
tolerance and desired length included, the walk along the similar path takes the same decisions at
every piece and every element. So it is the image of the walk along the path, state by state.
-/

namespace ArcLength

open Filter

namespace Element

variable {α β : Type}

def map (f : Point α → Point β) : Element α → Element β
  | moveTo p => .moveTo (f p)
  | lineTo p => .lineTo (f p)
  | quadTo c p => .quadTo (f c) (f p)
  | cubicTo c₁ c₂ p => .cubicTo (f c₁) (f c₂) (f p)
  | close => .close

@[simp]
theorem isMove_map (f : Point α → Point β) (e : Element α) : (e.map f).isMove = e.isMove := by
  cases e <;> rfl

end Element

def Path.map {α β : Type} (f : Point α → Point β) (p : Path α) : Path β :=
  ⟨p.elements.map (Element.map f)⟩

/-- A change of scale and origin. -/
structure Similarity where
  scale : ℝ
  shift : Point ℝ
  scale_pos : 0 < scale

namespace Similarity

noncomputable def apply (m : Similarity) (p : Point ℝ) : Point ℝ :=
  ⟨m.scale * p.x + m.shift.x, m.scale * p.y + m.shift.y⟩

variable (m : Similarity)

theorem toComplex_apply (p : Point ℝ) :
    (m.apply p).toComplex = m.scale * p.toComplex + m.shift.toComplex := by
  apply Complex.ext <;> simp [apply, Point.toComplex]

theorem distance_apply (p q : Point ℝ) :
    (m.apply p).distance (m.apply q) = m.scale * p.distance q := by
  rw [Point.distance_eq_norm, Point.distance_eq_norm, toComplex_apply, toComplex_apply]
  calc ‖m.scale * q.toComplex + m.shift.toComplex -
        (m.scale * p.toComplex + m.shift.toComplex)‖
      = ‖(m.scale : ℂ) * (q.toComplex - p.toComplex)‖ := by
        congr 1
        ring
    _ = m.scale * ‖q.toComplex - p.toComplex‖ := by
        rw [norm_mul, Complex.norm_real, Real.norm_of_nonneg m.scale_pos.le]

theorem midpoint_apply (p q : Point ℝ) :
    (m.apply p).midpoint (m.apply q) = m.apply (p.midpoint q) := by
  apply Point.toComplex_injective
  simp only [Point.toComplex_midpoint, toComplex_apply]
  ring

theorem scale_mul_le_iff {a b : ℝ} : m.scale * a ≤ m.scale * b ↔ a ≤ b :=
  mul_le_mul_iff_right₀ m.scale_pos

theorem scale_mul_lt_iff {a b : ℝ} : m.scale * a < m.scale * b ↔ a < b :=
  mul_lt_mul_iff_right₀ m.scale_pos

end Similarity

namespace Curve

/-- A kind of curve that similarities act on. They carry ends and halves along and multiply the
polygon by their scale. -/
class Scalable (κ : Type) [Curve κ ℝ] where
  image : Similarity → κ → κ
  start_image : ∀ (m : Similarity) (c : κ), start (image m c) = m.apply (start c)
  finish_image : ∀ (m : Similarity) (c : κ), finish (image m c) = m.apply (finish c)
  polygonLength_image : ∀ (m : Similarity) (c : κ),
    polygonLength (image m c) = m.scale * polygonLength c
  split_image : ∀ (m : Similarity) (c : κ),
    split (image m c) = (image m (split c).1, image m (split c).2)

noncomputable instance : Scalable (QuadraticCurve ℝ) where
  image m c := ⟨m.apply c.start, m.apply c.control, m.apply c.finish⟩
  start_image _ _ := rfl
  finish_image _ _ := rfl
  polygonLength_image m c := by
    simp only [polygonLength, QuadraticCurve.polygonLength, m.distance_apply]
    ring
  split_image m c := by
    simp only [split, QuadraticCurve.split, m.midpoint_apply]

noncomputable instance : Scalable (CubicCurve ℝ) where
  image m c := ⟨m.apply c.start, m.apply c.control1, m.apply c.control2, m.apply c.finish⟩
  start_image _ _ := rfl
  finish_image _ _ := rfl
  polygonLength_image m c := by
    simp only [polygonLength, CubicCurve.polygonLength, m.distance_apply]
    ring
  split_image m c := by
    simp only [split, CubicCurve.split, m.midpoint_apply]

variable {κ : Type} [Curve κ ℝ] [Scalable κ] (m : Similarity) {tolerance : ℝ}

theorem chord_image (c : κ) : chord (Scalable.image m c) = m.scale * chord c := by
  rw [chord, Scalable.start_image, Scalable.finish_image, m.distance_apply, chord]

theorem isFlat_image (c : κ) :
    isFlat (m.scale * tolerance) (Scalable.image m c) = isFlat tolerance c := by
  rw [Bool.eq_iff_iff, isFlat_iff, isFlat_iff, Scalable.polygonLength_image, chord_image, ← mul_sub,
    m.scale_mul_le_iff]

noncomputable def Measured.image (r : Measured κ ℝ) : Measured κ ℝ :=
  ⟨m.scale * r.length, Scalable.image m r.last⟩

/-- A visit of similar pieces takes the same steps, if the sum is enough for both at once. -/
theorem visit_image {enough enough' : ℝ → Bool}
    (henough : ∀ length, enough' (m.scale * length) = enough length) (budget : ℕ) (piece : κ)
    (later : List κ) (length : ℝ) :
    visit (m.scale * tolerance) enough' budget (Scalable.image m piece)
        (later.map (Scalable.image m)) (m.scale * length) =
      (visit tolerance enough budget piece later length).map (Measured.image m) := by
  induction budget generalizing piece later length with
  | zero => rfl
  | succ budget ih =>
      have hsum : m.scale * length + polygonLength (Scalable.image m piece) =
          m.scale * (length + polygonLength piece) := by
        rw [Scalable.polygonLength_image, mul_add]
      cases hflat : isFlat tolerance piece with
      | false =>
          have hflat' := (isFlat_image m piece).trans hflat
          rw [visit_of_not_flat hflat, visit_of_not_flat hflat', Scalable.split_image]
          exact ih (split piece).1 ((split piece).2 :: later) length
      | true =>
          have hflat' := (isFlat_image m piece).trans hflat
          cases hcut : enough (length + polygonLength piece) with
          | true =>
              have hcut' : enough' (m.scale * length + polygonLength (Scalable.image m piece)) =
                  true := by rw [hsum, henough, hcut]
              rw [visit_of_enough hflat hcut, visit_of_enough hflat' hcut', hsum]
              rfl
          | false =>
              have hcut' : enough' (m.scale * length + polygonLength (Scalable.image m piece)) =
                  false := by rw [hsum, henough, hcut]
              cases later with
              | nil =>
                  rw [List.map_nil, visit_of_last hflat hcut, visit_of_last hflat' hcut', hsum]
                  rfl
              | cons next later =>
                  rw [List.map_cons, visit_of_next hflat hcut, visit_of_next hflat' hcut', hsum]
                  exact ih next later (length + polygonLength piece)

theorem measure_image {enough enough' : ℝ → Bool}
    (henough : ∀ length, enough' (m.scale * length) = enough length) (budget : ℕ) (c : κ) :
    measure budget (m.scale * tolerance) enough' (Scalable.image m c) =
      (measure budget tolerance enough c).map (Measured.image m) := by
  have hvisit : visit (m.scale * tolerance) enough' budget (Scalable.image m c) [] (m.scale * 0) =
      (visit tolerance enough budget c [] 0).map (Measured.image m) :=
    visit_image m henough budget c [] 0
  rwa [mul_zero] at hvisit

end Curve

namespace State

/-- The state with all its points and lengths on the new scale. -/
noncomputable def image (m : Similarity) (s : State ℝ) : State ℝ where
  goal := s.goal
  success := s.success
  totalLength := m.scale * s.totalLength
  desiredLength := m.scale * s.desiredLength
  current := m.apply s.current
  previous := m.apply s.previous
  subpathStart := m.apply s.subpathStart
  lastControl1 := m.apply s.lastControl1
  lastControl2 := m.apply s.lastControl2
  segmentIndex := s.segmentIndex
  normalAngle := s.normalAngle
  tolerance := m.scale * s.tolerance

variable (m : Similarity) (s : State ℝ)

theorem passes_image (length : ℝ) :
    (s.image m).passes (m.scale * length) = s.passes length := by
  have hlt : m.scale * s.desiredLength < m.scale * s.totalLength + m.scale * length ↔
      s.desiredLength < s.totalLength + length := by
    rw [← mul_add, m.scale_mul_lt_iff]
  exact congrArg (s.isLengthQuery && ·) (decide_eq_decide.mpr hlt)

theorem reached_image : (s.image m).reached = s.reached :=
  congrArg (s.isLengthQuery && ·) (decide_eq_decide.mpr m.scale_mul_le_iff)

theorem count_image (length : ℝ) :
    (s.image m).count (m.scale * length) = (s.count length).image m := by
  rw [count, image, image, count, mul_add]

theorem land_image {κ : Type} [Curve κ ℝ] [Curve.Scalable κ] (last : κ)
    (control1 control2 finish : Point ℝ) :
    (s.image m).land (Curve.Scalable.image m last) (m.apply control1) (m.apply control2)
        (m.apply finish) = (s.land last control1 control2 finish).image m := by
  cases hquery : s.isLengthQuery with
  | false =>
      have hquery' : (s.image m).isLengthQuery = false := hquery
      simp only [land, hquery, hquery', Bool.false_eq_true, if_false]
      rfl
  | true =>
      have hquery' : (s.image m).isLengthQuery = true := hquery
      simp only [land, hquery, hquery', if_true, Curve.Scalable.start_image,
        Curve.Scalable.finish_image]
      rfl

theorem drawCurve_image {κ : Type} [Curve κ ℝ] [Curve.Scalable κ] (budget : ℕ) (c : κ)
    (control1 control2 finish : Point ℝ) :
    (s.image m).drawCurve budget (Curve.Scalable.image m c) (m.apply control1) (m.apply control2)
        (m.apply finish) =
      (s.drawCurve budget c control1 control2 finish).map fun drawn =>
        (m.scale * drawn.1, drawn.2.image m) := by
  have hmeasure : Curve.measure budget (s.image m).tolerance (s.image m).passes
      (Curve.Scalable.image m c) =
        (Curve.measure budget s.tolerance s.passes c).map (Curve.Measured.image m) :=
    Curve.measure_image m (s.passes_image m) budget c
  rw [drawCurve, drawCurve, hmeasure, Option.map_map, Option.map_map]
  refine Option.map_congr fun r _ => ?_
  exact congrArg (Prod.mk _) (land_image m s r.last control1 control2 finish)

theorem draw_image (budget : ℕ) (e : Element ℝ) :
    (s.image m).draw budget (e.map m.apply) =
      (s.draw budget e).map fun drawn => (m.scale * drawn.1, drawn.2.image m) := by
  cases e with
  | moveTo p => exact congrArg (fun length => some (length, _)) (mul_zero m.scale).symm
  | lineTo p => exact congrArg (fun length => some (length, _)) (m.distance_apply s.current p)
  | quadTo c p =>
      rw [Element.map, draw_quadTo, draw_quadTo]
      exact drawCurve_image m s budget (QuadraticCurve.mk s.current c p) c p p
  | cubicTo c₁ c₂ p =>
      rw [Element.map, draw_cubicTo, draw_cubicTo]
      exact drawCurve_image m s budget (CubicCurve.mk s.current c₁ c₂ p) p c₂ p
  | close =>
      exact congrArg (fun length => some (length, _)) (m.distance_apply s.current s.subpathStart)

theorem enter_image (budget index : ℕ) (e : Element ℝ) :
    (s.image m).enter budget index (e.map m.apply) =
      (s.enter budget index e).map (State.image m) := by
  have hdraw : ((s.image m).poised index).draw budget (e.map m.apply) = _ :=
    draw_image m (s.poised index) budget e
  rw [enter_eq, enter_eq, hdraw, Option.map_map, Option.map_map]
  exact Option.map_congr fun drawn _ => count_image m drawn.2 drawn.1

theorem slope_image : (s.image m).slope = s.slope := by
  have hscaled : (⟨m.scale * s.current.x + m.shift.x - (m.scale * s.previous.x + m.shift.x),
      m.scale * s.current.y + m.shift.y - (m.scale * s.previous.y + m.shift.y)⟩ : ℂ) =
      (m.scale : ℂ) * ⟨s.current.x - s.previous.x, s.current.y - s.previous.y⟩ := by
    apply Complex.ext <;> simp <;> ring
  calc (s.image m).slope
      = Complex.arg ((m.scale : ℂ) *
          ⟨s.current.x - s.previous.x, s.current.y - s.previous.y⟩) := congrArg Complex.arg hscaled
    _ = s.slope := Complex.arg_real_mul _ m.scale_pos

theorem pullBack_image : (s.image m).pullBack = m.scale * s.pullBack := by
  rw [pullBack_eq, pullBack_eq, mul_max_of_nonneg _ _ m.scale_pos.le, mul_sub, mul_neg,
    ← m.distance_apply]
  rfl

theorem resolve_image : (s.image m).resolve = s.resolve.image m := by
  have hslope := slope_image m s
  cases hgoal : s.goal with
  | pointAtLength =>
      have hgoal' : (s.image m).goal = .pointAtLength := hgoal
      have hcurrent : (⟨m.scale * s.current.x + m.shift.x + m.scale * s.pullBack * Real.cos s.slope,
          m.scale * s.current.y + m.shift.y + m.scale * s.pullBack * Real.sin s.slope⟩ : Point ℝ) =
          m.apply ⟨s.current.x + s.pullBack * Real.cos s.slope,
            s.current.y + s.pullBack * Real.sin s.slope⟩ := by
        apply Point.ext <;> simp only [Similarity.apply] <;> ring
      rw [resolve, resolve, hgoal, hgoal', pullBack_image, hslope]
      apply State.ext <;> try rfl
      exact hcurrent
  | _ =>
      have hgoal' : (s.image m).goal = _ := hgoal
      rw [resolve, resolve, hgoal, hgoal', hslope]
      rfl

theorem carries_image (budget : ℕ) : Carries budget 0 (State.image m) (Element.map m.apply) where
  isMove_read e := e.isMove_map m.apply
  enter_carry s index e := enter_image m s budget index e
  reached_carry s := reached_image m s
  resolve_carry s := resolve_image m s
  rest_carry _ := rfl

end State

/-! ### Where the pen stands at first

A walk sets out with the pen at the origin, which need not be its own image. A move at the front sets
all points but the previous one, and no answer reads that one before an element sets it.
-/

namespace State

def withPrevious (s : State ℝ) (p : Point ℝ) : State ℝ := { s with previous := p }

/-- The state as it is where all its points are the given one. -/
def sited (s : State ℝ) (p : Point ℝ) : State ℝ :=
  { s with current := p, previous := p, subpathStart := p, lastControl1 := p, lastControl2 := p }

variable {budget index : ℕ} {es : List (Element ℝ)}

theorem advanceAll_withPrevious (s : State ℝ) (p : Point ℝ) (hes : es ≠ []) :
    (s.withPrevious p).advanceAll budget index es = s.advanceAll budget index es := by
  cases es with
  | nil => exact absurd rfl hes
  | cons e rest => rfl

end State

namespace Path

/-- Whether the path says where it starts. -/
def beginsWithMove (p : Path ℝ) : Bool := p.elements.head?.any Element.isMove

theorem exists_elements_of_beginsWithMove {p : Path ℝ} (hp : p.beginsWithMove = true) :
    ∃ a es, p.elements = .moveTo a :: es := by
  obtain ⟨e, hhead, hmove⟩ := Option.any_eq_true .. |>.mp hp
  cases e with
  | moveTo a => exact ⟨a, _, List.eq_cons_of_mem_head? hhead⟩
  | _ => simp [Element.isMove] at hmove

/-- A walk along a path that says where it starts does not read where the pen stood before. -/
theorem walk_sited {p : Path ℝ} (hp : p.beginsWithMove = true) (budget : ℕ) (s : State ℝ)
    (a b : Point ℝ) :
    (p.walk budget (s.sited a)).map (·.withPrevious b) =
      (p.walk budget s).map (·.withPrevious b) := by
  obtain ⟨q, es, helements⟩ := exists_elements_of_beginsWithMove hp
  have hnonempty : p.isEmpty = false := by simp [isEmpty, helements]
  -- behind the move the two states are one but for the previous point
  let t := ((s.poised 0).moveTo q).2.count 0
  have hwalk : s.advanceAll budget 0 p.elements = t.advanceAll budget 1 es := by
    rw [helements]
    rfl
  have hsited : (s.sited a).advanceAll budget 0 p.elements =
      (t.withPrevious a).advanceAll budget 1 es := by
    rw [helements]
    rfl
  rw [walk_eq_map, walk_eq_map, hwalk, hsited]
  by_cases hes : es = []
  · subst hes
    have hreached : (t.withPrevious a).reached = t.reached := rfl
    have hrest : (t.withPrevious a).resolveAtRest = t.resolveAtRest := rfl
    simp only [State.advanceAll, Option.map_some, finishWalk, hreached, hrest]
    split <;> rfl
  · rw [State.advanceAll_withPrevious t a hes]

variable (m : Similarity)

theorem eventually_queries (p : Path ℝ) {tolerance : ℝ} (htolerance : 0 < tolerance) :
    ∀ᶠ budget in atTop, (∃ T, p.length budget tolerance = some T) ∧
      ∀ d, (∃ answer, p.pointAtLength budget d tolerance = some answer) ∧
        (∃ answer, p.normalAngleAtLength budget d tolerance = some answer) ∧
        ∃ index, p.segmentIndexAtLength budget d tolerance = some index := by
  filter_upwards [eventually_affords htolerance p] with budget hafford
  have hwalk (goal : Goal) (hquery : goal.isLengthQuery = true) (d : ℝ) :
      ∃ s, p.seek budget goal d tolerance = some s := by
    rw [seek_eq, scalar_max]
    obtain ⟨stop, hwalk⟩ | ⟨t, -, -, -, hwalk⟩ :=
      walk_of_query hquery htolerance hafford (le_max_left 0 d)
    · exact ⟨_, hwalk⟩
    · exact ⟨_, hwalk⟩
  refine ⟨⟨_, length_eq hafford⟩, fun d => ?_⟩
  obtain ⟨s, hpoint⟩ := hwalk .pointAtLength rfl d
  obtain ⟨t, hangle⟩ := hwalk .normalAngleAtLength rfl d
  rw [pointAtLength_eq_map, normalAngleAtLength_eq_map, segmentIndexAtLength_eq_map, hpoint, hangle]
  exact ⟨⟨_, rfl⟩, ⟨_, rfl⟩, ⟨_, rfl⟩⟩

theorem beginsWithMove_map (p : Path ℝ) :
    (p.map m.apply).beginsWithMove = p.beginsWithMove := by
  rw [beginsWithMove, map, List.head?_map, beginsWithMove]
  cases p.elements.head? <;> simp

theorem map_walk_similar {β : Type} {p : Path ℝ} (hp : p.beginsWithMove = true) (budget : ℕ)
    (goal : Goal) (d tolerance : ℝ) (read : State ℝ → β)
    (hread : ∀ s q, read (s.withPrevious q) = read s) :
    ((p.map m.apply).walk budget (.initial goal (m.scale * d) (m.scale * tolerance))).map read =
      (p.walk budget (.initial goal d tolerance)).map fun s => read (s.image m) := by
  have hp' : (p.map m.apply).beginsWithMove = true := (beginsWithMove_map m p).trans hp
  have himage : (State.initial goal d tolerance).image m =
      (State.initial goal (m.scale * d) (m.scale * tolerance)).sited (m.apply .origin) := by
    apply State.ext <;> try rfl
    exact mul_zero m.scale
  have hread' : read = fun s => read (s.withPrevious .origin) := funext fun s => (hread s _).symm
  have hwalk := walk_sited hp' budget (.initial goal (m.scale * d) (m.scale * tolerance))
    (m.apply .origin) .origin
  rw [← himage, map, (State.carries_image m budget).walk_carry, Option.map_map] at hwalk
  have hanswer := congrArg (Option.map read) hwalk
  simp only [Option.map_map, Function.comp_def, hread] at hanswer
  exact hanswer.symm

/-- **Similar paths are measured alike.** On a path that says where it starts, and within every
budget, all queries of the similar path at the new scale give the images of what the queries of the
path give. Lengths are scaled and points go to their images. Angles, indices and whether the length
is reached stay the same. Every large budget suffices for all of them. -/
theorem queries_of_similar (m : Similarity) (p : Path ℝ) (hp : p.beginsWithMove = true)
    {tolerance : ℝ} (htolerance : 0 < tolerance) :
    (∀ budget,
      (p.map m.apply).length budget (m.scale * tolerance) =
        (p.length budget tolerance).map (m.scale * ·) ∧
      ∀ d,
        (p.map m.apply).pointAtLength budget (m.scale * d) (m.scale * tolerance) =
          (p.pointAtLength budget d tolerance).map (fun answer => (m.apply answer.1, answer.2)) ∧
        (p.map m.apply).normalAngleAtLength budget (m.scale * d) (m.scale * tolerance) =
          p.normalAngleAtLength budget d tolerance ∧
        (p.map m.apply).segmentIndexAtLength budget (m.scale * d) (m.scale * tolerance) =
          p.segmentIndexAtLength budget d tolerance) ∧
    ∀ᶠ budget in atTop, (∃ T, p.length budget tolerance = some T) ∧
      ∀ d, (∃ answer, p.pointAtLength budget d tolerance = some answer) ∧
        (∃ answer, p.normalAngleAtLength budget d tolerance = some answer) ∧
        ∃ index, p.segmentIndexAtLength budget d tolerance = some index := by
  refine ⟨fun budget => ⟨?_, fun d => ?_⟩, eventually_queries p htolerance⟩
  · have hlength := map_walk_similar m hp budget .totalLength 0 tolerance State.totalLength
      fun _ _ => rfl
    rw [mul_zero] at hlength
    rw [length_eq_map, length_eq_map, hlength, Option.map_map]
    rfl
  · have hclamp : max 0 (m.scale * d) = m.scale * max 0 d := by
      rw [mul_max_of_nonneg _ _ m.scale_pos.le, mul_zero]
    simp only [pointAtLength_eq_map, normalAngleAtLength_eq_map, segmentIndexAtLength_eq_map,
      seek_eq, scalar_max, hclamp]
    refine ⟨?_, ?_, ?_⟩
    · rw [map_walk_similar m hp budget _ _ _ _ fun _ _ => rfl, Option.map_map]
      rfl
    · exact map_walk_similar m hp budget _ _ _ _ fun _ _ => rfl
    · exact map_walk_similar m hp budget _ _ _ _ fun _ _ => rfl

/-- A corner and one twice as large elsewhere, asked on the stroke and on the curve. -/
theorem queries_of_similar_corner :
    (0 : ℝ) < 1 ∧ corner.beginsWithMove = true ∧
    ∃ larger : Path ℝ, larger = ⟨[.moveTo ⟨6, -2⟩, .lineTo ⟨12, 6⟩, .quadTo ⟨18, 6⟩ ⟨18, 14⟩]⟩ ∧
      ∃ T : ℝ, 10 ≤ T ∧ ∀ᶠ budget in atTop,
        corner.length budget 1 = some T ∧ larger.length budget 2 = some (2 * T) ∧
        ∀ d ∈ [(2 : ℝ), 9], ∃ point angle index,
          corner.pointAtLength budget d 1 = some (point, true) ∧
          larger.pointAtLength budget (2 * d) 2 =
            some (⟨2 * point.x + 6, 2 * point.y - 2⟩, true) ∧
          corner.normalAngleAtLength budget d 1 = some angle ∧
          larger.normalAngleAtLength budget (2 * d) 2 = some angle ∧
          corner.segmentIndexAtLength budget d 1 = some index ∧
          larger.segmentIndexAtLength budget (2 * d) 2 = some index := by
  let m : Similarity := ⟨2, ⟨6, -2⟩, two_pos⟩
  have hsimilar : corner.map m.apply =
      ⟨[.moveTo ⟨6, -2⟩, .lineTo ⟨12, 6⟩, .quadTo ⟨18, 6⟩ ⟨18, 14⟩]⟩ := by
    simp only [m, corner_eq, map, List.map_cons, List.map_nil, Element.map, Similarity.apply]
    norm_num
  obtain ⟨hqueries, hends⟩ := queries_of_similar m corner rfl (zero_lt_one : (0 : ℝ) < 1)
  have hscale : m.scale * 1 = 2 := mul_one 2
  have hquery : Goal.pointAtLength.isLengthQuery = true := rfl
  rw [hsimilar, hscale] at hqueries
  refine ⟨zero_lt_one, rfl, _, rfl, _, ten_le_walked_corner zero_lt_one, ?_⟩
  filter_upwards [hends, eventually_affords zero_lt_one corner] with budget hbudget hafford
  obtain ⟨hlengths, hanswers⟩ := hqueries budget
  rw [length_eq hafford] at hlengths
  refine ⟨length_eq hafford, hlengths, fun d hd => ?_⟩
  obtain ⟨hpoints, hangles, hindices⟩ := hanswers d
  obtain ⟨-, ⟨angle, hangle⟩, ⟨index, hindex⟩⟩ := hbudget.2 d
  have hrange : 0 ≤ d ∧ d ≤ walked (corner.itinerary 1) := by
    have hlong := ten_le_walked_corner (zero_lt_one : (0 : ℝ) < 1)
    rcases List.mem_pair.mp hd with rfl | rfl
    · exact ⟨by norm_num, by linarith⟩
    · exact ⟨by norm_num, by linarith⟩
  obtain ⟨stop, hwalk⟩ :=
    exists_stop hquery zero_lt_one hafford exists_not_isMove_corner hrange.1 hrange.2
  have hpoint := pointAtLength_of_walk hrange.1 hwalk
  rw [State.resolve_success] at hpoint
  rw [hpoint] at hpoints
  exact ⟨_, angle, index, hpoint, hpoints, hangle, hangles.trans hangle, hindex,
    hindices.trans hindex⟩

end Path

end ArcLength
