import Mathlib
import ArcLength.Proofs.Budget
import ArcLength.Proofs.Continuity
import ArcLength.Proofs.Runs
import ArcLength.Proofs.Straight

/-!
# Paths drawn backwards

Over the reals halving a curve that is drawn backwards gives the halves drawn backwards, the second
one first. So its flat pieces are those of the curve in reverse order, and the itinerary of a path
drawn backwards is the reversed itinerary. A length and what is left of it fall on the same leg, from
either side. The two queries place their points on it from opposite ends, so they differ by no more
than what the leg counts for beyond its chord.
-/

namespace ArcLength

open Filter

namespace Curve

/-- A kind of curve that can be drawn from either end. -/
class Reversible (κ : Type) [Curve κ ℝ] where
  reverse : κ → κ
  start_reverse : ∀ c : κ, start (reverse c) = finish c
  finish_reverse : ∀ c : κ, finish (reverse c) = start c
  polygonLength_reverse : ∀ c : κ, polygonLength (reverse c) = polygonLength c
  split_reverse : ∀ c : κ, split (reverse c) = (reverse (split c).2, reverse (split c).1)

end Curve

theorem Point.midpoint_comm (p q : Point ℝ) : p.midpoint q = q.midpoint p := by
  rw [midpoint, midpoint, add_comm p.x, add_comm p.y]

noncomputable instance : Curve.Reversible (QuadraticCurve ℝ) where
  reverse c := ⟨c.finish, c.control, c.start⟩
  start_reverse _ := rfl
  finish_reverse _ := rfl
  polygonLength_reverse c := by
    change c.finish.distance c.control + c.control.distance c.start =
      c.start.distance c.control + c.control.distance c.finish
    rw [Point.distance_comm c.finish, Point.distance_comm c.control c.start, add_comm]
  split_reverse c := by
    simp only [Curve.split, QuadraticCurve.split, Point.midpoint_comm c.finish,
      Point.midpoint_comm c.control c.start,
      Point.midpoint_comm (c.control.midpoint c.finish)]

noncomputable instance : Curve.Reversible (CubicCurve ℝ) where
  reverse c := ⟨c.finish, c.control2, c.control1, c.start⟩
  start_reverse _ := rfl
  finish_reverse _ := rfl
  polygonLength_reverse c := by
    change c.finish.distance c.control2 + c.control2.distance c.control1 +
      c.control1.distance c.start = c.start.distance c.control1 +
      c.control1.distance c.control2 + c.control2.distance c.finish
    rw [Point.distance_comm c.finish, Point.distance_comm c.control2 c.control1,
      Point.distance_comm c.control1 c.start]
    ring
  split_reverse c := by
    simp only [Curve.split, CubicCurve.split, Point.midpoint_comm c.finish,
      Point.midpoint_comm c.control2 c.control1, Point.midpoint_comm c.control1 c.start,
      Point.midpoint_comm (c.control2.midpoint c.finish),
      Point.midpoint_comm (c.control1.midpoint c.control2) (c.start.midpoint c.control1),
      Point.midpoint_comm ((c.control1.midpoint c.control2).midpoint _)]

namespace Curve

variable {κ : Type} [Curve κ ℝ] {tolerance : ℝ} {depth : ℕ} {c : κ} {ps : List κ}

section Pieces

variable [Reversible κ]

theorem chord_reverse (c : κ) : chord (Reversible.reverse c) = chord c := by
  rw [chord, Reversible.start_reverse, Reversible.finish_reverse, Point.distance_comm, chord]

theorem isFlat_reverse (c : κ) :
    isFlat tolerance (Reversible.reverse c) = isFlat tolerance c := by
  rw [isFlat, isFlat, chord_reverse, Reversible.polygonLength_reverse]

theorem flatPieces_reverse (h : flatPieces tolerance depth c = some ps) :
    flatPieces tolerance depth (Reversible.reverse c) =
      some (ps.map Reversible.reverse).reverse := by
  induction depth generalizing c ps with
  | zero =>
      cases hflat : isFlat tolerance c with
      | true =>
          rw [flatPieces_of_flat hflat] at h
          obtain rfl := Option.some.inj h
          exact flatPieces_of_flat ((isFlat_reverse c).trans hflat) 0
      | false => simp [flatPieces, hflat] at h
  | succ depth ih =>
      cases hflat : isFlat tolerance c with
      | true =>
          rw [flatPieces_of_flat hflat] at h
          obtain rfl := Option.some.inj h
          exact flatPieces_of_flat ((isFlat_reverse c).trans hflat) (depth + 1)
      | false =>
          obtain ⟨first, second, hfirst, hsecond, rfl⟩ := (flatPieces_succ_of_not_flat hflat).mp h
          refine (flatPieces_succ_of_not_flat ((isFlat_reverse c).trans hflat)).mpr ?_
          rw [Reversible.split_reverse]
          exact ⟨_, _, ih hsecond, ih hfirst, by simp⟩

end Pieces

theorem flatPieces_of_le {depth' : ℕ} (hle : depth ≤ depth')
    (h : flatPieces tolerance depth c = some ps) : flatPieces tolerance depth' c = some ps := by
  induction hle with
  | refl => exact h
  | step _ ih => exact flatPieces_succ ih

variable [Planar κ]

theorem pieces_eq (htolerance : 0 < tolerance) (h : flatPieces tolerance depth c = some ps) :
    pieces tolerance c = ps := by
  obtain ⟨depth', hdepth'⟩ := exists_flatPieces_eq_pieces htolerance c
  have hpieces := flatPieces_of_le (le_max_right depth depth') hdepth'
  rw [flatPieces_of_le (le_max_left depth depth') h] at hpieces
  exact (Option.some.inj hpieces).symm

theorem pieces_reverse [Reversible κ] (htolerance : 0 < tolerance) (c : κ) :
    pieces tolerance (Reversible.reverse c) =
      ((pieces tolerance c).map Reversible.reverse).reverse := by
  obtain ⟨depth, hdepth⟩ := exists_flatPieces_eq_pieces htolerance c
  exact pieces_eq htolerance (flatPieces_reverse hdepth)

end Curve

theorem Point.between_swap (p q : Point ℝ) (r : ℝ) : between q p r = between p q (1 - r) := by
  apply Point.ext <;> simp only [between] <;> ring

namespace Leg

def reverse (l : Leg) : Leg :=
  ⟨l.finish, l.start, l.length, (Point.distance_comm _ _).trans_le l.distance_le⟩

@[simp]
theorem length_reverse (l : Leg) : l.reverse.length = l.length := rfl

@[simp]
theorem slack_reverse (l : Leg) : l.reverse.slack = l.slack :=
  congrArg (l.length - ·) (Point.distance_comm _ _)

@[simp]
theorem reverse_straight (p q : Point ℝ) : (straight p q).reverse = straight q p := by
  simp only [reverse, straight, Point.distance_comm p q]

theorem ofPiece_reverse {κ : Type} [Curve κ ℝ] [Curve.Planar κ] [Curve.Reversible κ] (c : κ) :
    ofPiece (Curve.Reversible.reverse c) = (ofPiece c).reverse := by
  simp only [ofPiece, reverse, Curve.Reversible.start_reverse, Curve.Reversible.finish_reverse,
    Curve.Reversible.polygonLength_reverse]

variable (l : Leg) {u : ℝ}

/-- A length on a leg and the rest of the leg, counted from either end, lead to points that are no
further apart than the slack of the leg. -/
theorem distance_pointAt_reverse_le (hu : 0 ≤ u) (hu' : u ≤ l.length) :
    (l.pointAt u).distance (l.reverse.pointAt (l.length - u)) ≤ l.slack := by
  have hslack := l.slack_nonneg
  have hchord : l.length = l.start.distance l.finish + l.slack := by
    rw [slack]
    ring
  have hfront := l.ratio_mul_distance hu'
  have hback := l.reverse.ratio_mul_distance (u := l.length - u) (by simpa using hu)
  rw [slack_reverse] at hback
  change l.reverse.ratio (l.length - u) * l.finish.distance l.start = _ at hback
  rw [Point.distance_comm] at hback
  calc (l.pointAt u).distance (l.reverse.pointAt (l.length - u))
      = |1 - l.reverse.ratio (l.length - u) - l.ratio u| * l.start.distance l.finish := by
        rw [pointAt, pointAt, ← Point.distance_between]
        exact congrArg _ (Point.between_swap l.start l.finish _)
    _ = |(1 - l.reverse.ratio (l.length - u) - l.ratio u) * l.start.distance l.finish| := by
        rw [abs_mul, abs_of_nonneg (Point.distance_nonneg _ _)]
    _ = |l.start.distance l.finish - max 0 (l.length - u - l.slack) - max 0 (u - l.slack)| := by
        rw [sub_mul, sub_mul, one_mul, hfront, hback]
    _ ≤ l.slack := by
        -- each clamp takes away what is counted from its end, but for the slack
        have hrest : max 0 (l.length - u - l.slack) ≤ l.length - u :=
          max_le (by linarith) (by linarith)
        have hcounted : max 0 (u - l.slack) ≤ u := max_le hu (by linarith)
        have hrest' := le_max_right 0 (l.length - u - l.slack)
        have hcounted' := le_max_right 0 (u - l.slack)
        rw [abs_le]
        constructor <;> linarith

end Leg

def reverseLegs (legs : List Leg) : List Leg := (legs.map Leg.reverse).reverse

@[simp]
theorem reverseLegs_append (before after : List Leg) :
    reverseLegs (before ++ after) = reverseLegs after ++ reverseLegs before := by
  simp [reverseLegs]

@[simp]
theorem reverseLegs_cons (l : Leg) (legs : List Leg) :
    reverseLegs (l :: legs) = reverseLegs legs ++ [l.reverse] := by
  simp [reverseLegs]

@[simp]
theorem walked_reverseLegs (legs : List Leg) : walked (reverseLegs legs) = walked legs := by
  induction legs with
  | nil => rfl
  | cons l legs ih =>
      rw [reverseLegs_cons, walked_append, ih, walked_cons, walked_cons, walked_nil,
        Leg.length_reverse]
      ring

/-- What is left of a length falls on the same leg, walked backwards. -/
theorem FallsOn.reverse {legs before after : List Leg} {leg : Leg} {d : ℝ}
    (h : FallsOn legs d before leg after) :
    FallsOn (reverseLegs legs) (walked legs - d) (reverseLegs after) leg.reverse
      (reverseLegs before) where
  legs_eq := by
    rw [h.legs_eq]
    simp
  before_le := by
    have hle := h.le_add
    rw [h.legs_eq, walked_append, walked_cons, walked_reverseLegs]
    linarith
  le_add := by
    have hle := h.before_le
    rw [h.legs_eq, walked_append, walked_cons, walked_reverseLegs, Leg.length_reverse]
    linarith

/-- The places of a length and of what is left of it, counted over legs from either side, are no
further apart than the slack of the leg that the length falls on. -/
theorem FallsOn.distance_reverse_le {p q : Point ℝ} {legs before₁ before₂ after₁ after₂ : List Leg}
    {l₁ l₂ : Leg} {d : ℝ} (h₁ : FallsOn legs d before₁ l₁ after₁)
    (h₂ : FallsOn (reverseLegs legs) (walked legs - d) before₂ l₂ after₂)
    (hlegs : Connects p (reverseLegs legs) q) :
    (l₁.pointAt (d - walked before₁)).distance (l₂.pointAt (walked legs - d - walked before₂)) ≤
      l₁.slack := by
  -- both lengths fall on the first leg, and the second one may fall on a neighbour of it as well
  have hsame : (l₁.reverse.pointAt (walked legs - d - walked (reverseLegs after₁))).distance
      (l₂.pointAt (walked legs - d - walked before₂)) ≤ 0 :=
    (h₁.reverse.distance_le h₂ hlegs le_rfl).trans_eq (sub_self _)
  have hrest : walked legs - d - walked (reverseLegs after₁) =
      l₁.length - (d - walked before₁) := by
    rw [h₁.legs_eq, walked_append, walked_cons, walked_reverseLegs]
    ring
  rw [hrest] at hsame
  rw [← Point.eq_of_distance_eq_zero (le_antisymm hsame (Point.distance_nonneg _ _))]
  exact l₁.distance_pointAt_reverse_le h₁.missing_nonneg h₁.missing_le

/-! ### Elements drawn backwards

An element says where it leads and not where it sets out. So it is turned round at the pen that draws
it, and a list of elements is turned round along the pens between them.
-/

namespace Element

/-- The element that draws back to where the pen stood. -/
def back {α : Type} (pen : Point α) : Element α → Element α
  | moveTo _ => .moveTo pen
  | lineTo _ => .lineTo pen
  | quadTo c _ => .quadTo c pen
  | cubicTo c₁ c₂ _ => .cubicTo c₂ c₁ pen
  | close => .lineTo pen

variable {α : Type} {pen : Point α} {e : Element α}

theorem isMove_of_isStroke (h : e.isStroke = true) : e.isMove = false := by
  cases e with
  | moveTo p => simp [isStroke] at h
  | _ => rfl

theorem eq_close_or_lineTo (hmove : e.isMove = false) (hcurve : e.isCurve = false) :
    e = .close ∨ ∃ q, e = .lineTo q := by
  cases e with
  | moveTo p => simp [isMove] at hmove
  | lineTo p => exact Or.inr ⟨p, rfl⟩
  | quadTo c p => simp [isCurve] at hcurve
  | cubicTo c₁ c₂ p => simp [isCurve] at hcurve
  | close => exact Or.inl rfl

theorem isStroke_back (h : e.isStroke = true) : (e.back pen).isStroke = true := by
  cases e with
  | moveTo p => simp [isStroke] at h
  | _ => rfl

end Element

namespace Pen

/-- The elements that draw strokes from their end to where the pen stands. -/
def backwards : Pen → List (Element ℝ) → List (Element ℝ)
  | _, [] => []
  | pen, e :: rest => (pen.after e).backwards rest ++ [e.back pen.position]

/-- What is drawn by each of a list of elements, one after the other. -/
def gather {β : Type} (drawn : Pen → Element ℝ → List β) : Pen → List (Element ℝ) → List β
  | _, [] => []
  | pen, e :: rest => drawn pen e ++ (pen.after e).gather drawn rest

def polygon (pen : Pen) (e : Element ℝ) : List (List (Point ℝ)) :=
  if e.isStroke then [pen.position :: e.points] else []

variable {β : Type} {drawn : Pen → Element ℝ → List β} {tolerance : ℝ} {pen pen' : Pen}
  {e : Element ℝ} {es fs : List (Element ℝ)}

theorem isStroke_of_mem_backwards (hes : ∀ e ∈ es, e.isStroke = true) :
    ∀ e ∈ pen.backwards es, e.isStroke = true := by
  induction es generalizing pen with
  | nil => simp [backwards]
  | cons f rest ih =>
      intro e he
      rcases List.mem_append.mp he with hmem | hmem
      · exact ih (fun g hg => hes g (List.mem_cons_of_mem f hg)) e hmem
      · rw [List.mem_singleton.mp hmem]
        exact Element.isStroke_back (hes f List.mem_cons_self)

theorem backwards_ne_nil (hes : es ≠ []) : pen.backwards es ≠ [] := by
  cases es with
  | nil => exact absurd rfl hes
  | cons e rest => simp [backwards]

theorem gather_append : pen.gather drawn (es ++ fs) =
    pen.gather drawn es ++ (es.foldl after pen).gather drawn fs := by
  induction es generalizing pen with
  | nil => rfl
  | cons e rest ih => simp [gather, ih]

theorem itinerary_eq_gather :
    pen.itinerary tolerance es = pen.gather (legs tolerance) es := by
  induction es generalizing pen with
  | nil => rfl
  | cons e rest ih => rw [itinerary, gather, ih]

theorem position_after_back (he : e.isStroke = true) :
    (pen'.after (e.back pen.position)).position = pen.position := by
  cases e with
  | close => simp [Element.isStroke] at he
  | _ => rfl

theorem position_backwards (hes : ∀ e ∈ es, e.isStroke = true)
    (hpen' : pen'.position = (es.foldl after pen).position) :
    ((pen.backwards es).foldl after pen').position = pen.position := by
  cases es with
  | nil => exact hpen'
  | cons e rest =>
      rw [backwards, List.foldl_append]
      exact position_after_back (hes e List.mem_cons_self)

/-- What is drawn backwards is drawn in reverse, if each stroke is. -/
theorem gather_backwards {turn : β → β}
    (hdrawn : ∀ (pen pen' : Pen) e, e.isStroke = true →
      pen'.position = (pen.after e).position →
      drawn pen' (e.back pen.position) = ((drawn pen e).map turn).reverse)
    (hes : ∀ e ∈ es, e.isStroke = true)
    (hpen' : pen'.position = (es.foldl after pen).position) :
    pen'.gather drawn (pen.backwards es) = ((pen.gather drawn es).map turn).reverse := by
  induction es generalizing pen with
  | nil => rfl
  | cons e rest ih =>
      have hrest : ∀ f ∈ rest, f.isStroke = true := fun f hf => hes f (List.mem_cons_of_mem e hf)
      -- behind the strokes that follow, the pen stands where `e` ends
      have hlast := hdrawn pen (((pen.after e).backwards rest).foldl after pen') e
        (hes e List.mem_cons_self) (position_backwards hrest hpen')
      rw [backwards, gather_append, ih hrest hpen', gather, gather, gather, hlast, List.append_nil,
        List.map_append, List.reverse_append]

theorem polygon_back (he : e.isStroke = true) (hpen' : pen'.position = (pen.after e).position) :
    pen'.polygon (e.back pen.position) = ((pen.polygon e).map List.reverse).reverse := by
  rw [polygon, polygon, if_pos (Element.isStroke_back he), if_pos he, hpen']
  cases e with
  | moveTo p => simp [Element.isStroke] at he
  | lineTo p => rfl
  | quadTo c p => rfl
  | cubicTo c₁ c₂ p => rfl
  | close => simp [Element.isStroke] at he

theorem ofPiece_pieces_reverse {κ : Type} [Curve κ ℝ] [Curve.Planar κ] [Curve.Reversible κ]
    (htolerance : 0 < tolerance) (c : κ) :
    (Curve.pieces tolerance (Curve.Reversible.reverse c)).map Leg.ofPiece =
      reverseLegs ((Curve.pieces tolerance c).map Leg.ofPiece) := by
  rw [Curve.pieces_reverse htolerance, reverseLegs, List.map_reverse, List.map_map, List.map_map]
  exact congrArg List.reverse (List.map_congr_left fun c _ => Leg.ofPiece_reverse c)

theorem legs_back (htolerance : 0 < tolerance) (he : e.isStroke = true)
    (hpen' : pen'.position = (pen.after e).position) :
    pen'.legs tolerance (e.back pen.position) = reverseLegs (pen.legs tolerance e) := by
  cases e with
  | moveTo p => simp [Element.isStroke] at he
  | lineTo p =>
      change [Leg.straight pen'.position pen.position] = [(Leg.straight pen.position p).reverse]
      rw [hpen', Leg.reverse_straight]
      rfl
  | quadTo c p =>
      have hreverse := ofPiece_pieces_reverse htolerance (QuadraticCurve.mk pen.position c p)
      rw [Element.back, legs, hpen']
      exact hreverse
  | cubicTo c₁ c₂ p =>
      have hreverse := ofPiece_pieces_reverse htolerance (CubicCurve.mk pen.position c₁ c₂ p)
      rw [Element.back, legs, hpen']
      exact hreverse
  | close => simp [Element.isStroke] at he

end Pen

namespace Path

/-- A path that is drawn in one stretch and not closed: a move, and strokes behind it. -/
def IsOpen (p : Path ℝ) : Prop :=
  ∃ a es, p = ⟨.moveTo a :: es⟩ ∧ es ≠ [] ∧ ∀ e ∈ es, e.isStroke = true

/-- An open path drawn from its end to its start. -/
def reversed : Path ℝ → Path ℝ
  | ⟨.moveTo a :: es⟩ =>
      ⟨.moveTo (es.foldl Pen.after ⟨a, a⟩).position :: Pen.backwards ⟨a, a⟩ es⟩
  | p => p

/-- The control polygons of the strokes of a path, in drawing order. -/
noncomputable def polygons (p : Path ℝ) : List (List (Point ℝ)) :=
  Pen.gather Pen.polygon ⟨.origin, .origin⟩ p.elements

variable {budget : ℕ} {tolerance : ℝ} {p : Path ℝ}

theorem IsOpen.reversed (hp : p.IsOpen) : p.reversed.IsOpen := by
  obtain ⟨a, es, rfl, hne, hes⟩ := hp
  exact ⟨_, _, rfl, Pen.backwards_ne_nil hne, Pen.isStroke_of_mem_backwards hes⟩

theorem IsOpen.exists_not_isMove (hp : p.IsOpen) : ∃ e ∈ p.elements, e.isMove = false := by
  obtain ⟨a, es, rfl, hne, hes⟩ := hp
  obtain ⟨e, he⟩ := List.exists_mem_of_ne_nil es hne
  exact ⟨e, List.mem_cons_of_mem _ he, Element.isMove_of_isStroke (hes e he)⟩

theorem IsOpen.connects_itinerary (htolerance : 0 < tolerance) (hp : p.IsOpen) :
    ∃ a b, Connects a (p.itinerary tolerance) b := by
  obtain ⟨a, es, rfl, -, hes⟩ := hp
  let pen : Pen := ⟨a, a⟩
  have hconnects : ∃ b, Connects pen.position (pen.itinerary tolerance es) b :=
    Pen.connects_itinerary htolerance fun e he => Element.isMove_of_isStroke (hes e he)
  exact ⟨a, hconnects⟩

/-- The path drawn backwards draws the same control polygons, each of them and all of them in
reverse. -/
theorem polygons_reversed (hp : p.IsOpen) :
    p.reversed.polygons = (p.polygons.map List.reverse).reverse := by
  obtain ⟨a, es, rfl, -, hes⟩ := hp
  exact Pen.gather_backwards (fun _ _ _ he hpen' => Pen.polygon_back he hpen') hes rfl

theorem itinerary_reversed (htolerance : 0 < tolerance) (hp : p.IsOpen) :
    p.reversed.itinerary tolerance = reverseLegs (p.itinerary tolerance) := by
  obtain ⟨a, es, rfl, -, hes⟩ := hp
  let pen : Pen := ⟨a, a⟩
  let pen' : Pen := ⟨(es.foldl Pen.after pen).position, (es.foldl Pen.after pen).position⟩
  have hbackwards : pen'.gather (Pen.legs tolerance) (pen.backwards es) =
      reverseLegs (pen.gather (Pen.legs tolerance) es) :=
    Pen.gather_backwards (fun _ _ _ he hpen' => Pen.legs_back htolerance he hpen') hes rfl
  rw [← Pen.itinerary_eq_gather, ← Pen.itinerary_eq_gather] at hbackwards
  exact hbackwards

theorem exists_fallsOn_of_stop {d : ℝ}
    (stop : Stop budget 0 (.initial .pointAtLength d tolerance) p.elements) :
    ∃ before after, FallsOn (p.itinerary tolerance) d before stop.leg after ∧
      stop.state.resolve.current = stop.leg.pointAt (d - walked before) := by
  have hfalls := stop.fallsOn
  have hlength : (State.initial .pointAtLength d tolerance).desiredLength -
      (State.initial .pointAtLength d tolerance).totalLength = d := sub_zero d
  rw [hlength] at hfalls
  refine ⟨_, _, hfalls, ?_⟩
  rw [stop.resolve_current rfl, stop.walkedBefore_eq, ← sub_sub, hlength]

theorem length_two_strokes (budget : ℕ) (tolerance : ℝ) :
    Path.length budget ⟨[.moveTo ⟨0, 0⟩, .lineTo ⟨3, 4⟩, .lineTo ⟨3, 10⟩]⟩ tolerance = some 11 := by
  have hafford : Affords budget tolerance ⟨[.moveTo ⟨0, 0⟩, .lineTo ⟨3, 4⟩, .lineTo ⟨3, 10⟩]⟩ :=
    ⟨trivial, trivial, trivial, trivial⟩
  have hfirst : (Point.mk 0 0 : Point ℝ).distance ⟨3, 4⟩ = 5 :=
    Point.distance_eq_of_sq (by norm_num) (by norm_num)
  have hsecond : (Point.mk 3 4 : Point ℝ).distance ⟨3, 10⟩ = 6 :=
    Point.distance_eq_of_sq (by norm_num) (by norm_num)
  rw [length_eq hafford]
  norm_num [itinerary, Pen.itinerary, Pen.legs, Pen.after, Leg.straight, hfirst, hsecond]

/-- **Walking backwards.** An open path drawn from its end is as long as the path, within every large
budget. The point at a length and the point at what is left of it, drawn backwards, are no further
apart than the tolerance. Without curves they are the same point. -/
theorem pointAtLength_reversed (hp : p.IsOpen) (htolerance : 0 < tolerance) :
    p.reversed.IsOpen ∧ p.reversed.polygons = (p.polygons.map List.reverse).reverse ∧
    ∃ T : ℝ, ∀ᶠ budget in atTop,
      p.length budget tolerance = some T ∧ p.reversed.length budget tolerance = some T ∧
      ∀ d : ℝ, 0 ≤ d → d ≤ T → ∃ point point' : Point ℝ,
        p.pointAtLength budget d tolerance = some (point, true) ∧
        p.reversed.pointAtLength budget (T - d) tolerance = some (point', true) ∧
        point.distance point' ≤ tolerance ∧
        ((∀ e ∈ p.elements, e.isCurve = false) → point = point') := by
  have hreversed := itinerary_reversed htolerance hp
  have hwalked : walked (p.reversed.itinerary tolerance) = walked (p.itinerary tolerance) := by
    rw [hreversed, walked_reverseLegs]
  refine ⟨hp.reversed, polygons_reversed hp, walked (p.itinerary tolerance), ?_⟩
  filter_upwards [eventually_affords htolerance p, eventually_affords htolerance p.reversed]
    with budget hafford hafford'
  refine ⟨length_eq hafford, (length_eq hafford').trans (congrArg some hwalked), ?_⟩
  intro d hd hle
  have hquery : Goal.pointAtLength.isLengthQuery = true := rfl
  have hrest : 0 ≤ walked (p.itinerary tolerance) - d := sub_nonneg.mpr hle
  obtain ⟨stop, hwalk⟩ := exists_stop hquery htolerance hafford hp.exists_not_isMove hd hle
  obtain ⟨stop', hwalk'⟩ := exists_stop hquery htolerance hafford' hp.reversed.exists_not_isMove
    hrest ((sub_le_self _ hd).trans_eq hwalked.symm)
  obtain ⟨before, after, hfalls, hpoint⟩ := exists_fallsOn_of_stop stop
  obtain ⟨before', after', hfalls', hpoint'⟩ := exists_fallsOn_of_stop stop'
  obtain ⟨a, b, hconnects⟩ := hp.reversed.connects_itinerary htolerance
  rw [hreversed] at hfalls' hconnects
  have hdistance := hfalls.distance_reverse_le hfalls' hconnects
  rw [← hpoint, ← hpoint'] at hdistance
  have hanswer := pointAtLength_of_walk hd hwalk
  have hanswer' := pointAtLength_of_walk hrest hwalk'
  rw [State.resolve_success] at hanswer hanswer'
  refine ⟨_, _, hanswer, hanswer', ?_, fun hlines => ?_⟩
  · exact hdistance.trans (Pen.slack_le_of_mem_legs htolerance stop.leg_mem_legs)
  · have hstraight := Element.eq_close_or_lineTo stop.no_move
      (hlines _ (List.mem_of_getElem? stop.getElem?_drawn_length))
    rw [Pen.slack_of_mem_legs_of_straight hstraight stop.leg_mem_legs] at hdistance
    exact Point.eq_of_distance_eq_zero (le_antisymm hdistance (Point.distance_nonneg _ _))

/-- A corner from either end: a point on its stroke, and one on its curve. Two strokes from either
end: the point 7 from one end is the point 4 from the other. -/
theorem pointAtLength_reversed_corner :
    corner.IsOpen ∧ (0 : ℝ) < 1 ∧
    (∃ T : ℝ, ∀ᶠ budget in atTop,
      Path.length budget ⟨[.moveTo ⟨6, 8⟩, .quadTo ⟨6, 4⟩ ⟨3, 4⟩, .lineTo ⟨0, 0⟩]⟩ 1 = some T ∧
      ∀ d ∈ [(2 : ℝ), 9], ∃ point point' : Point ℝ,
        corner.pointAtLength budget d 1 = some (point, true) ∧
        Path.pointAtLength budget ⟨[.moveTo ⟨6, 8⟩, .quadTo ⟨6, 4⟩ ⟨3, 4⟩, .lineTo ⟨0, 0⟩]⟩
          (T - d) 1 = some (point', true) ∧
        point.distance point' ≤ 1) ∧
    ∀ᶠ budget in atTop, ∃ point : Point ℝ,
      Path.pointAtLength budget ⟨[.moveTo ⟨0, 0⟩, .lineTo ⟨3, 4⟩, .lineTo ⟨3, 10⟩]⟩ 7 1 =
        some (point, true) ∧
      Path.pointAtLength budget ⟨[.moveTo ⟨3, 10⟩, .lineTo ⟨3, 4⟩, .lineTo ⟨0, 0⟩]⟩ 4 1 =
        some (point, true) := by
  have hopen : corner.IsOpen :=
    ⟨⟨0, 0⟩, [.lineTo ⟨3, 4⟩, .quadTo ⟨6, 4⟩ ⟨6, 8⟩], rfl, by simp, by simp [Element.isStroke]⟩
  have hstrokes : IsOpen ⟨[.moveTo ⟨0, 0⟩, .lineTo ⟨3, 4⟩, .lineTo ⟨3, 10⟩]⟩ :=
    ⟨⟨0, 0⟩, [.lineTo ⟨3, 4⟩, .lineTo ⟨3, 10⟩], rfl, by simp, by simp [Element.isStroke]⟩
  obtain ⟨-, -, T, hqueries⟩ := pointAtLength_reversed hopen (zero_lt_one : (0 : ℝ) < 1)
  obtain ⟨-, -, T', hqueries'⟩ := pointAtLength_reversed hstrokes (zero_lt_one : (0 : ℝ) < 1)
  refine ⟨hopen, zero_lt_one, ⟨T, ?_⟩, ?_⟩
  · filter_upwards [hqueries, eventually_affords zero_lt_one corner] with budget hbudget hafford
    obtain ⟨hlength, hreversed, hquery⟩ := hbudget
    have hT := ten_le_of_length_corner zero_lt_one hafford hlength
    refine ⟨hreversed, fun d hd => ?_⟩
    have hrange : 0 ≤ d ∧ d ≤ T := by
      rcases List.mem_pair.mp hd with rfl | rfl
      · exact ⟨by norm_num, by linarith⟩
      · exact ⟨by norm_num, by linarith⟩
    obtain ⟨point, point', hpoint, hpoint', hclose, -⟩ := hquery d hrange.1 hrange.2
    exact ⟨point, point', hpoint, hpoint', hclose⟩
  · filter_upwards [hqueries'] with budget hbudget
    obtain ⟨hlength, -, hquery⟩ := hbudget
    obtain rfl := Option.some.inj ((length_two_strokes budget 1).symm.trans hlength)
    obtain ⟨point, point', hpoint, hpoint', -, hsame⟩ := hquery 7 (by norm_num) (by norm_num)
    obtain rfl := hsame (by simp [Element.isCurve])
    have hrest : (11 : ℝ) - 7 = 4 := by norm_num
    rw [hrest] at hpoint'
    exact ⟨point, hpoint, hpoint'⟩

end Path

end ArcLength
