import ArcLength.Proofs.Stop

/-!
# The point that answers a query

A query is answered on its last leg, so far from the start of the leg that the length counted up to
the answer falls short of the desired length by no more than the slack of the leg. The point on a
leg moves no faster than the length counted on it.
-/

namespace ArcLength

namespace Point

noncomputable def between (p q : Point ℝ) (r : ℝ) : Point ℝ :=
  ⟨p.x + r * (q.x - p.x), p.y + r * (q.y - p.y)⟩

variable (p q : Point ℝ)

theorem toComplex_between (r : ℝ) :
    (between p q r).toComplex = p.toComplex + r * (q.toComplex - p.toComplex) := by
  apply Complex.ext <;> simp [between, toComplex]

@[simp]
theorem between_zero : between p q 0 = p := by simp [between]

@[simp]
theorem between_one : between p q 1 = q := by simp [between]

@[simp]
theorem between_self (r : ℝ) : between p p r = p := by simp [between]

theorem distance_between (r r' : ℝ) :
    (between p q r).distance (between p q r') = |r' - r| * p.distance q := by
  rw [distance_eq_norm, distance_eq_norm, toComplex_between, toComplex_between]
  calc ‖p.toComplex + r' * (q.toComplex - p.toComplex) -
        (p.toComplex + r * (q.toComplex - p.toComplex))‖
      = ‖((r' - r : ℝ) : ℂ) * (q.toComplex - p.toComplex)‖ := by
        congr 1
        push_cast
        ring
    _ = |r' - r| * ‖q.toComplex - p.toComplex‖ := by
        rw [norm_mul, Complex.norm_real, Real.norm_eq_abs]

theorem toComplex_between_mem_segment {r : ℝ} (hr : 0 ≤ r) (hr' : r ≤ 1) :
    (between p q r).toComplex ∈ segment ℝ p.toComplex q.toComplex := by
  rw [segment_eq_image']
  refine ⟨r, ⟨hr, hr'⟩, ?_⟩
  simp only [toComplex_between, Complex.real_smul]

end Point

namespace Leg

variable (l : Leg) {u v : ℝ}

/-- The share of a leg that lies behind a length counted on it. The slack of the leg is counted
first, at its start. -/
noncomputable def ratio (u : ℝ) : ℝ := max 0 (u - l.slack) / l.start.distance l.finish

noncomputable def pointAt (u : ℝ) : Point ℝ := .between l.start l.finish (l.ratio u)

theorem ratio_mul_distance (hu : u ≤ l.length) :
    l.ratio u * l.start.distance l.finish = max 0 (u - l.slack) := by
  by_cases hdistance : l.start.distance l.finish = 0
  · have hslack : u - l.slack ≤ 0 := by
      rw [slack, hdistance]
      linarith
    rw [hdistance, mul_zero, max_eq_left hslack]
  · exact div_mul_cancel₀ _ hdistance

theorem ratio_nonneg : 0 ≤ l.ratio u :=
  div_nonneg (le_max_left _ _) (Point.distance_nonneg _ _)

theorem ratio_le_one (hu : u ≤ l.length) : l.ratio u ≤ 1 := by
  refine div_le_one_of_le₀ (max_le (Point.distance_nonneg _ _) ?_) (Point.distance_nonneg _ _)
  rw [slack]
  linarith

theorem distance_pointAt (hu : u ≤ l.length) (hv : v ≤ l.length) :
    (l.pointAt u).distance (l.pointAt v) = |max 0 (v - l.slack) - max 0 (u - l.slack)| := by
  rw [pointAt, pointAt, Point.distance_between, ← l.ratio_mul_distance hu,
    ← l.ratio_mul_distance hv, ← sub_mul, abs_mul, abs_of_nonneg (Point.distance_nonneg _ _)]

theorem distance_pointAt_le (hu : u ≤ l.length) (hv : v ≤ l.length) :
    (l.pointAt u).distance (l.pointAt v) ≤ |v - u| := by
  rw [l.distance_pointAt hu hv]
  calc |max 0 (v - l.slack) - max 0 (u - l.slack)|
      = |max (v - l.slack) 0 - max (u - l.slack) 0| := by rw [max_comm 0, max_comm 0]
    _ ≤ |(v - l.slack) - (u - l.slack)| := abs_max_sub_max_le_abs _ _ _
    _ = |v - u| := by rw [sub_sub_sub_cancel_right]

@[simp]
theorem pointAt_zero : l.pointAt 0 = l.start := by
  have hslack : 0 - l.slack ≤ 0 := by linarith [l.slack_nonneg]
  rw [pointAt, ratio, max_eq_left hslack, zero_div, Point.between_zero]

@[simp]
theorem pointAt_length : l.pointAt l.length = l.finish := by
  by_cases hdistance : l.start.distance l.finish = 0
  · rw [pointAt, Point.eq_of_distance_eq_zero hdistance, Point.between_self]
  · have hlength : max 0 (l.length - l.slack) = l.start.distance l.finish := by
      rw [slack, sub_sub_cancel]
      exact max_eq_right (Point.distance_nonneg _ _)
    rw [pointAt, ratio, hlength, div_self hdistance, Point.between_one]

theorem distance_start_pointAt (hu : u ≤ l.length) :
    l.start.distance (l.pointAt u) = max 0 (u - l.slack) := by
  have hstart := l.distance_pointAt l.length_nonneg hu
  have hslack : 0 - l.slack ≤ 0 := by linarith [l.slack_nonneg]
  rwa [pointAt_zero, max_eq_left hslack, sub_zero, abs_of_nonneg (le_max_left _ _)] at hstart

theorem distance_start_pointAt_le (hu : 0 ≤ u) (hu' : u ≤ l.length) :
    l.start.distance (l.pointAt u) ≤ u := by
  rw [l.distance_start_pointAt hu']
  exact max_le hu (by linarith [l.slack_nonneg])

theorem distance_pointAt_finish_le (hu : u ≤ l.length) :
    (l.pointAt u).distance l.finish ≤ l.length - u := by
  have hfinish := l.distance_pointAt_le hu le_rfl
  rwa [pointAt_length, abs_of_nonneg (sub_nonneg.mpr hu)] at hfinish

theorem pointAt_mem_segment (hu : u ≤ l.length) :
    (l.pointAt u).toComplex ∈ segment ℝ l.start.toComplex l.finish.toComplex :=
  Point.toComplex_between_mem_segment _ _ l.ratio_nonneg (l.ratio_le_one hu)

end Leg

namespace State

variable {s : State ℝ}

theorem cos_slope (hne : s.previous.distance s.current ≠ 0) :
    Real.cos s.slope = (s.current.x - s.previous.x) / s.previous.distance s.current := by
  rw [Point.distance_eq_norm] at hne ⊢
  exact Complex.cos_arg (norm_ne_zero_iff.mp hne)

theorem sin_slope : Real.sin s.slope =
    (s.current.y - s.previous.y) / s.previous.distance s.current := by
  rw [Point.distance_eq_norm]
  exact Complex.sin_arg _

theorem pullBack_eq : s.pullBack =
    max (s.desiredLength - s.totalLength) (-s.previous.distance s.current) :=
  scalar_max _ _

/-- The point that answers a query lies on the last leg, as far before its end in counted length as
the total exceeds the desired length. -/
theorem resolve_current {l : Leg} (hgoal : s.goal = .pointAtLength)
    (hprevious : s.previous = l.start) (hcurrent : s.current = l.finish)
    (hle : s.desiredLength ≤ s.totalLength) :
    s.resolve.current = l.pointAt (l.length - (s.totalLength - s.desiredLength)) := by
  have hresolve : s.resolve.current = ⟨s.current.x + s.pullBack * Real.cos s.slope,
      s.current.y + s.pullBack * Real.sin s.slope⟩ := by
    rw [resolve, hgoal]
    rfl
  have hratio : l.ratio (l.length - (s.totalLength - s.desiredLength)) =
      (l.start.distance l.finish + s.pullBack) / l.start.distance l.finish := by
    rw [Leg.ratio, Leg.slack, pullBack_eq, hprevious, hcurrent, add_max, max_comm]
    congr 2 <;> ring
  rw [hresolve, Leg.pointAt, Point.between, hratio, ← hprevious, ← hcurrent]
  by_cases hdistance : s.previous.distance s.current = 0
  · -- the slope of a leg without extent is arbitrary, but nothing is pulled back along it
    have hpullBack : s.pullBack = 0 := by
      rw [pullBack_eq, hdistance, neg_zero]
      exact max_eq_right (by linarith)
    rw [Point.eq_of_distance_eq_zero hdistance, hpullBack]
    simp
  · rw [cos_slope hdistance, sin_slope]
    apply Point.ext
    · change s.current.x + s.pullBack * _ = s.previous.x + _
      field_simp
      ring
    · change s.current.y + s.pullBack * _ = s.previous.y + _
      field_simp
      ring

end State

namespace Stop

variable {budget index : ℕ} {s : State ℝ} {es : List (Element ℝ)} (stop : Stop budget index s es)

/-- The length counted before the leg of a stop. -/
noncomputable def walkedBefore : ℝ := stop.start.totalLength + walked stop.before

theorem walkedBefore_eq : stop.walkedBefore =
    s.totalLength + walked (s.pen.itinerary s.tolerance stop.drawn ++ stop.before) := by
  rw [walkedBefore, stop.totalLength_eq, walked_append, add_assoc]

theorem itinerary_eq : s.pen.itinerary s.tolerance es =
    (s.pen.itinerary s.tolerance stop.drawn ++ stop.before) ++ stop.leg ::
      (stop.after ++ (stop.start.pen.after stop.element).itinerary s.tolerance stop.rest) := by
  have hlegs := stop.rests.legs_eq
  rw [stop.pen_eq] at hlegs ⊢
  conv_lhs => rw [stop.elements_eq]
  rw [Pen.itinerary_append, Pen.itinerary, hlegs]
  simp

theorem desiredLength_start : stop.start.desiredLength = s.desiredLength := by
  rw [State.advanceAll_frame stop.walks]

theorem desiredLength_state : stop.state.desiredLength = s.desiredLength := by
  rw [State.enter_frame stop.enters]
  exact stop.desiredLength_start

theorem goal_state : stop.state.goal = s.goal := by
  rw [State.enter_frame stop.enters, State.advanceAll_frame stop.walks]

theorem segmentIndex_state : stop.state.segmentIndex = ((index + stop.drawn.length : ℕ) : ℤ) := by
  rw [State.enter_frame stop.enters]

theorem totalLength_state : stop.state.totalLength = stop.walkedBefore + stop.leg.length :=
  stop.rests.totalLength_eq

theorem walkedBefore_le : stop.walkedBefore ≤ s.desiredLength :=
  stop.rests.before_le.trans_eq stop.desiredLength_start

theorem le_walkedBefore_add : s.desiredLength ≤ stop.walkedBefore + stop.leg.length :=
  stop.reached.trans_eq stop.totalLength_state

theorem getElem?_drawn_length : es[stop.drawn.length]? = some stop.element :=
  (congrArg (fun fs => fs[stop.drawn.length]?) stop.elements_eq).trans (by simp)

theorem getElem?_of_lt {k : ℕ} (hk : k < stop.drawn.length) : es[k]? = stop.drawn[k]? :=
  (congrArg (fun fs => fs[k]?) stop.elements_eq).trans (List.getElem?_append_left hk)

theorem take_of_le {k : ℕ} (hk : k ≤ stop.drawn.length) : es.take k = stop.drawn.take k :=
  (congrArg (List.take k) stop.elements_eq).trans (List.take_append_of_le_length hk)

theorem take_drawn_length_succ :
    es.take (stop.drawn.length + 1) = stop.drawn ++ [stop.element] :=
  (congrArg (List.take (stop.drawn.length + 1)) stop.elements_eq).trans (by simp [List.take_append])

theorem walked_drawn_element :
    s.totalLength + walked (s.pen.itinerary s.tolerance (stop.drawn ++ [stop.element])) =
      stop.walkedBefore + stop.leg.length + walked stop.after := by
  have hlegs := stop.rests.legs_eq
  rw [stop.pen_eq] at hlegs
  rw [stop.walkedBefore_eq, Pen.itinerary_append, Pen.itinerary, hlegs]
  simp [Pen.itinerary]
  ring

theorem le_walked_drawn_element : s.desiredLength ≤
    s.totalLength + walked (s.pen.itinerary s.tolerance (stop.drawn ++ [stop.element])) := by
  rw [stop.walked_drawn_element]
  exact stop.le_walkedBefore_add.trans (le_add_of_nonneg_right (walked_nonneg _))

theorem leg_mem_legs : stop.leg ∈ stop.start.pen.legs s.tolerance stop.element := by
  rw [stop.rests.legs_eq]
  simp

/-- The answer of a point query is the point of the leg for the length still missing before it. -/
theorem resolve_current (hgoal : s.goal = .pointAtLength) :
    stop.state.resolve.current = stop.leg.pointAt (s.desiredLength - stop.walkedBefore) := by
  have hle : stop.state.desiredLength ≤ stop.state.totalLength := by
    rw [stop.desiredLength_state]
    exact stop.reached
  rw [State.resolve_current (stop.goal_state.trans hgoal) stop.rests.previous_eq
    stop.rests.current_eq hle, stop.totalLength_state, stop.desiredLength_state]
  congr 1
  ring

end Stop

namespace Path

variable {budget : ℕ} {tolerance : ℝ} {p : Path ℝ}

/-- The itinerary of a path, for a pen that sets out at the origin. -/
noncomputable def itinerary (tolerance : ℝ) (p : Path ℝ) : List Leg :=
  Pen.itinerary tolerance ⟨.origin, .origin⟩ p.elements

def Affords (budget : ℕ) (tolerance : ℝ) (p : Path ℝ) : Prop :=
  Pen.AffordsAll budget tolerance ⟨.origin, .origin⟩ p.elements

theorem eventually_affords (htolerance : 0 < tolerance) (p : Path ℝ) :
    ∀ᶠ budget in Filter.atTop, p.Affords budget tolerance :=
  Pen.eventually_affordsAll htolerance _ _

theorem length_eq (hafford : p.Affords budget tolerance) :
    p.length budget tolerance = some (walked (p.itinerary tolerance)) := by
  obtain ⟨t, hrun, htotal⟩ := State.exists_advanceAll_of_totalLength
    (s := .initial .totalLength 0 tolerance) 0 rfl hafford
  have hgoal : t.goal = .totalLength := by rw [State.advanceAll_frame hrun]; rfl
  have hwalk : p.walk budget (.initial .totalLength 0 tolerance) = some t := by
    simp [walk, hrun, State.reached, State.isLengthQuery, hgoal, Goal.isLengthQuery]
  rw [length_eq_map, hwalk]
  exact congrArg some (htotal.trans (zero_add _))

/-- A query of a path is answered at a stop, or it covers the path and is answered where it rests if
the desired length has been walked. -/
theorem walk_of_query {goal : Goal} (hquery : goal.isLengthQuery = true) (htolerance : 0 < tolerance)
    (hafford : p.Affords budget tolerance) {d : ℝ} (hd : 0 ≤ d) :
    (∃ stop : Stop budget 0 (.initial goal d tolerance) p.elements,
      p.walk budget (.initial goal d tolerance) = some stop.state.resolve) ∨
    ∃ t, State.advanceAll budget (.initial goal d tolerance) 0 p.elements = some (.walking t) ∧
      t.totalLength = walked (p.itinerary tolerance) ∧
      State.ShortOf (.initial goal d tolerance) p.elements ∧
      p.walk budget (.initial goal d tolerance) =
        some (if !p.isEmpty && decide (d ≤ t.totalLength) then t.resolveAtRest else t) := by
  obtain ⟨stop, hrun⟩ | ⟨t, hrun, htotal, hshort⟩ := State.advanceAll_of_query
    (s := .initial goal d tolerance) 0 htolerance hquery hd hafford
  · refine Or.inl ⟨stop, ?_⟩
    rw [walk, hrun]
    rfl
  · refine Or.inr ⟨t, hrun, htotal.trans (zero_add _), hshort, ?_⟩
    have hreached : t.reached = decide (d ≤ t.totalLength) := by
      rw [State.advanceAll_frame hrun, State.reached]
      exact (congrArg (· && _) hquery).trans (Bool.true_and _)
    rw [walk, hrun, ← hreached]
    rfl

theorem pointAtLength_of_walk {d : ℝ} (hd : 0 ≤ d) {s : State ℝ}
    (h : p.walk budget (.initial .pointAtLength d tolerance) = some s) :
    p.pointAtLength budget d tolerance = some (s.current, s.success) := by
  rw [pointAtLength_eq_map, seek_eq, scalar_max, max_eq_right hd, h]
  rfl

theorem length_stroke_three_four (budget : ℕ) (tolerance : ℝ) :
    Path.length budget ⟨[.moveTo ⟨0, 0⟩, .lineTo ⟨3, 4⟩]⟩ tolerance = some 5 := by
  have hafford : Affords budget tolerance ⟨[.moveTo ⟨0, 0⟩, .lineTo ⟨3, 4⟩]⟩ :=
    ⟨trivial, trivial, trivial⟩
  have hdistance : (Point.mk 0 0 : Point ℝ).distance ⟨3, 4⟩ = 5 :=
    Point.distance_eq_of_sq (by norm_num) (by norm_num)
  rw [length_eq hafford]
  simp [itinerary, Pen.itinerary, Pen.legs, Pen.after, Leg.straight, hdistance]

/-- A stroke of length 5 and a curve behind it whose ends are 5 apart. -/
noncomputable def corner : Path ℝ :=
  ⟨[.moveTo ⟨0, 0⟩, .lineTo ⟨(3 : ℕ), (4 : ℕ)⟩, .quadTo ⟨(6 : ℕ), (4 : ℕ)⟩ ⟨(6 : ℕ), (8 : ℕ)⟩]⟩

theorem corner_eq : corner = ⟨[.moveTo ⟨0, 0⟩, .lineTo ⟨3, 4⟩, .quadTo ⟨6, 4⟩ ⟨6, 8⟩]⟩ := rfl

theorem exists_not_isMove_corner : ∃ e ∈ corner.elements, e.isMove = false :=
  ⟨.lineTo ⟨3, 4⟩, by simp [corner_eq], rfl⟩

theorem moves_first_corner :
    ∀ e ∈ corner.elements.dropWhile Element.isMove, e.isMove = false := by
  have hdrop : corner.elements.dropWhile Element.isMove =
    [.lineTo ⟨3, 4⟩, .quadTo ⟨6, 4⟩ ⟨6, 8⟩] := rfl
  simp [hdrop, Element.isMove]

theorem ten_le_walked_corner (htolerance : 0 < tolerance) :
    10 ≤ walked (corner.itinerary tolerance) := by
  have hstroke : (Point.mk 0 0 : Point ℝ).distance ⟨3, 4⟩ = 5 :=
    Point.distance_eq_of_sq (by norm_num) (by norm_num)
  have hchord : (Point.mk 3 4 : Point ℝ).distance ⟨6, 8⟩ = 5 :=
    Point.distance_eq_of_sq (by norm_num) (by norm_num)
  have hcurve := distance_le_walked
    (connects_pieces htolerance (QuadraticCurve.mk ⟨3, 4⟩ ⟨6, 4⟩ (⟨6, 8⟩ : Point ℝ)))
  have hwalked : walked (corner.itinerary tolerance) = (Point.mk 0 0 : Point ℝ).distance ⟨3, 4⟩ +
      walked ((Curve.pieces tolerance
        (QuadraticCurve.mk ⟨3, 4⟩ ⟨6, 4⟩ (⟨6, 8⟩ : Point ℝ))).map Leg.ofPiece) := by
    simp [itinerary, corner_eq, Pen.itinerary, Pen.legs, Pen.after, Leg.straight, walked]
  change (Point.mk 3 4 : Point ℝ).distance ⟨6, 8⟩ ≤ _ at hcurve
  rw [hwalked, hstroke]
  linarith

/-- Within every budget that affords it, the corner is at least 10 long. -/
theorem ten_le_of_length_corner {T : ℝ} (htolerance : 0 < tolerance)
    (hafford : corner.Affords budget tolerance) (hT : corner.length budget tolerance = some T) :
    10 ≤ T := by
  obtain rfl := Option.some.inj ((length_eq hafford).symm.trans hT)
  exact ten_le_walked_corner htolerance

end Path

end ArcLength
