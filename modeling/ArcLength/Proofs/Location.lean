import ArcLength.Proofs.Answer

/-!
# Where the point of a query lies

Over the reals a point query within the length of a path is answered on the stretch that the walk
reports. The point lies on that stretch, and the length walked before it with the way to the point
falls short of the desired length by at most the tolerance, on a stroke by nothing.
-/

namespace ArcLength

open Filter

theorem Pen.slack_of_mem_legs_of_straight {tolerance : ℝ} {pen : Pen} {e : Element ℝ} {l : Leg}
    (hstraight : e = .close ∨ ∃ q, e = .lineTo q) (hmem : l ∈ pen.legs tolerance e) :
    l.slack = 0 := by
  obtain rfl | ⟨q, rfl⟩ := hstraight
  · rw [List.mem_singleton.mp hmem, Leg.slack_straight]
  · rw [List.mem_singleton.mp hmem, Leg.slack_straight]

theorem State.ShortOf.walked_itinerary_lt {s : State ℝ} {es : List (Element ℝ)}
    (h : s.ShortOf es) (hdrawn : ∃ e ∈ es, e.isMove = false) :
    s.totalLength + walked (s.pen.itinerary s.tolerance es) < s.desiredLength := by
  -- moves at the end add no length, so the last element that is no move decides
  induction es using List.reverseRecOn with
  | nil => simp at hdrawn
  | append_singleton es f ih =>
      cases hmove : f.isMove with
      | false =>
          have hlast := h es.length f (by simp) hmove
          rwa [List.take_of_length_le (by simp)] at hlast
      | true =>
          obtain ⟨e, hmem, he⟩ := hdrawn
          have hne : e ≠ f := by
            rintro rfl
            simp [he] at hmove
          have hmem' : e ∈ es := by simpa [hne] using hmem
          have hshort : s.ShortOf es := by
            intro k g hg hgmove
            have hk : k < es.length := (List.getElem?_eq_some_iff.mp hg).1
            have hprefix := h k g (by rwa [List.getElem?_append_left hk]) hgmove
            rwa [List.take_append_of_le_length (by omega)] at hprefix
          rw [Pen.itinerary_append, Pen.itinerary, Pen.legs_of_isMove hmove]
          simpa [Pen.itinerary] using ih hshort ⟨e, hmem', he⟩

namespace Stop

variable {budget index : ℕ} {s : State ℝ} {es : List (Element ℝ)} (stop : Stop budget index s es)

theorem crossingAmong_eq : s.crossingAmong budget index es =
    some ⟨stop.element, stop.leg.start, stop.leg.finish, stop.walkedBefore⟩ := by
  refine (congrArg (s.crossingAmong budget index) stop.elements_eq).trans ?_
  rw [State.crossingAmong_append stop.walks, State.crossingAmong_cons_of_answered stop.answers,
    stop.crosses]
  rfl

theorem missing_le_length : s.desiredLength - stop.walkedBefore ≤ stop.leg.length :=
  sub_le_iff_le_add'.mpr stop.le_walkedBefore_add

theorem distance_start_resolve (hgoal : s.goal = .pointAtLength) :
    stop.leg.start.distance stop.state.resolve.current =
      max 0 (s.desiredLength - stop.walkedBefore - stop.leg.slack) := by
  rw [stop.resolve_current hgoal]
  exact stop.leg.distance_start_pointAt stop.missing_le_length

end Stop

namespace Path

variable {budget : ℕ} {tolerance : ℝ} {p : Path ℝ}

/-- A query within the length of a path that is not bare moves is answered at a stop. -/
theorem exists_stop {goal : Goal} (hquery : goal.isLengthQuery = true) (htolerance : 0 < tolerance)
    (hafford : p.Affords budget tolerance) (hdrawn : ∃ e ∈ p.elements, e.isMove = false) {d : ℝ}
    (hd : 0 ≤ d) (hle : d ≤ walked (p.itinerary tolerance)) :
    ∃ stop : Stop budget 0 (.initial goal d tolerance) p.elements,
      p.walk budget (.initial goal d tolerance) = some stop.state.resolve := by
  obtain hstop | ⟨t, -, -, hshort, -⟩ := walk_of_query hquery htolerance hafford hd
  · exact hstop
  · have hlt := hshort.walked_itinerary_lt hdrawn
    change 0 + walked (p.itinerary tolerance) < d at hlt
    rw [zero_add] at hlt
    exact absurd hle (not_le.mpr hlt)

/-- A walk of a corner for a length that the stroke does not reach goes on to the curve. -/
theorem crossing_corner (budget : ℕ) {d : ℝ} (hd : 0 ≤ d) : corner.crossing budget d 1 =
    if d ≤ 5 then some ⟨.lineTo ⟨3, 4⟩, ⟨0, 0⟩, ⟨3, 4⟩, 0⟩
    else State.crossingAmong budget
      { State.initial .pointAtLength d 1 with
        segmentIndex := 1, totalLength := 5, current := ⟨3, 4⟩, previous := ⟨0, 0⟩,
        subpathStart := ⟨0, 0⟩, lastControl1 := ⟨3, 4⟩, lastControl2 := ⟨3, 4⟩ }
      2 [.quadTo ⟨6, 4⟩ ⟨6, 8⟩] := by
  have hstroke : (Point.mk 0 0 : Point ℝ).distance ⟨3, 4⟩ = 5 :=
    Point.distance_eq_of_sq (by norm_num) (by norm_num)
  rw [crossing, scalar_max, max_eq_right hd, corner_eq]
  by_cases hle : d ≤ 5
  · simp [State.crossingAmong, State.advance, State.enter, State.draw, State.moveTo, State.lineTo,
      State.initial, State.reached, State.isLengthQuery, Goal.isLengthQuery, Element.isMove,
      State.crossing, hstroke, hle]
  · simp [State.crossingAmong, State.advance, State.enter, State.draw, State.moveTo, State.lineTo,
      State.initial, State.reached, State.isLengthQuery, Goal.isLengthQuery, Element.isMove,
      hstroke, hle]

theorem element_of_crossing_corner {d : ℝ} (hd : 5 < d) {c : Crossing ℝ}
    (h : corner.crossing budget d 1 = some c) : c.element = .quadTo ⟨6, 4⟩ ⟨6, 8⟩ := by
  rw [crossing_corner budget (by linarith), if_neg (not_le.mpr hd)] at h
  obtain ⟨_, -, hmem, -⟩ := State.exists_resolve_of_crossingAmong rfl h
  exact List.mem_singleton.mp hmem

/-- **Location of the answer.** Within every large budget a point query up to the length of a path
is answered from the ends of the reported stretch. The point lies on that stretch, no further along
than the desired length and short of it by at most the tolerance. A stroke is not short of it. -/
theorem pointAtLength_mem_crossing (p : Path ℝ) (hdrawn : ∃ e ∈ p.elements, e.isMove = false)
    {tolerance : ℝ} (htolerance : 0 < tolerance) :
    ∃ T : ℝ, ∀ᶠ budget in atTop, p.length budget tolerance = some T ∧
      ∀ d : ℝ, 0 ≤ d → d ≤ T → ∃ (c : Crossing ℝ) (point : Point ℝ),
        p.crossing budget d tolerance = some c ∧
        p.pointAtLength budget d tolerance = some (point, true) ∧
        c.element ∈ p.elements ∧
        (∃ s : State ℝ, p.seek budget .pointAtLength d tolerance = some s.resolve ∧
          s.previous = c.start ∧ s.current = c.finish) ∧
        c.walked ≤ d ∧
        point.toComplex ∈ segment ℝ c.start.toComplex c.finish.toComplex ∧
        d - tolerance ≤ c.walked + c.start.distance point ∧
        c.walked + c.start.distance point ≤ d ∧
        ((c.element = .close ∨ ∃ q, c.element = .lineTo q) →
          c.walked + c.start.distance point = d) := by
  refine ⟨walked (p.itinerary tolerance), ?_⟩
  filter_upwards [eventually_affords htolerance p] with budget hafford
  refine ⟨length_eq hafford, fun d hd hle => ?_⟩
  have hquery : Goal.pointAtLength.isLengthQuery = true := rfl
  obtain ⟨stop, hwalk⟩ := exists_stop hquery htolerance hafford hdrawn hd hle
  have hcrossing := stop.crossingAmong_eq
  have hquery' : (State.initial .pointAtLength d tolerance).isLengthQuery = true := rfl
  obtain ⟨s, hrun, helement, hstart, hfinish⟩ :=
    State.exists_resolve_of_crossingAmong hquery' hcrossing
  have hdistance := stop.distance_start_resolve rfl
  have hbefore : stop.walkedBefore ≤ d := stop.walkedBefore_le
  have hslack : stop.leg.slack ≤ tolerance :=
    Pen.slack_le_of_mem_legs htolerance stop.leg_mem_legs
  have hslack_nonneg := stop.leg.slack_nonneg
  change stop.leg.start.distance _ = max 0 (d - stop.walkedBefore - _) at hdistance
  refine ⟨⟨stop.element, stop.leg.start, stop.leg.finish, stop.walkedBefore⟩,
    stop.state.resolve.current, ?_, ?_, helement, ⟨s, ?_, hstart.symm, hfinish.symm⟩, hbefore,
    ?_, ?_, ?_, ?_⟩
  · rw [crossing, scalar_max, max_eq_right hd]
    exact hcrossing
  · rw [pointAtLength_of_walk hd hwalk, State.resolve_success]
  · rw [seek_eq, scalar_max, max_eq_right hd, walk, hrun]
    rfl
  · rw [stop.resolve_current rfl]
    exact stop.leg.pointAt_mem_segment stop.missing_le_length
  · have hmissing := le_max_right 0 (d - stop.walkedBefore - stop.leg.slack)
    linarith
  · have hreach : max 0 (d - stop.walkedBefore - stop.leg.slack) ≤ d - stop.walkedBefore :=
      max_le (by linarith) (by linarith)
    linarith
  · intro hstraight
    have hexact := Pen.slack_of_mem_legs_of_straight hstraight stop.leg_mem_legs
    rw [hdistance, hexact, sub_zero, max_eq_right (by linarith)]
    ring

/-- On a corner, the point at length 2 lies on the stroke, 2 along it, and the point at length 9 lies
on the curve. -/
theorem pointAtLength_mem_crossing_corner :
    (∃ e ∈ corner.elements, e.isMove = false) ∧ (0 : ℝ) < 1 ∧
    ∀ᶠ budget in atTop,
      (∃ (c : Crossing ℝ) (point : Point ℝ), corner.crossing budget 2 1 = some c ∧
        corner.pointAtLength budget 2 1 = some (point, true) ∧
        c.element = .lineTo ⟨3, 4⟩ ∧ c.walked + c.start.distance point = 2) ∧
      ∃ (c : Crossing ℝ) (point : Point ℝ), corner.crossing budget 9 1 = some c ∧
        corner.pointAtLength budget 9 1 = some (point, true) ∧
        c.element = .quadTo ⟨6, 4⟩ ⟨6, 8⟩ ∧
        8 ≤ c.walked + c.start.distance point ∧ c.walked + c.start.distance point ≤ 9 := by
  obtain ⟨T, hqueries⟩ :=
    pointAtLength_mem_crossing corner exists_not_isMove_corner (zero_lt_one : (0 : ℝ) < 1)
  refine ⟨exists_not_isMove_corner, zero_lt_one, ?_⟩
  filter_upwards [hqueries, eventually_affords zero_lt_one corner] with budget hbudget hafford
  obtain ⟨hlength, hquery⟩ := hbudget
  have hT := ten_le_of_length_corner zero_lt_one hafford hlength
  constructor
  · obtain ⟨c, point, hcrossing, hpoint, -, -, -, -, -, -, hexact⟩ :=
      hquery 2 (by norm_num) (by linarith)
    have helement : c.element = .lineTo ⟨3, 4⟩ := by
      have hstroke := crossing_corner budget zero_le_two
      rw [if_pos (by norm_num)] at hstroke
      obtain rfl := Option.some.inj (hstroke.symm.trans hcrossing)
      rfl
    exact ⟨c, point, hcrossing, hpoint, helement, hexact (Or.inr ⟨_, helement⟩)⟩
  · obtain ⟨c, point, hcrossing, hpoint, -, -, -, -, hshort, hle, -⟩ :=
      hquery 9 (by norm_num) (by linarith)
    have helement := element_of_crossing_corner (by norm_num) hcrossing
    exact ⟨c, point, hcrossing, hpoint, helement, by linarith, hle⟩

end Path

end ArcLength
