import ArcLength.Proofs.Location
import ArcLength.Proofs.Reach

/-!
# End points are hit exactly

Over the reals the length behind an element that adds length leads back to the end of that element,
and no length at all leads to where the first element that is no move sets out. Elements without
length are passed over, whatever stands before or behind them.
-/

namespace ArcLength

open Filter

namespace Stop

variable {budget index : ℕ} {s : State ℝ} {es : List (Element ℝ)} (stop : Stop budget index s es)

theorem pen_after_eq :
    stop.start.pen.after stop.element = (stop.drawn ++ [stop.element]).foldl Pen.after s.pen := by
  rw [List.foldl_append, ← stop.pen_eq]
  rfl

/-- The legs of the element of the answer lead from where the pen stood to where it puts the pen. -/
theorem connects_element (htolerance : 0 < s.tolerance) :
    Connects stop.start.pen.position (stop.before ++ stop.leg :: stop.after)
      (stop.start.pen.after stop.element).position := by
  rw [← stop.rests.legs_eq]
  exact Pen.connects_legs htolerance stop.no_move

section Behind

variable (hbehind : s.desiredLength =
  s.totalLength + walked (s.pen.itinerary s.tolerance (stop.drawn ++ [stop.element])))

include hbehind

theorem after_eq_nil : stop.after = [] := by
  -- a cut passes the desired length, which here holds all legs of the element
  refine stop.rests.passed_or_over.resolve_left fun hpassed => ?_
  rw [stop.desiredLength_start, stop.totalLength_state, hbehind,
    stop.walked_drawn_element] at hpassed
  have hafter := walked_nonneg stop.after
  linarith

theorem missing_eq_length : s.desiredLength - stop.walkedBefore = stop.leg.length := by
  rw [hbehind, stop.walked_drawn_element, stop.after_eq_nil hbehind, walked_nil]
  ring

theorem finish_eq (htolerance : 0 < s.tolerance) :
    stop.leg.finish = ((stop.drawn ++ [stop.element]).foldl Pen.after s.pen).position := by
  have hconnects := stop.connects_element htolerance
  rw [stop.after_eq_nil hbehind] at hconnects
  rw [finish_of_connects hconnects, stop.pen_after_eq]

theorem resolve_current_behind (hgoal : s.goal = .pointAtLength) (htolerance : 0 < s.tolerance) :
    stop.state.resolve.current =
      ((stop.drawn ++ [stop.element]).foldl Pen.after s.pen).position := by
  rw [stop.resolve_current hgoal, stop.missing_eq_length hbehind, Leg.pointAt_length,
    stop.finish_eq hbehind htolerance]

end Behind

section Front

variable (hfront : s.desiredLength = s.totalLength)

include hfront

theorem isMove_of_mem_drawn : ∀ e ∈ stop.drawn, e.isMove = true := by
  intro e he
  by_contra hmove
  obtain ⟨k, hk⟩ := List.mem_iff_getElem?.mp he
  -- behind an element that is no move the query would still be short of no length at all
  have hshort := stop.shortOf_drawn k e hk (Bool.eq_false_iff.mpr hmove)
  have hwalked := walked_nonneg (s.pen.itinerary s.tolerance (stop.drawn.take (k + 1)))
  linarith

theorem takeWhile_isMove : es.takeWhile Element.isMove = stop.drawn := by
  refine (congrArg (List.takeWhile Element.isMove) stop.elements_eq).trans ?_
  rw [List.takeWhile_append_of_pos (stop.isMove_of_mem_drawn hfront),
    List.takeWhile_cons_of_neg (by simp [stop.no_move]), List.append_nil]

theorem walkedBefore_eq_desiredLength : stop.walkedBefore = s.desiredLength := by
  refine le_antisymm stop.walkedBefore_le ?_
  rw [hfront, stop.walkedBefore_eq]
  exact le_add_of_nonneg_right (walked_nonneg _)

theorem start_eq (htolerance : 0 < s.tolerance) : stop.leg.start = stop.start.pen.position := by
  have hconnects := stop.connects_element htolerance
  rw [connects_append] at hconnects
  obtain ⟨q, hbefore, rfl, -⟩ := hconnects
  have hwalked : walked stop.before = 0 := by
    have hstart := walked_nonneg (s.pen.itinerary s.tolerance stop.drawn)
    have htotal := stop.walkedBefore_eq_desiredLength hfront
    rw [walkedBefore, stop.totalLength_eq, hfront] at htotal
    exact le_antisymm (by linarith) (walked_nonneg _)
  refine (Point.eq_of_distance_eq_zero (le_antisymm ?_ (Point.distance_nonneg _ _))).symm
  exact hwalked ▸ distance_le_walked hbefore

theorem resolve_current_front (hgoal : s.goal = .pointAtLength) (htolerance : 0 < s.tolerance) :
    stop.state.resolve.current =
      ((es.takeWhile Element.isMove).foldl Pen.after s.pen).position := by
  rw [stop.resolve_current hgoal, stop.walkedBefore_eq_desiredLength hfront, sub_self,
    Leg.pointAt_zero, stop.start_eq hfront htolerance, stop.pen_eq, stop.takeWhile_isMove hfront]

end Front

end Stop

namespace Path

variable {budget : ℕ} {tolerance : ℝ} {p : Path ℝ}

/-- The pen behind the first elements of a path, so many of them. -/
noncomputable def penBehind (p : Path ℝ) (k : ℕ) : Pen :=
  (p.elements.take k).foldl Pen.after ⟨.origin, .origin⟩

/-- The pen at the first element that is no move. -/
noncomputable def penAtFront (p : Path ℝ) : Pen :=
  (p.elements.takeWhile Element.isMove).foldl Pen.after ⟨.origin, .origin⟩

theorem reach_nonneg (p : Path ℝ) (tolerance : ℝ) (k : ℕ) : 0 ≤ p.reach tolerance k :=
  walked_nonneg _

theorem reach_le (p : Path ℝ) (tolerance : ℝ) (k : ℕ) :
    p.reach tolerance k ≤ walked (p.itinerary tolerance) := by
  rcases le_total k p.size with hk | hk
  · rw [← reach_of_size_le le_rfl]
    exact p.reach_mono tolerance hk
  · exact (reach_of_size_le hk).le

theorem exists_getElem?_of_reach_lt {k : ℕ} (h : p.reach tolerance k < p.reach tolerance (k + 1)) :
    ∃ e, p.elements[k]? = some e ∧ e.isMove = false := by
  cases he : p.elements[k]? with
  | none =>
      have hk : p.size ≤ k := List.getElem?_eq_none_iff.mp he
      rw [reach_of_size_le hk, reach_of_size_le (hk.trans (Nat.le_succ k))] at h
      exact absurd h (lt_irrefl _)
  | some e =>
      refine ⟨e, rfl, Bool.eq_false_iff.mpr fun hmove => ?_⟩
      rw [reach_eq, reach_eq, List.take_add_one, he, Pen.itinerary_append] at h
      simp [Pen.itinerary, hmove] at h

theorem isLeast_holders_of_reach_lt {k : ℕ}
    (h : p.reach tolerance k < p.reach tolerance (k + 1)) :
    IsLeast (p.holders (p.reach tolerance) (p.reach tolerance (k + 1))) k := by
  obtain ⟨e, he, hmove⟩ := exists_getElem?_of_reach_lt h
  refine ⟨⟨e, he, hmove, le_rfl⟩, ?_⟩
  rintro j ⟨-, -, -, hj⟩
  by_contra hlt
  have hle := p.reach_mono tolerance (not_le.mp hlt)
  exact absurd (hj.trans hle) (not_le.mpr h)

theorem segmentIndexAtLength_of_walk {d : ℝ} (hd : 0 ≤ d) {s : State ℝ}
    (h : p.walk budget (.initial .pointAtLength d tolerance) = some s) :
    p.segmentIndexAtLength budget d tolerance = some s.segmentIndex := by
  rw [segmentIndexAtLength_eq_map, seek_eq, scalar_max, max_eq_right hd, h]
  rfl

theorem queries_behind (htolerance : 0 < tolerance) (hafford : p.Affords budget tolerance) {k : ℕ}
    (h : p.reach tolerance k < p.reach tolerance (k + 1)) :
    p.pointAtLength budget (p.reach tolerance (k + 1)) tolerance =
        some ((p.penBehind (k + 1)).position, true) ∧
      p.segmentIndexAtLength budget (p.reach tolerance (k + 1)) tolerance = some (k : ℤ) := by
  obtain ⟨e, he, hmove⟩ := exists_getElem?_of_reach_lt h
  have hdrawn : ∃ e ∈ p.elements, e.isMove = false := ⟨e, List.mem_of_getElem? he, hmove⟩
  have hd := p.reach_nonneg tolerance (k + 1)
  have hquery : Goal.pointAtLength.isLengthQuery = true := rfl
  obtain ⟨stop, hwalk⟩ :=
    exists_stop hquery htolerance hafford hdrawn hd (p.reach_le tolerance (k + 1))
  have hindex : stop.drawn.length = k :=
    (isLeast_holders_of_stop stop).unique (isLeast_holders_of_reach_lt h)
  have htake := stop.take_drawn_length_succ
  rw [hindex] at htake
  have hend : stop.state.resolve.current = (p.penBehind (k + 1)).position := by
    rw [penBehind, htake]
    refine stop.resolve_current_behind ?_ rfl htolerance
    rw [← htake]
    exact (zero_add _).symm
  refine ⟨?_, ?_⟩
  · rw [pointAtLength_of_walk hd hwalk, hend, State.resolve_success]
  · rw [segmentIndexAtLength_of_walk hd hwalk, State.resolve_segmentIndex,
      stop.segmentIndex_state, hindex, zero_add]

theorem pointAtLength_of_nonpos {x : ℝ} (hx : x ≤ 0) :
    p.pointAtLength budget x tolerance = p.pointAtLength budget 0 tolerance := by
  rw [pointAtLength_eq_map, pointAtLength_eq_map, seek_eq, seek_eq, scalar_max, scalar_max,
    max_eq_left hx, max_self]

theorem pointAtLength_front (htolerance : 0 < tolerance) (hafford : p.Affords budget tolerance)
    (hdrawn : ∃ e ∈ p.elements, e.isMove = false) {x : ℝ} (hx : x ≤ 0) :
    p.pointAtLength budget x tolerance = some (p.penAtFront.position, true) := by
  have hquery : Goal.pointAtLength.isLengthQuery = true := rfl
  obtain ⟨stop, hwalk⟩ := exists_stop hquery htolerance hafford hdrawn le_rfl (walked_nonneg _)
  have hstart : stop.state.resolve.current = p.penAtFront.position :=
    stop.resolve_current_front rfl rfl htolerance
  rw [pointAtLength_of_nonpos hx, pointAtLength_of_walk le_rfl hwalk, hstart,
    State.resolve_success]

/-- **End points are hit exactly.** Within every large budget, the length behind an element that adds
length, which is no move, is reached at the end of that element and has its index; for the last
element it is the length of the path. On a path that is not bare moves, every length up to zero is
reached where the first element that is no move sets out. -/
theorem pointAtLength_hits_ends (p : Path ℝ) {tolerance : ℝ} (htolerance : 0 < tolerance) :
    ∃ T : ℕ → ℝ, ∀ᶠ budget in atTop,
      (∀ k, (p.take k).length budget tolerance = some (T k)) ∧
      (∀ k, T k < T (k + 1) →
        p.pointAtLength budget (T (k + 1)) tolerance =
            some ((p.penBehind (k + 1)).position, true) ∧
          p.segmentIndexAtLength budget (T (k + 1)) tolerance = some (k : ℤ)) ∧
      (T (p.size - 1) < T p.size → ∃ length, p.length budget tolerance = some length ∧
        p.pointAtLength budget length tolerance = some ((p.penBehind p.size).position, true)) ∧
      ((∃ e ∈ p.elements, e.isMove = false) → ∀ x ≤ 0,
        p.pointAtLength budget x tolerance = some (p.penAtFront.position, true)) := by
  refine ⟨p.reach tolerance, ?_⟩
  filter_upwards [eventually_affords htolerance p] with budget hafford
  refine ⟨fun k => length_eq (hafford.take k), fun k hk => queries_behind htolerance hafford hk,
    fun hlast => ?_, fun hdrawn x hx => pointAtLength_front htolerance hafford hdrawn hx⟩
  have hpos : p.size - 1 + 1 = p.size := by
    refine Nat.sub_add_cancel (Nat.one_le_iff_ne_zero.mpr fun hzero => ?_)
    rw [hzero] at hlast
    exact lt_irrefl _ hlast
  have hbehind := queries_behind htolerance hafford (k := p.size - 1) (by rwa [hpos])
  rw [hpos, reach_of_size_le le_rfl] at hbehind
  exact ⟨_, length_eq hafford, hbehind.1⟩

theorem pointAtLength_hits_ends_corner :
    (0 : ℝ) < 1 ∧ ∀ᶠ budget in atTop,
      corner.pointAtLength budget 5 1 = some (⟨3, 4⟩, true) ∧
      corner.segmentIndexAtLength budget 5 1 = some 1 ∧
      corner.pointAtLength budget (-1) 1 = some (⟨0, 0⟩, true) := by
  refine ⟨zero_lt_one, ?_⟩
  obtain ⟨T, hends⟩ := pointAtLength_hits_ends corner (zero_lt_one : (0 : ℝ) < 1)
  filter_upwards [hends] with budget hbudget
  obtain ⟨hlength, hbehind, -, hfront⟩ := hbudget
  have hafford : Affords budget 1 ⟨[.moveTo ⟨0, 0⟩]⟩ := ⟨trivial, trivial⟩
  have hmoved : T 1 = 0 := Option.some.inj ((hlength 1).symm.trans (length_eq hafford))
  have hcorner : T 2 = 5 :=
    Option.some.inj ((hlength 2).symm.trans (length_stroke_three_four budget 1))
  have hcome := hbehind 1 (by rw [hmoved, hcorner]; norm_num)
  rw [hcorner] at hcome
  exact ⟨hcome.1, hcome.2, hfront exists_not_isMove_corner (-1) (by norm_num)⟩

end Path

end ArcLength
