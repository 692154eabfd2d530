import ArcLength.Proofs.Answer

/-!
# Which lengths a path reaches, and on which element

Over the reals a query succeeds exactly on the lengths that the path reaches. The element it names
is the first, moves aside, behind which the path has come that far.
-/

namespace ArcLength.Path

open Filter

/-- The elements, moves aside, behind which a path has come at least `d` far, where `reach k` is how
far it has come behind `k` elements. -/
def holders (p : Path ℝ) (reach : ℕ → ℝ) (d : ℝ) : Set ℕ :=
  {k | ∃ e, p.elements[k]? = some e ∧ e.isMove = false ∧ d ≤ reach (k + 1)}

variable {budget : ℕ} {tolerance : ℝ} {p : Path ℝ}

noncomputable def reach (p : Path ℝ) (tolerance : ℝ) (k : ℕ) : ℝ :=
  walked ((p.take k).itinerary tolerance)

theorem reach_mono (p : Path ℝ) (tolerance : ℝ) : Monotone (p.reach tolerance) := by
  refine monotone_nat_of_le_succ fun k => ?_
  rw [reach, reach, itinerary, itinerary, take, take, List.take_add_one, Pen.itinerary_append,
    walked_append]
  exact le_add_of_nonneg_right (walked_nonneg _)

theorem reach_of_size_le {k : ℕ} (hk : p.size ≤ k) :
    p.reach tolerance k = walked (p.itinerary tolerance) := by
  rw [reach, take, List.take_of_length_le hk]

theorem Affords.take (hafford : p.Affords budget tolerance) (k : ℕ) :
    (p.take k).Affords budget tolerance :=
  Pen.AffordsAll.take hafford k

theorem reach_eq (tolerance : ℝ) (k : ℕ) : p.reach tolerance k =
    walked (Pen.itinerary tolerance ⟨.origin, .origin⟩ (p.elements.take k)) := rfl

theorem isLeast_holders_of_stop {goal : Goal} {d : ℝ}
    (stop : Stop budget 0 (.initial goal d tolerance) p.elements) :
    IsLeast (p.holders (p.reach tolerance) d) stop.drawn.length := by
  constructor
  · refine ⟨stop.element, stop.getElem?_drawn_length, stop.no_move, ?_⟩
    rw [reach_eq, stop.take_drawn_length_succ]
    exact stop.le_walked_drawn_element.trans_eq (zero_add _)
  · rintro k ⟨e, he, hmove, hk⟩
    by_contra hlt
    rw [not_le] at hlt
    rw [stop.getElem?_of_lt hlt] at he
    rw [reach_eq, stop.take_of_le hlt] at hk
    have hshort := stop.shortOf_drawn k e he hmove
    rw [show (State.initial goal d tolerance).totalLength = 0 from rfl, zero_add] at hshort
    exact absurd hk (not_le.mpr hshort)

/-- What a query of a path that is not empty reports: whether the length is reached, and where. -/
theorem exists_walk_of_query (goal : Goal) (hquery : goal.isLengthQuery = true)
    (htolerance : 0 < tolerance) (hafford : p.Affords budget tolerance) (hne : p.isEmpty = false)
    {d : ℝ} (hd : 0 ≤ d) :
    ∃ (s : State ℝ) (index : ℕ), p.walk budget (.initial goal d tolerance) = some s ∧
      (s.success = true ↔ d ≤ p.reach tolerance p.size) ∧ s.segmentIndex = index ∧
      (∀ k, IsLeast (p.holders (p.reach tolerance) d) k → index = k) ∧
      (p.holders (p.reach tolerance) d = ∅ → index = p.size - 1) := by
  obtain ⟨stop, hwalk⟩ | ⟨t, hrun, htotal, hshort, hwalk⟩ :=
    walk_of_query hquery htolerance hafford hd
  · have hleast := isLeast_holders_of_stop stop
    refine ⟨_, stop.drawn.length, hwalk, ?_, ?_, fun k hk => hleast.unique hk, ?_⟩
    · obtain ⟨e, he, -, hle⟩ := hleast.1
      have hindex : stop.drawn.length + 1 ≤ p.size := (List.getElem?_eq_some_iff.mp he).1
      simp only [State.resolve_success, true_iff]
      exact hle.trans (p.reach_mono tolerance hindex)
    · rw [State.resolve_segmentIndex, stop.segmentIndex_state, zero_add]
    · intro hempty
      exact absurd hleast.1 (by simp [hempty])
  · have hsuccess : t.success = false := by rw [State.advanceAll_frame hrun]; rfl
    have hnonempty : p.elements ≠ [] := by simpa [isEmpty] using hne
    have hindex := State.segmentIndex_of_advanceAll hrun hnonempty
    have hempty : p.holders (p.reach tolerance) d = ∅ := by
      refine Set.eq_empty_of_forall_notMem ?_
      rintro k ⟨e, he, hmove, hk⟩
      have hlt := hshort k e he hmove
      rw [show (State.initial goal d tolerance).totalLength = 0 from rfl, zero_add] at hlt
      exact absurd hk (not_le.mpr hlt)
    have hpos : 0 < p.size := List.length_pos_iff.mpr hnonempty
    have hlast : t.segmentIndex = (p.size - 1 : ℕ) := by
      change t.segmentIndex + 1 = ((0 : ℕ) : ℤ) + (p.size : ℤ) at hindex
      omega
    have hleast : ∀ k, IsLeast (p.holders (p.reach tolerance) d) k → p.size - 1 = k := by
      intro k hk
      exact absurd hk.1 (by simp [hempty])
    rw [reach_of_size_le le_rfl, ← htotal]
    by_cases hreached : d ≤ t.totalLength
    · refine ⟨t.resolveAtRest, p.size - 1, ?_, ?_, ?_, hleast, fun _ => rfl⟩
      · rw [hwalk]
        simp [hne, hreached]
      · simp [State.resolveAtRest, hreached]
      · rw [State.resolveAtRest, State.resolve_segmentIndex]
        exact hlast
    · refine ⟨t, p.size - 1, ?_, ?_, hlast, hleast, fun _ => rfl⟩
      · rw [hwalk]
        simp [hreached]
      · simp [hsuccess, hreached]

/-- **Reached lengths and element indices.** Within every large budget the lengths of the prefixes of
a path grow with them. A point or angle query of a path that is not empty succeeds exactly on the
lengths up to the whole, and the index of a length is the first element, moves aside, behind which
the path has come so far, or else the last element. -/
theorem reached_iff_and_segmentIndex (p : Path ℝ) {tolerance : ℝ} (htolerance : 0 < tolerance) :
    ∃ T : ℕ → ℝ, Monotone T ∧ ∀ᶠ budget in atTop,
      (∀ k, (p.take k).length budget tolerance = some (T k)) ∧
      ∀ x : ℝ, ∃ (point : Point ℝ) (angle : ℝ) (atPoint atAngle : Bool) (index : ℕ),
        p.pointAtLength budget x tolerance = some (point, atPoint) ∧
        p.normalAngleAtLength budget x tolerance = some (angle, atAngle) ∧
        p.segmentIndexAtLength budget x tolerance = some (index : ℤ) ∧
        (p.isEmpty = false →
          (atPoint = true ↔ max 0 x ≤ T p.size) ∧ (atAngle = true ↔ max 0 x ≤ T p.size) ∧
          (∀ k, IsLeast (p.holders T (max 0 x)) k → index = k) ∧
          (p.holders T (max 0 x) = ∅ → index = p.size - 1)) ∧
        (p.isEmpty = true → atPoint = false ∧ atAngle = false ∧ index = 0) := by
  refine ⟨p.reach tolerance, p.reach_mono tolerance, ?_⟩
  filter_upwards [eventually_affords htolerance p] with budget hafford
  refine ⟨fun k => length_eq (hafford.take k), fun x => ?_⟩
  cases hempty : p.isEmpty with
  | true =>
      have hnil : p.elements = [] := List.isEmpty_iff.mp hempty
      have hwalk (goal : Goal) (d : ℝ) : p.walk budget (.initial goal d tolerance) =
          some (.initial goal d tolerance) := by
        simp [walk, hnil, State.advanceAll, isEmpty]
      exact ⟨_, _, false, false, 0, by rw [pointAtLength_eq_map, seek_eq, hwalk]; rfl,
        by rw [normalAngleAtLength_eq_map, seek_eq, hwalk]; rfl,
        by rw [segmentIndexAtLength_eq_map, seek_eq, hwalk]; rfl, by simp, fun _ => ⟨rfl, rfl, rfl⟩⟩
  | false =>
      -- the two queries differ in what they answer, not in where they stop
      have hd : 0 ≤ max 0 x := le_max_left _ _
      obtain ⟨s, index, hpoint, hsuccess, hindex, hleast, hlast⟩ :=
        exists_walk_of_query .pointAtLength rfl htolerance hafford hempty hd
      obtain ⟨s', -, hangle, hsuccess', -⟩ :=
        exists_walk_of_query .normalAngleAtLength rfl htolerance hafford hempty hd
      rw [← scalar_max] at hpoint hangle
      exact ⟨s.current, s'.normalAngle, s.success, s'.success, index,
        by rw [pointAtLength_eq_map, seek_eq, hpoint]; rfl,
        by rw [normalAngleAtLength_eq_map, seek_eq, hangle]; rfl,
        by rw [segmentIndexAtLength_eq_map, seek_eq, hpoint, ← hindex]; rfl,
        fun _ => ⟨hsuccess, hsuccess', hleast, hlast⟩, by simp⟩

/-- The length up to a corner is held by the stroke in front of it. -/
theorem segmentIndexAtLength_corner :
    ∀ᶠ budget in atTop, corner.segmentIndexAtLength budget 5 1 = some 1 := by
  obtain ⟨T, -, hqueries⟩ := reached_iff_and_segmentIndex corner (zero_lt_one : (0 : ℝ) < 1)
  filter_upwards [hqueries] with budget hbudget
  obtain ⟨hlength, hquery⟩ := hbudget
  have hcorner : T 2 = 5 :=
    Option.some.inj ((hlength 2).symm.trans (length_stroke_three_four budget 1))
  obtain ⟨point, angle, atPoint, atAngle, index, -, -, hindex, hreached, -⟩ := hquery 5
  obtain ⟨-, -, hleast, -⟩ := hreached rfl
  rw [max_eq_right (by norm_num : (0 : ℝ) ≤ 5)] at hleast
  rw [hindex, hleast 1 ⟨⟨_, rfl, rfl, hcorner.ge⟩, ?_⟩]
  · rfl
  · rintro k ⟨e, he, hmove, -⟩
    cases k with
    | zero =>
        obtain rfl := Option.some.inj he
        simp [Element.isMove] at hmove
    | succ k => omega

end ArcLength.Path
