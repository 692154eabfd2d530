import ArcLength.Proofs.Location

/-!
# How fast the answer moves

A path with moves only at its front is drawn without a gap. So over the reals the points at two
lengths are no further apart than the lengths are.
-/

namespace ArcLength

open Filter

/-- A length counted over legs that falls on one of them. -/
structure FallsOn (legs : List Leg) (d : ℝ) (before : List Leg) (leg : Leg) (after : List Leg) :
    Prop where
  legs_eq : legs = before ++ leg :: after
  before_le : walked before ≤ d
  le_add : d ≤ walked before + leg.length

namespace FallsOn

variable {p q : Point ℝ} {legs before₁ before₂ after₁ after₂ : List Leg} {l₁ l₂ : Leg} {d₁ d₂ : ℝ}

theorem missing_nonneg (h : FallsOn legs d₁ before₁ l₁ after₁) : 0 ≤ d₁ - walked before₁ :=
  sub_nonneg.mpr h.before_le

theorem missing_le (h : FallsOn legs d₁ before₁ l₁ after₁) : d₁ - walked before₁ ≤ l₁.length :=
  sub_le_iff_le_add'.mpr h.le_add

theorem distance_le_of_later {between : List Leg} (h₁ : FallsOn legs d₁ before₁ l₁ after₁)
    (h₂ : FallsOn legs d₂ before₂ l₂ after₂) (hlegs : Connects p legs q)
    (hbefore : before₂ = before₁ ++ l₁ :: between) :
    (l₁.pointAt (d₁ - walked before₁)).distance (l₂.pointAt (d₂ - walked before₂)) ≤ d₂ - d₁ := by
  have hbetween : l₁.finish.distance l₂.start ≤ walked between := by
    rw [h₂.legs_eq, hbefore, List.append_assoc, connects_append] at hlegs
    obtain ⟨-, -, -, hrest⟩ := hlegs
    obtain ⟨r, hconnects, hstart, -⟩ := connects_append.mp hrest
    rw [hstart]
    exact distance_le_walked hconnects
  have hwalked : walked before₂ = walked before₁ + (l₁.length + walked between) := by
    rw [hbefore, walked_append, walked_cons]
  have hfirst := l₁.distance_pointAt_finish_le h₁.missing_le
  have hsecond := l₂.distance_start_pointAt_le h₂.missing_nonneg h₂.missing_le
  calc (l₁.pointAt (d₁ - walked before₁)).distance (l₂.pointAt (d₂ - walked before₂))
      ≤ (l₁.pointAt (d₁ - walked before₁)).distance l₁.finish +
          l₁.finish.distance (l₂.pointAt (d₂ - walked before₂)) := Point.distance_triangle _ _ _
    _ ≤ (l₁.pointAt (d₁ - walked before₁)).distance l₁.finish +
          (l₁.finish.distance l₂.start +
            l₂.start.distance (l₂.pointAt (d₂ - walked before₂))) :=
        add_le_add le_rfl (Point.distance_triangle _ _ _)
    _ ≤ d₂ - d₁ := by linarith

theorem distance_le_of_same (h₁ : FallsOn legs d₁ before₁ l₁ after₁)
    (h₂ : FallsOn legs d₂ before₁ l₁ after₂) (hle : d₁ ≤ d₂) :
    (l₁.pointAt (d₁ - walked before₁)).distance (l₁.pointAt (d₂ - walked before₁)) ≤ d₂ - d₁ := by
  have hmoved := l₁.distance_pointAt_le h₁.missing_le h₂.missing_le
  rwa [sub_sub_sub_cancel_right, abs_of_nonneg (sub_nonneg.mpr hle)] at hmoved

/-- **Places on connected legs.** They are no further apart than the lengths that fall on them. The
two legs may be the same, or either may come first. -/
theorem distance_le (h₁ : FallsOn legs d₁ before₁ l₁ after₁)
    (h₂ : FallsOn legs d₂ before₂ l₂ after₂) (hlegs : Connects p legs q) (hle : d₁ ≤ d₂) :
    (l₁.pointAt (d₁ - walked before₁)).distance (l₂.pointAt (d₂ - walked before₂)) ≤ d₂ - d₁ := by
  obtain ⟨between, hbefore, hrest⟩ | ⟨between, hbefore, hrest⟩ :=
    List.append_eq_append_iff.mp (h₁.legs_eq.symm.trans h₂.legs_eq)
  · cases between with
    | nil =>
        obtain rfl : before₂ = before₁ := by simpa using hbefore
        obtain ⟨rfl, -⟩ := List.cons.inj hrest
        exact h₁.distance_le_of_same h₂ hle
    | cons l between =>
        obtain ⟨rfl, -⟩ := List.cons.inj hrest
        exact h₁.distance_le_of_later h₂ hlegs hbefore
  · cases between with
    | nil =>
        obtain rfl : before₁ = before₂ := by simpa using hbefore
        obtain ⟨rfl, -⟩ := List.cons.inj hrest
        exact h₁.distance_le_of_same h₂ hle
    | cons l between =>
        -- the length that is not smaller falls on the earlier leg, so the two are equal
        obtain ⟨rfl, -⟩ := List.cons.inj hrest
        have hearlier := h₂.distance_le_of_later h₁ hlegs hbefore
        rw [Point.distance_comm] at hearlier
        linarith

end FallsOn

theorem Stop.fallsOn {budget index : ℕ} {s : State ℝ} {es : List (Element ℝ)}
    (stop : Stop budget index s es) :
    FallsOn (s.pen.itinerary s.tolerance es) (s.desiredLength - s.totalLength)
      (s.pen.itinerary s.tolerance stop.drawn ++ stop.before) stop.leg
      (stop.after ++ (stop.start.pen.after stop.element).itinerary s.tolerance stop.rest) where
  legs_eq := stop.itinerary_eq
  before_le := by
    have hle := stop.walkedBefore_le
    rw [stop.walkedBefore_eq] at hle
    linarith
  le_add := by
    have hle := stop.le_walkedBefore_add
    rw [stop.walkedBefore_eq] at hle
    linarith

namespace Pen

theorem itinerary_of_moves {tolerance : ℝ} {pen : Pen} {es : List (Element ℝ)}
    (hmoves : ∀ e ∈ es, e.isMove = true) : pen.itinerary tolerance es = [] := by
  induction es generalizing pen with
  | nil => rfl
  | cons e rest ih =>
      rw [itinerary, legs_of_isMove (hmoves e List.mem_cons_self), List.nil_append]
      exact ih fun f hf => hmoves f (List.mem_cons_of_mem e hf)

theorem connects_itinerary_of_moves_first {tolerance : ℝ} (htolerance : 0 < tolerance) {pen : Pen}
    {es : List (Element ℝ)} (hmoves : ∀ e ∈ es.dropWhile Element.isMove, e.isMove = false) :
    ∃ p q, Connects p (pen.itinerary tolerance es) q := by
  have hfront : pen.itinerary tolerance (es.takeWhile Element.isMove) = [] :=
    itinerary_of_moves fun e he => List.mem_takeWhile_imp he
  have hsplit : pen.itinerary tolerance es =
      ((es.takeWhile Element.isMove).foldl after pen).itinerary tolerance
        (es.dropWhile Element.isMove) := by
    conv_lhs => rw [← List.takeWhile_append_dropWhile (p := Element.isMove) (l := es)]
    rw [itinerary_append, hfront, List.nil_append]
  rw [hsplit]
  exact ⟨_, connects_itinerary htolerance hmoves⟩

end Pen

namespace Path

variable {budget : ℕ} {tolerance : ℝ} {p : Path ℝ}

theorem distance_resolve_le {d₁ d₂ : ℝ} {a b : Point ℝ}
    (hconnects : Connects a (p.itinerary tolerance) b) (hle : d₁ ≤ d₂)
    (stop₁ : Stop budget 0 (.initial .pointAtLength d₁ tolerance) p.elements)
    (stop₂ : Stop budget 0 (.initial .pointAtLength d₂ tolerance) p.elements) :
    stop₁.state.resolve.current.distance stop₂.state.resolve.current ≤ d₂ - d₁ := by
  have hfalls₁ := stop₁.fallsOn
  have hfalls₂ := stop₂.fallsOn
  have hle' : d₁ - 0 ≤ d₂ - 0 := sub_le_sub_right hle 0
  have hdistance := hfalls₁.distance_le hfalls₂ hconnects hle'
  rw [stop₁.resolve_current rfl, stop₂.resolve_current rfl, stop₁.walkedBefore_eq,
    stop₂.walkedBefore_eq, ← sub_sub, ← sub_sub]
  exact hdistance.trans_eq (sub_sub_sub_cancel_right _ _ _)

/-- **Points move no faster than the length.** On a path with moves only at its front, within every
large budget, the points at two lengths are no further apart than the lengths. -/
theorem distance_pointAtLength_le (p : Path ℝ)
    (hmoves : ∀ e ∈ p.elements.dropWhile Element.isMove, e.isMove = false) {tolerance : ℝ}
    (htolerance : 0 < tolerance) :
    ∃ T : ℝ, ∀ᶠ budget in atTop, p.length budget tolerance = some T ∧
      ∀ d₁ d₂ : ℝ, 0 ≤ d₁ → d₁ ≤ d₂ → d₂ ≤ T →
        ∃ (point₁ point₂ : Point ℝ) (reached₁ reached₂ : Bool),
          p.pointAtLength budget d₁ tolerance = some (point₁, reached₁) ∧
          p.pointAtLength budget d₂ tolerance = some (point₂, reached₂) ∧
          point₁.distance point₂ ≤ d₂ - d₁ := by
  refine ⟨walked (p.itinerary tolerance), ?_⟩
  filter_upwards [eventually_affords htolerance p] with budget hafford
  refine ⟨length_eq hafford, fun d₁ d₂ hd₁ hle hd₂ => ?_⟩
  have hquery : Goal.pointAtLength.isLengthQuery = true := rfl
  by_cases hdrawn : ∃ e ∈ p.elements, e.isMove = false
  · obtain ⟨a, b, hconnects⟩ := Pen.connects_itinerary_of_moves_first htolerance hmoves
    obtain ⟨stop₁, hwalk₁⟩ := exists_stop hquery htolerance hafford hdrawn hd₁ (hle.trans hd₂)
    obtain ⟨stop₂, hwalk₂⟩ := exists_stop hquery htolerance hafford hdrawn (hd₁.trans hle) hd₂
    exact ⟨_, _, _, _, pointAtLength_of_walk hd₁ hwalk₁,
      pointAtLength_of_walk (hd₁.trans hle) hwalk₂, distance_resolve_le hconnects hle stop₁ stop₂⟩
  · -- bare moves have no length, so the two queries are one
    have hbare : ∀ e ∈ p.elements, e.isMove = true := by
      intro e he
      by_contra hmove
      exact hdrawn ⟨e, he, by simpa using hmove⟩
    have hwalked : walked (p.itinerary tolerance) = 0 := by
      rw [itinerary, Pen.itinerary_of_moves hbare, walked_nil]
    obtain rfl : d₁ = d₂ := by linarith
    obtain ⟨s, hwalk⟩ : ∃ s, p.walk budget (.initial .pointAtLength d₁ tolerance) = some s := by
      obtain ⟨stop, hwalk⟩ | ⟨t, -, -, -, hwalk⟩ := walk_of_query hquery htolerance hafford hd₁
      · exact ⟨_, hwalk⟩
      · exact ⟨_, hwalk⟩
    have hpoint := pointAtLength_of_walk hd₁ hwalk
    refine ⟨_, _, _, _, hpoint, hpoint, ?_⟩
    rw [Point.distance_self, sub_self]

/-- On a corner, the point at length 2 lies on the stroke and the point at length 9 on the curve. -/
theorem distance_pointAtLength_le_corner :
    (∀ e ∈ corner.elements.dropWhile Element.isMove, e.isMove = false) ∧ (0 : ℝ) < 1 ∧
    ∀ᶠ budget in atTop, ∃ (point₁ point₂ : Point ℝ) (reached₁ reached₂ : Bool),
      corner.pointAtLength budget 2 1 = some (point₁, reached₁) ∧
      corner.pointAtLength budget 9 1 = some (point₂, reached₂) ∧
      point₁.distance point₂ ≤ 7 := by
  obtain ⟨T, hqueries⟩ :=
    distance_pointAtLength_le corner moves_first_corner (zero_lt_one : (0 : ℝ) < 1)
  refine ⟨moves_first_corner, zero_lt_one, ?_⟩
  filter_upwards [hqueries, eventually_affords zero_lt_one corner] with budget hbudget hafford
  obtain ⟨hlength, hquery⟩ := hbudget
  have hT := ten_le_of_length_corner zero_lt_one hafford hlength
  obtain ⟨point₁, point₂, reached₁, reached₂, hpoint₁, hpoint₂, hle⟩ :=
    hquery 2 9 (by norm_num) (by norm_num) (by linarith)
  exact ⟨point₁, point₂, reached₁, reached₂, hpoint₁, hpoint₂, by linarith⟩

end Path

end ArcLength
