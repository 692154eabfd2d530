import Mathlib
import ArcLength.Proofs.Continuity
import ArcLength.Proofs.EndPoints

/-!
# Samples of a path

Over the reals the lengths at which a path is sampled divide its length evenly, and none of them
lies past its end. So every point that is asked for is reached, and a path drawn without a gap has
no two neighbouring samples further apart than one share of its length.
-/

namespace ArcLength

open Filter

theorem exists_mapM_of_forall {A B : Type} {f : A → Option B} {R : A → B → Prop} {as : List A}
    (h : ∀ a ∈ as, ∃ b, f a = some b ∧ R a b) :
    ∃ bs, as.mapM f = some bs ∧ List.Forall₂ R as bs := by
  induction as with
  | nil => exact ⟨[], rfl, .nil⟩
  | cons a rest ih =>
      obtain ⟨b, hb, hR⟩ := h a List.mem_cons_self
      obtain ⟨bs, hbs, hrest⟩ := ih fun c hc => h c (List.mem_cons_of_mem a hc)
      refine ⟨b :: bs, ?_, .cons hR hrest⟩
      rw [List.mapM_cons, hb, hbs]
      rfl

namespace Path

theorem evenly_eq_map {gaps : ℕ} (hgaps : 0 < gaps) (T : ℝ) :
    evenly T (gaps + 1) = (List.range (gaps + 1)).map fun i : ℕ => i * T / gaps := by
  obtain ⟨gaps, rfl⟩ : ∃ n, gaps = n + 1 := ⟨gaps - 1, by omega⟩
  have hne : ((gaps + 1 : ℕ) : ℝ) ≠ 0 := Nat.cast_ne_zero.mpr (Nat.succ_ne_zero gaps)
  have hlast : ((gaps + 1 : ℕ) : ℝ) * T / ((gaps + 1 : ℕ) : ℝ) = T := mul_div_cancel_left₀ T hne
  rw [evenly, List.range_succ (n := gaps + 1), List.map_append, List.map_singleton, hlast]
  · congr 1
    refine List.map_congr_left fun i _ => ?_
    split
    · ring
    · ring
  · exact Nat.succ_ne_zero gaps

theorem share_mem_Icc {T : ℝ} (hT : 0 ≤ T) {gaps i : ℕ} (hgaps : 0 < gaps) (hi : i ≤ gaps) :
    i * T / gaps ∈ Set.Icc 0 T := by
  have hpos : (0 : ℝ) < gaps := Nat.cast_pos.mpr hgaps
  refine ⟨by positivity, ?_⟩
  rw [div_le_iff₀ hpos, mul_comm]
  exact mul_le_mul_of_nonneg_left (Nat.cast_le.mpr hi) hT

theorem mem_Icc_of_mem_evenly {T target : ℝ} {gaps : ℕ} (hT : 0 ≤ T)
    (hmem : target ∈ evenly T (gaps + 1)) : target ∈ Set.Icc 0 T := by
  obtain rfl | hgaps := gaps.eq_zero_or_pos
  · rw [evenly, List.mem_singleton] at hmem
    rw [hmem, zero_mul, add_zero]
    exact ⟨le_rfl, hT⟩
  · rw [evenly_eq_map hgaps] at hmem
    obtain ⟨i, hi, rfl⟩ := List.mem_map.mp hmem
    exact share_mem_Icc hT hgaps (Nat.lt_succ_iff.mp (List.mem_range.mp hi))

theorem of_forall₂_evenly {A : Type} {R : ℝ → A → Prop} {T : ℝ} {gaps i : ℕ} {bs : List A} {b : A}
    (hgaps : 0 < gaps) (h : List.Forall₂ R (evenly T (gaps + 1)) bs) (hb : bs[i]? = some b) :
    R (i * T / gaps) b := by
  rw [evenly_eq_map hgaps, List.forall₂_iff_get] at h
  obtain ⟨hlength, hget⟩ := h
  obtain ⟨hi, rfl⟩ := List.getElem?_eq_some_iff.mp hb
  have hR := hget i (hlength ▸ hi) hi
  rwa [List.get_eq_getElem, List.getElem_map, List.getElem_range] at hR

section Holders

variable {p : Path ℝ} {reach : ℕ → ℝ} {d d' : ℝ} {i j k : ℕ}

theorem holders_anti (hle : d ≤ d') : p.holders reach d' ⊆ p.holders reach d := by
  rintro k ⟨e, he, hmove, hk⟩
  exact ⟨e, he, hmove, hle.trans hk⟩

theorem lt_size_of_mem_holders (h : k ∈ p.holders reach d) : k < p.size := by
  obtain ⟨e, he, -⟩ := h
  exact (List.getElem?_eq_some_iff.mp he).1

theorem exists_isLeast_holders (h : (p.holders reach d).Nonempty) :
    ∃ k, IsLeast (p.holders reach d) k :=
  ⟨_, Nat.sInf_mem h, fun _ hk => Nat.sInf_le hk⟩

/-- The index `i` is the first element that holds a length, or the last element if none does. -/
structure Indexes (p : Path ℝ) (reach : ℕ → ℝ) (d : ℝ) (i : ℕ) : Prop where
  of_isLeast : ∀ k, IsLeast (p.holders reach d) k → i = k
  of_empty : p.holders reach d = ∅ → i = p.size - 1

theorem Indexes.le (hi : p.Indexes reach d i) (hj : p.Indexes reach d' j) (hle : d ≤ d') :
    i ≤ j := by
  obtain hempty | hholds := (p.holders reach d).eq_empty_or_nonempty
  · -- a length that nothing holds is followed by such lengths only
    have hempty' : p.holders reach d' = ∅ := Set.subset_eq_empty (holders_anti hle) hempty
    rw [hi.of_empty hempty, hj.of_empty hempty']
  · obtain ⟨k, hk⟩ := exists_isLeast_holders hholds
    rw [hi.of_isLeast k hk]
    obtain hempty' | hholds' := (p.holders reach d').eq_empty_or_nonempty
    · rw [hj.of_empty hempty']
      have hlt := lt_size_of_mem_holders hk.1
      omega
    · obtain ⟨k', hk'⟩ := exists_isLeast_holders hholds'
      rw [hj.of_isLeast k' hk']
      exact hk.2 (holders_anti hle hk'.1)

end Holders

variable {budget : ℕ} {tolerance : ℝ} {p : Path ℝ}

theorem exists_sample (htolerance : 0 < tolerance) (hafford : p.Affords budget tolerance)
    (hne : p.isEmpty = false) {d : ℝ} (hd : d ∈ Set.Icc 0 (walked (p.itinerary tolerance))) :
    ∃ (point : Point ℝ) (index : ℕ), p.pointAtLength budget d tolerance = some (point, true) ∧
      p.segmentIndexAtLength budget d tolerance = some (index : ℤ) ∧
      p.Indexes (p.reach tolerance) d index := by
  obtain ⟨s, index, hwalk, hsuccess, hindex, hleast, hempty⟩ :=
    exists_walk_of_query .pointAtLength rfl htolerance hafford hne hd.1
  have hreached : s.success = true := hsuccess.mpr (by rw [reach_of_size_le le_rfl]; exact hd.2)
  refine ⟨s.current, index, ?_, ?_, hleast, hempty⟩
  · rw [pointAtLength_of_walk hd.1 hwalk, hreached]
  · rw [segmentIndexAtLength_of_walk hd.1 hwalk, hindex]

theorem walked_itinerary_of_moves (hbare : ∀ e ∈ p.elements, e.isMove = true) :
    walked (p.itinerary tolerance) = 0 := by
  rw [itinerary, Pen.itinerary_of_moves hbare, walked_nil]

/-- On a path with moves only at its front, points that are reached are no further apart than their
lengths. -/
theorem distance_le_of_pointAtLength (htolerance : 0 < tolerance)
    (hafford : p.Affords budget tolerance)
    (hmoves : ∀ e ∈ p.elements.dropWhile Element.isMove, e.isMove = false) {d d' : ℝ} (hd : 0 ≤ d)
    (hle : d ≤ d') (hd' : d' ≤ walked (p.itinerary tolerance)) {a b : Point ℝ}
    {reached reached' : Bool}
    (ha : p.pointAtLength budget d tolerance = some (a, reached))
    (hb : p.pointAtLength budget d' tolerance = some (b, reached')) : a.distance b ≤ d' - d := by
  have hquery : Goal.pointAtLength.isLengthQuery = true := rfl
  by_cases hdrawn : ∃ e ∈ p.elements, e.isMove = false
  · obtain ⟨_, _, hconnects⟩ := Pen.connects_itinerary_of_moves_first htolerance hmoves
    obtain ⟨stop, hwalk⟩ := exists_stop hquery htolerance hafford hdrawn hd (hle.trans hd')
    obtain ⟨stop', hwalk'⟩ := exists_stop hquery htolerance hafford hdrawn (hd.trans hle) hd'
    rw [pointAtLength_of_walk hd hwalk] at ha
    rw [pointAtLength_of_walk (hd.trans hle) hwalk'] at hb
    obtain ⟨rfl, -⟩ := Prod.mk.inj (Option.some.inj ha)
    obtain ⟨rfl, -⟩ := Prod.mk.inj (Option.some.inj hb)
    exact distance_resolve_le hconnects hle stop stop'
  · -- bare moves have no length, so both lengths are zero and the points are one
    have hbare : ∀ e ∈ p.elements, e.isMove = true := by
      intro e he
      by_contra hmove
      exact hdrawn ⟨e, he, by simpa using hmove⟩
    rw [walked_itinerary_of_moves hbare] at hd'
    obtain rfl : d = d' := by linarith
    obtain ⟨rfl, -⟩ := Prod.mk.inj (Option.some.inj (ha.symm.trans hb))
    rw [Point.distance_self, sub_self]

/-- The points are samples of a path of length `T` at evenly spaced lengths, so many of them. -/
structure SampledBy (budget : ℕ) (p : Path ℝ) (tolerance T : ℝ) (count : ℤ)
    (points : List (Point ℝ)) : Prop where
  length_eq : (points.length : ℤ) = count
  reached : List.Forall₂
    (fun target point => p.pointAtLength budget target tolerance = some (point, true))
    (evenly T count.toNat) points
  spaced : 2 ≤ count → ∀ (i : ℕ) (point : Point ℝ), points[i]? = some point →
    p.pointAtLength budget (i * T / (count - 1)) tolerance = some (point, true)
  ordered : 2 ≤ count → ∃ index : ℕ → ℕ,
    (∀ i : ℕ, i < count →
      p.segmentIndexAtLength budget (i * T / (count - 1)) tolerance = some (index i : ℤ)) ∧
    ∀ i j : ℕ, i ≤ j → j < count → index i ≤ index j
  close : 2 ≤ count → (∀ e ∈ p.elements.dropWhile Element.isMove, e.isMove = false) →
    ∀ (i : ℕ) (a b : Point ℝ), points[i]? = some a → points[i + 1]? = some b →
      a.distance b ≤ T / (count - 1)

theorem exists_samplePoints (htolerance : 0 < tolerance) (hafford : p.Affords budget tolerance)
    (hne : p.isEmpty = false) (gaps : ℕ) : ∃ points : List (Point ℝ),
      p.samplePoints budget (gaps + 1) tolerance = some points ∧
        List.Forall₂
          (fun target point => p.pointAtLength budget target tolerance = some (point, true))
          (evenly (walked (p.itinerary tolerance)) (gaps + 1)) points := by
  have hreached : ∀ target ∈ evenly (walked (p.itinerary tolerance)) (gaps + 1), ∃ point,
      ((p.pointAtLength budget target tolerance).bind fun r => some r.1) = some point ∧
        p.pointAtLength budget target tolerance = some (point, true) := by
    intro target hmem
    obtain ⟨point, -, hpoint, -⟩ :=
      exists_sample htolerance hafford hne (mem_Icc_of_mem_evenly (walked_nonneg _) hmem)
    exact ⟨point, by rw [hpoint]; rfl, hpoint⟩
  obtain ⟨points, hpoints, hall⟩ := exists_mapM_of_forall hreached
  refine ⟨points, ?_, hall⟩
  have hguard : ¬ (decide ((gaps + 1 : ℤ) ≤ 0) || p.isEmpty) = true := by
    rw [hne, Bool.or_false, decide_eq_true_iff]
    omega
  rw [samplePoints_eq, if_neg hguard, length_eq hafford]
  exact hpoints

theorem exists_indices (htolerance : 0 < tolerance) (hafford : p.Affords budget tolerance)
    (hne : p.isEmpty = false) {gaps : ℕ} (hgaps : 0 < gaps) :
    ∃ index : ℕ → ℕ,
      (∀ i ≤ gaps, p.segmentIndexAtLength budget
        (i * walked (p.itinerary tolerance) / gaps) tolerance = some (index i : ℤ)) ∧
      ∀ i j, i ≤ j → j ≤ gaps → index i ≤ index j := by
  have hshare : ∀ i ≤ gaps, ∃ index : ℕ,
      p.segmentIndexAtLength budget (i * walked (p.itinerary tolerance) / gaps) tolerance =
        some (index : ℤ) ∧
      p.Indexes (p.reach tolerance) (i * walked (p.itinerary tolerance) / gaps) index := by
    intro i hi
    obtain ⟨-, index, -, hindex, hindexes⟩ :=
      exists_sample htolerance hafford hne (share_mem_Icc (walked_nonneg _) hgaps hi)
    exact ⟨index, hindex, hindexes⟩
  choose! index hindex hindexes using hshare
  refine ⟨index, hindex, fun i j hij hj => ?_⟩
  refine (hindexes i (hij.trans hj)).le (hindexes j hj) ?_
  have hwalked := walked_nonneg (p.itinerary tolerance)
  gcongr

theorem distance_le_of_next (htolerance : 0 < tolerance) (hafford : p.Affords budget tolerance)
    (hmoves : ∀ e ∈ p.elements.dropWhile Element.isMove, e.isMove = false) {gaps i : ℕ}
    (hgaps : 0 < gaps) (hi : i + 1 ≤ gaps) {a b : Point ℝ}
    (ha : p.pointAtLength budget (i * walked (p.itinerary tolerance) / gaps) tolerance =
      some (a, true))
    (hb : p.pointAtLength budget ((i + 1 : ℕ) * walked (p.itinerary tolerance) / gaps) tolerance =
      some (b, true)) : a.distance b ≤ walked (p.itinerary tolerance) / gaps := by
  have hwalked := walked_nonneg (p.itinerary tolerance)
  have hfirst := share_mem_Icc hwalked hgaps (Nat.le_of_succ_le hi)
  have hsecond := share_mem_Icc hwalked hgaps hi
  have hle : (i : ℝ) * walked (p.itinerary tolerance) / gaps ≤
      ((i + 1 : ℕ) : ℝ) * walked (p.itinerary tolerance) / gaps := by
    gcongr
    exact Nat.le_succ i
  refine (distance_le_of_pointAtLength htolerance hafford hmoves hfirst.1 hle hsecond.2 ha
    hb).trans_eq ?_
  push_cast
  ring

theorem sampledBy_of_forall₂ (htolerance : 0 < tolerance) (hafford : p.Affords budget tolerance)
    (hne : p.isEmpty = false) {gaps : ℕ} {points : List (Point ℝ)}
    (hall : List.Forall₂
      (fun target point => p.pointAtLength budget target tolerance = some (point, true))
      (evenly (walked (p.itinerary tolerance)) (gaps + 1)) points) :
    p.SampledBy budget tolerance (walked (p.itinerary tolerance)) (gaps + 1) points := by
  have hgap : (((gaps : ℤ) + 1 : ℤ) : ℝ) - 1 = gaps := by push_cast; ring
  have hlength : points.length = gaps + 1 := by
    rw [← hall.length_eq]
    obtain rfl | hgaps := gaps.eq_zero_or_pos
    · rfl
    · rw [evenly_eq_map hgaps, List.length_map, List.length_range]
  refine ⟨by rw [hlength]; rfl, hall, fun htwo i point hpoint => ?_, fun htwo => ?_,
    fun htwo hmoves i a b ha hb => ?_⟩
  · rw [hgap]
    exact of_forall₂_evenly (by omega) hall hpoint
  · obtain ⟨index, hindex, hmono⟩ := exists_indices htolerance hafford hne (by omega : 0 < gaps)
    refine ⟨index, fun i hi => ?_, fun i j hij hj => hmono i j hij (by omega)⟩
    rw [hgap]
    exact hindex i (by omega)
  · have hi := (List.getElem?_eq_some_iff.mp hb).1
    rw [hgap]
    exact distance_le_of_next htolerance hafford hmoves (by omega) (by omega)
      (of_forall₂_evenly (by omega) hall ha) (of_forall₂_evenly (by omega) hall hb)

/-- **Samples cover a path evenly.** Within every large budget there are no samples if none are asked
for or the path is empty. Else there are as many as are asked for, and each is reached. From two
on, they divide the length of the path into equal shares. Their elements come in order, and on a
path with moves only at its front neighbours are no further apart than one share. -/
theorem samplePoints_cover_evenly (p : Path ℝ) {tolerance : ℝ} (htolerance : 0 < tolerance) :
    ∃ T : ℝ, ∀ᶠ budget in atTop, p.length budget tolerance = some T ∧ ∀ count : ℤ,
      (count ≤ 0 ∨ p.isEmpty = true → p.samplePoints budget count tolerance = some []) ∧
      (0 < count → p.isEmpty = false → ∃ points : List (Point ℝ),
        p.samplePoints budget count tolerance = some points ∧
          p.SampledBy budget tolerance T count points) := by
  refine ⟨walked (p.itinerary tolerance), ?_⟩
  filter_upwards [eventually_affords htolerance p] with budget hafford
  refine ⟨length_eq hafford, fun count => ⟨fun hnone => ?_, fun hpos hne => ?_⟩⟩
  · have hguard : (decide (count ≤ 0) || p.isEmpty) = true := by simpa using hnone
    rw [samplePoints_eq, if_pos hguard]
  · obtain ⟨gaps, rfl⟩ : ∃ gaps : ℕ, count = gaps + 1 := ⟨(count - 1).toNat, by omega⟩
    obtain ⟨points, hpoints, hall⟩ := exists_samplePoints htolerance hafford hne gaps
    exact ⟨points, hpoints, sampledBy_of_forall₂ htolerance hafford hne hall⟩

/-- Three samples of a corner, the second of them half way. -/
theorem samplePoints_cover_evenly_corner :
    (0 : ℝ) < 1 ∧ ∃ T : ℝ, 10 ≤ T ∧ ∀ᶠ budget in atTop, corner.length budget 1 = some T ∧
      ∃ points : List (Point ℝ), corner.samplePoints budget 3 1 = some points ∧
        (points.length : ℤ) = 3 ∧
        ∀ a b, points[0]? = some a → points[1]? = some b →
          corner.pointAtLength budget (T / 2) 1 = some (b, true) ∧ a.distance b ≤ T / 2 := by
  obtain ⟨T, hsamples⟩ := samplePoints_cover_evenly corner (zero_lt_one : (0 : ℝ) < 1)
  refine ⟨zero_lt_one, walked (corner.itinerary 1), ten_le_walked_corner zero_lt_one, ?_⟩
  filter_upwards [hsamples, eventually_affords zero_lt_one corner] with budget hbudget hafford
  obtain ⟨hlength, hcounts⟩ := hbudget
  obtain rfl := Option.some.inj ((length_eq hafford).symm.trans hlength)
  obtain ⟨points, hpoints, hsampled⟩ := (hcounts 3).2 (by decide) rfl
  refine ⟨hlength, points, hpoints, hsampled.length_eq, fun a b ha hb => ⟨?_, ?_⟩⟩
  · have hspaced := hsampled.spaced (by decide) 1 b hb
    norm_num at hspaced
    exact hspaced
  · have hclose := hsampled.close (by decide) moves_first_corner 0 a b ha hb
    norm_num at hclose
    exact hclose

end Path

end ArcLength
