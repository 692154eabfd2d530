import Mathlib
import ArcLength.Proofs.Crossing
import ArcLength.Proofs.Itinerary

/-!
# Where a query stops

In the exact plane the length walk counts the itinerary of a path, and a query stops on the leg of
the itinerary that the desired length falls on. A budget that suffices to draw the curves of the
path is enough for both, and every large budget suffices.
-/

namespace ArcLength

open Filter

namespace Pen

variable {budget : ℕ} {tolerance : ℝ} {pen : Pen}

/-- The budget suffices to draw an element from the pen. -/
def Affords (budget : ℕ) (tolerance : ℝ) (pen : Pen) : Element ℝ → Prop
  | .quadTo c p => Curve.MeasuredAs budget tolerance (QuadraticCurve.mk pen.position c p)
      (Curve.pieces tolerance (QuadraticCurve.mk pen.position c p))
  | .cubicTo c₁ c₂ p => Curve.MeasuredAs budget tolerance (CubicCurve.mk pen.position c₁ c₂ p)
      (Curve.pieces tolerance (CubicCurve.mk pen.position c₁ c₂ p))
  | _ => True

def AffordsAll (budget : ℕ) (tolerance : ℝ) : Pen → List (Element ℝ) → Prop
  | _, [] => True
  | pen, e :: rest =>
      pen.Affords budget tolerance e ∧ (pen.after e).AffordsAll budget tolerance rest

theorem eventually_affords (htolerance : 0 < tolerance) (pen : Pen) (e : Element ℝ) :
    ∀ᶠ budget in atTop, pen.Affords budget tolerance e := by
  cases e with
  | quadTo c p => exact Curve.eventually_measuredAs htolerance _
  | cubicTo c₁ c₂ p => exact Curve.eventually_measuredAs htolerance _
  | moveTo p => exact Eventually.of_forall fun _ => trivial
  | lineTo p => exact Eventually.of_forall fun _ => trivial
  | close => exact Eventually.of_forall fun _ => trivial

theorem eventually_affordsAll (htolerance : 0 < tolerance) (pen : Pen) (es : List (Element ℝ)) :
    ∀ᶠ budget in atTop, pen.AffordsAll budget tolerance es := by
  induction es generalizing pen with
  | nil => exact Eventually.of_forall fun _ => trivial
  | cons e rest ih => exact (eventually_affords htolerance pen e).and (ih (pen.after e))

theorem AffordsAll.take {es : List (Element ℝ)} (h : pen.AffordsAll budget tolerance es)
    (k : ℕ) : pen.AffordsAll budget tolerance (es.take k) := by
  induction es generalizing pen k with
  | nil => simp [AffordsAll]
  | cons e rest ih =>
      cases k with
      | zero => trivial
      | succ k => exact ⟨h.1, ih h.2 k⟩

end Pen

namespace Curve

variable {κ : Type} [Curve κ ℝ] [Planar κ] {budget : ℕ} {tolerance : ℝ} {c : κ} {ps : List κ}

theorem MeasuredAs.exists_measure_never (h : MeasuredAs budget tolerance c ps) :
    ∃ last, measure budget tolerance never c = some ⟨walked (ps.map Leg.ofPiece), last⟩ := by
  obtain ⟨last, hmeasure⟩ := h.exists_measure_total
  rw [total_eq_walked, zero_add] at hmeasure
  exact ⟨last, hmeasure⟩

/-- A query that is short of the desired length before a curve is measured on it up to the piece
that the desired length falls on, or up to the last. -/
theorem MeasuredAs.exists_measure_query (h : MeasuredAs budget tolerance c ps) {s : State ℝ}
    (hquery : s.isLengthQuery = true) (hle : s.totalLength ≤ s.desiredLength) :
    ∃ before last after, ps = before ++ last :: after ∧
      measure budget tolerance s.passes c =
        some ⟨walked (before.map Leg.ofPiece) + polygonLength last, last⟩ ∧
      s.totalLength + walked (before.map Leg.ofPiece) ≤ s.desiredLength ∧
      (s.desiredLength <
        s.totalLength + (walked (before.map Leg.ofPiece) + polygonLength last) ∨ after = []) := by
  have hpasses (length : ℝ) :
      s.passes length = decide (s.desiredLength < s.totalLength + length) := by
    simp [State.passes, hquery]
  have hlast (before : List κ) (last : κ) : total 0 (before ++ [last]) =
      walked (before.map Leg.ofPiece) + polygonLength last := by
    rw [total_eq_walked, zero_add, List.map_append, walked_append]
    simp [Leg.ofPiece]
  obtain ⟨before, last, after, hends, hmeasure⟩ := h s.passes
  refine ⟨before, last, after, hends.pieces_eq, ?_, ?_, ?_⟩
  · rw [hmeasure, hlast]
  · cases hlength : before.length with
    | zero => simpa [List.length_eq_zero_iff.mp hlength] using hle
    | succ k =>
        have hnot := hends.not_enough k (by omega)
        rw [← hlength, List.take_length, total_eq_walked, zero_add, hpasses] at hnot
        simpa using hnot
  · have hover := hends.enough_or_over
    rw [hlast, hpasses] at hover
    simpa using hover

end Curve

namespace State

variable {budget index : ℕ} {s : State ℝ} {e : Element ℝ} {es : List (Element ℝ)}

theorem exists_enter_of_totalLength (index : ℕ) (hgoal : s.goal = .totalLength)
    (hafford : s.pen.Affords budget s.tolerance e) :
    ∃ t, s.enter budget index e = some t ∧
      t.totalLength = s.totalLength + walked (s.pen.legs s.tolerance e) ∧
      t.pen = s.pen.after e := by
  have hquery : s.isLengthQuery = false := by
    rw [isLengthQuery, hgoal]
    rfl
  have hpoised : (s.poised index).isLengthQuery = false := hquery
  cases e with
  | moveTo p => exact ⟨_, rfl, by simp [Pen.legs], rfl⟩
  | lineTo p => exact ⟨_, rfl, by simp [Pen.legs, Leg.straight, pen], rfl⟩
  | quadTo c p =>
      obtain ⟨last, hmeasure⟩ := hafford.exists_measure_never
      rw [← passes_of_not_isLengthQuery hquery] at hmeasure
      refine ⟨_, enter_quadTo hmeasure, rfl, Pen.ext ?_ rfl⟩
      rw [pen, count_current, land_current_of_not_query hpoised]
      rfl
  | cubicTo c₁ c₂ p =>
      obtain ⟨last, hmeasure⟩ := hafford.exists_measure_never
      rw [← passes_of_not_isLengthQuery hquery] at hmeasure
      refine ⟨_, enter_cubicTo hmeasure, rfl, Pen.ext ?_ rfl⟩
      rw [pen, count_current, land_current_of_not_query hpoised]
      rfl
  | close => exact ⟨_, rfl, by simp [Pen.legs, Leg.straight, pen], rfl⟩

/-- A query that has drawn an element rests on one of its legs. Before the leg it is short of the
desired length; if it has not passed the desired length there, the leg is the last. -/
structure RestsOn (s t : State ℝ) (legs before : List Leg) (leg : Leg) (after : List Leg) :
    Prop where
  legs_eq : legs = before ++ leg :: after
  previous_eq : t.previous = leg.start
  current_eq : t.current = leg.finish
  totalLength_eq : t.totalLength = s.totalLength + walked before + leg.length
  before_le : s.totalLength + walked before ≤ s.desiredLength
  passed_or_over : s.desiredLength < t.totalLength ∨ after = []

theorem restsOn_straight (hle : s.totalLength ≤ s.desiredLength) {t : State ℝ}
    (hprevious : t.previous = s.current)
    (htotal : t.totalLength = s.totalLength + s.current.distance t.current) :
    s.RestsOn t [.straight s.current t.current] [] (.straight s.current t.current) [] where
  legs_eq := rfl
  previous_eq := hprevious
  current_eq := rfl
  totalLength_eq := by
    rw [htotal, walked_nil, add_zero]
    rfl
  before_le := by rwa [walked_nil, add_zero]
  passed_or_over := Or.inr rfl

theorem exists_restsOn_of_measuredAs {κ : Type} [Curve κ ℝ] [Curve.Planar κ] {c : κ} {ps : List κ}
    (h : Curve.MeasuredAs budget s.tolerance c ps) (hquery : s.isLengthQuery = true)
    (hle : s.totalLength ≤ s.desiredLength) (index : ℕ) (e : Element ℝ)
    (control1 control2 finish : Point ℝ) :
    ∃ m before leg after, Curve.measure budget s.tolerance s.passes c = some m ∧
      s.crossingOn e m = ⟨e, leg.start, leg.finish, s.totalLength + walked before⟩ ∧
      s.RestsOn (((s.poised index).land m.last control1 control2 finish).count m.length)
        (ps.map Leg.ofPiece) before leg after := by
  have hpoised : (s.poised index).isLengthQuery = true := hquery
  obtain ⟨before, last, after, hpieces, hmeasure, hbefore, hover⟩ :=
    h.exists_measure_query hquery hle
  refine ⟨_, before.map Leg.ofPiece, .ofPiece last, after.map Leg.ofPiece, hmeasure, ?_, ?_, ?_,
    ?_, ?_, hbefore, hover.imp id (congrArg _)⟩
  · rw [crossingOn, add_sub_cancel_right]
    rfl
  · rw [hpieces, List.map_append, List.map_cons]
  · rw [count_previous, land_previous_of_query hpoised]
    rfl
  · rw [count_current, land_current_of_query hpoised]
    rfl
  · exact (add_assoc _ _ _).symm

theorem exists_enter_of_query (index : ℕ) (hquery : s.isLengthQuery = true)
    (hle : s.totalLength ≤ s.desiredLength) (hafford : s.pen.Affords budget s.tolerance e)
    (hmove : e.isMove = false) :
    ∃ t before leg after, s.enter budget index e = some t ∧
      s.crossing budget e = some ⟨e, leg.start, leg.finish, s.totalLength + walked before⟩ ∧
      t.subpathStart = s.subpathStart ∧
      s.RestsOn t (s.pen.legs s.tolerance e) before leg after := by
  have hstart : s.totalLength = s.totalLength + walked [] := by rw [walked_nil, add_zero]
  cases e with
  | moveTo p => simp [Element.isMove] at hmove
  | lineTo p =>
      refine ⟨_, _, _, _, rfl, ?_, rfl, restsOn_straight hle rfl rfl⟩
      rw [← hstart]
      rfl
  | quadTo c p =>
      obtain ⟨m, before, leg, after, hmeasure, hcrossing, hrests⟩ :=
        exists_restsOn_of_measuredAs hafford hquery hle index (.quadTo c p) c p p
      exact ⟨_, before, leg, after, enter_quadTo hmeasure,
        (crossing_quadTo hmeasure).trans (congrArg some hcrossing), rfl, hrests⟩
  | cubicTo c₁ c₂ p =>
      obtain ⟨m, before, leg, after, hmeasure, hcrossing, hrests⟩ :=
        exists_restsOn_of_measuredAs hafford hquery hle index (.cubicTo c₁ c₂ p) p c₂ p
      exact ⟨_, before, leg, after, enter_cubicTo hmeasure,
        (crossing_cubicTo hmeasure).trans (congrArg some hcrossing), rfl, hrests⟩
  | close =>
      refine ⟨_, _, _, _, rfl, ?_, rfl, restsOn_straight hle rfl rfl⟩
      rw [← hstart]
      rfl

/-- A query that has walked a whole element without an answer. Moves aside, it is short of the
desired length. -/
structure Covers (budget index : ℕ) (s : State ℝ) (e : Element ℝ) (t : State ℝ) : Prop where
  advance_eq : s.advance budget index e = some (.walking t)
  totalLength_eq : t.totalLength = s.totalLength + walked (s.pen.legs s.tolerance e)
  pen_eq : t.pen = s.pen.after e
  totalLength_le : t.totalLength ≤ s.desiredLength
  short : e.isMove = false → t.totalLength < s.desiredLength

/-- A query that can be answered rests on a leg whose end is at or past the desired length. Else it
covers the element. -/
theorem advance_of_query (index : ℕ) (htolerance : 0 < s.tolerance)
    (hquery : s.isLengthQuery = true) (hle : s.totalLength ≤ s.desiredLength)
    (hafford : s.pen.Affords budget s.tolerance e) :
    (e.isMove = false ∧ ∃ t before leg after, s.enter budget index e = some t ∧
      s.crossing budget e = some ⟨e, leg.start, leg.finish, s.totalLength + walked before⟩ ∧
      s.RestsOn t (s.pen.legs s.tolerance e) before leg after ∧
      s.desiredLength ≤ t.totalLength ∧ s.advance budget index e = some (.answered t.resolve)) ∨
    ∃ t, Covers budget index s e t := by
  -- a move never answers, even where the desired length is already walked
  cases hmove : e.isMove with
  | true =>
      obtain ⟨p, rfl⟩ : ∃ p, e = .moveTo p := by
        cases e with
        | moveTo p => exact ⟨p, rfl⟩
        | _ => simp [Element.isMove] at hmove
      refine Or.inr ⟨_, rfl, ?_, rfl, ?_, by simp [Element.isMove]⟩
      · simp [Pen.legs]
      · simpa using hle
  | false =>
      obtain ⟨t, before, leg, after, henter, hcrosses, hsubpath, hrests⟩ :=
        exists_enter_of_query index hquery hle hafford hmove
      have hreached : t.reached = decide (s.desiredLength ≤ t.totalLength) := by
        rw [enter_frame henter, reached]
        exact (congrArg (· && _) hquery).trans (Bool.true_and _)
      by_cases hanswer : s.desiredLength ≤ t.totalLength
      · refine Or.inl ⟨rfl, t, before, leg, after, henter, hcrosses, hrests, hanswer, ?_⟩
        rw [State.advance_eq, henter]
        simp [hmove, hreached, hanswer]
      · -- the curve was not cut, so the leg is its last and ends where the element does
        obtain rfl : after = [] :=
          hrests.passed_or_over.resolve_left fun hpassed => hanswer (le_of_lt hpassed)
        refine Or.inr ⟨t, ?_, ?_, ?_, le_of_lt (not_le.mp hanswer), fun _ => not_le.mp hanswer⟩
        · rw [State.advance_eq, henter]
          simp [hmove, hreached, hanswer]
        · rw [hrests.totalLength_eq, hrests.legs_eq, walked_append, walked_cons, walked_nil]
          ring
        · have hconnects : Connects s.pen.position (s.pen.legs s.tolerance e)
              (s.pen.after e).position := Pen.connects_legs htolerance hmove
          have hstart : (s.pen.after e).subpathStart = s.pen.subpathStart :=
            Pen.subpathStart_after hmove
          rw [hrests.legs_eq] at hconnects
          refine Pen.ext ?_ ?_
          · exact hrests.current_eq.trans (finish_of_connects hconnects)
          · exact hsubpath.trans hstart.symm

namespace Covers

variable {t : State ℝ} (h : Covers budget index s e t)

include h

theorem frame : t = { s with
    totalLength := t.totalLength, segmentIndex := index,
    current := t.current, previous := t.previous, subpathStart := t.subpathStart,
    lastControl1 := t.lastControl1, lastControl2 := t.lastControl2 } :=
  enter_frame (enter_of_advance h.advance_eq)

theorem tolerance_eq : t.tolerance = s.tolerance := by rw [h.frame]

theorem desiredLength_eq : t.desiredLength = s.desiredLength := by rw [h.frame]

theorem isLengthQuery_eq : t.isLengthQuery = s.isLengthQuery := by
  rw [h.frame]
  rfl

theorem walked_itinerary (rest : List (Element ℝ)) :
    t.totalLength + walked (t.pen.itinerary t.tolerance rest) =
      s.totalLength + walked (s.pen.itinerary s.tolerance (e :: rest)) := by
  rw [h.totalLength_eq, h.pen_eq, h.tolerance_eq, Pen.itinerary, walked_append, add_assoc]

end Covers

/-- A query is short of the desired length behind each of a list of elements, moves aside. -/
def ShortOf (s : State ℝ) (es : List (Element ℝ)) : Prop :=
  ∀ k e, es[k]? = some e → e.isMove = false →
    s.totalLength + walked (s.pen.itinerary s.tolerance (es.take (k + 1))) < s.desiredLength

theorem Covers.shortOf_cons {t : State ℝ} {rest : List (Element ℝ)} (h : Covers budget index s e t)
    (hrest : t.ShortOf rest) : s.ShortOf (e :: rest) := by
  intro k f hf hmove
  rw [List.take_succ_cons, ← h.walked_itinerary]
  cases k with
  | zero =>
      obtain rfl : e = f := by simpa using hf
      simpa [Pen.itinerary] using h.short hmove
  | succ k =>
      rw [← h.desiredLength_eq]
      exact hrest k f (by simpa using hf) hmove

theorem exists_advanceAll_of_totalLength (index : ℕ) (hgoal : s.goal = .totalLength)
    (hafford : s.pen.AffordsAll budget s.tolerance es) :
    ∃ t, s.advanceAll budget index es = some (.walking t) ∧
      t.totalLength = s.totalLength + walked (s.pen.itinerary s.tolerance es) := by
  induction es generalizing s index with
  | nil => exact ⟨s, rfl, by simp [Pen.itinerary]⟩
  | cons e rest ih =>
      obtain ⟨s₁, henter, htotal, hpen⟩ := exists_enter_of_totalLength index hgoal hafford.1
      have htolerance : s₁.tolerance = s.tolerance := by rw [enter_frame henter]
      have hgoal₁ : s₁.goal = .totalLength := by rw [enter_frame henter]; exact hgoal
      obtain ⟨t, hrun, hrest⟩ := ih (index + 1) hgoal₁ (by
        rw [hpen, htolerance]
        exact hafford.2)
      refine ⟨t, ?_, ?_⟩
      · rw [advanceAll_cons, advance_of_totalLength hgoal, henter]
        exact hrun
      · rw [hrest, htotal, hpen, htolerance, Pen.itinerary, walked_append, add_assoc]

end State

/-- Where a query from a state is answered in a list of elements: behind the elements `drawn`, on a
leg of `element`. It sets out on that element in the state `start`, and its answer is read off the
state `state`. -/
structure Stop (budget index : ℕ) (s : State ℝ) (es : List (Element ℝ)) where
  drawn : List (Element ℝ)
  element : Element ℝ
  rest : List (Element ℝ)
  start : State ℝ
  state : State ℝ
  before : List Leg
  leg : Leg
  after : List Leg
  elements_eq : es = drawn ++ element :: rest
  walks : s.advanceAll budget index drawn = some (.walking start)
  enters : start.enter budget (index + drawn.length) element = some state
  answers : start.advance budget (index + drawn.length) element = some (.answered state.resolve)
  crosses : start.crossing budget element =
    some ⟨element, leg.start, leg.finish, start.totalLength + walked before⟩
  no_move : element.isMove = false
  totalLength_eq : start.totalLength = s.totalLength + walked (s.pen.itinerary s.tolerance drawn)
  pen_eq : start.pen = drawn.foldl Pen.after s.pen
  rests : start.RestsOn state (start.pen.legs s.tolerance element) before leg after
  reached : s.desiredLength ≤ state.totalLength
  shortOf_drawn : s.ShortOf drawn

namespace Stop

variable {budget index : ℕ} {s t : State ℝ} {e : Element ℝ} {rest : List (Element ℝ)}

def here {before after : List Leg} {leg : Leg}
    (henter : s.enter budget index e = some t)
    (hadvance : s.advance budget index e = some (.answered t.resolve))
    (hcrosses : s.crossing budget e =
      some ⟨e, leg.start, leg.finish, s.totalLength + walked before⟩)
    (hmove : e.isMove = false)
    (hrests : s.RestsOn t (s.pen.legs s.tolerance e) before leg after)
    (hreached : s.desiredLength ≤ t.totalLength) : Stop budget index s (e :: rest) where
  drawn := []
  element := e
  rest := rest
  start := s
  state := t
  before := before
  leg := leg
  after := after
  elements_eq := rfl
  walks := rfl
  enters := henter
  answers := hadvance
  crosses := hcrosses
  no_move := hmove
  totalLength_eq := by simp [Pen.itinerary]
  pen_eq := rfl
  rests := hrests
  reached := hreached
  shortOf_drawn := by simp [State.ShortOf]

def later (stop : Stop budget (index + 1) t rest) (h : State.Covers budget index s e t) :
    Stop budget index s (e :: rest) :=
  have hindex : index + (e :: stop.drawn).length = index + 1 + stop.drawn.length := by
    rw [List.length_cons]
    omega
  { drawn := e :: stop.drawn
    element := stop.element
    rest := stop.rest
    start := stop.start
    state := stop.state
    before := stop.before
    leg := stop.leg
    after := stop.after
    elements_eq := congrArg (e :: ·) stop.elements_eq
    walks := by
      rw [State.advanceAll_cons, h.advance_eq]
      exact stop.walks
    enters := by
      rw [hindex]
      exact stop.enters
    answers := by
      rw [hindex]
      exact stop.answers
    crosses := stop.crosses
    no_move := stop.no_move
    totalLength_eq := stop.totalLength_eq.trans (h.walked_itinerary _)
    pen_eq := by rw [stop.pen_eq, h.pen_eq, List.foldl_cons]
    rests := h.tolerance_eq ▸ stop.rests
    reached := h.desiredLength_eq ▸ stop.reached
    shortOf_drawn := h.shortOf_cons stop.shortOf_drawn }

end Stop

/-- **A query stops on the itinerary.** A query that is not past the desired length when it sets out
is answered at a stop, or it covers all elements. -/
theorem State.advanceAll_of_query {budget : ℕ} {es : List (Element ℝ)} (index : ℕ) {s : State ℝ}
    (htolerance : 0 < s.tolerance) (hquery : s.isLengthQuery = true)
    (hle : s.totalLength ≤ s.desiredLength)
    (hafford : s.pen.AffordsAll budget s.tolerance es) :
    (∃ stop : Stop budget index s es,
      s.advanceAll budget index es = some (.answered stop.state.resolve)) ∨
    ∃ t, s.advanceAll budget index es = some (.walking t) ∧
      t.totalLength = s.totalLength + walked (s.pen.itinerary s.tolerance es) ∧ s.ShortOf es := by
  induction es generalizing s index with
  | nil => exact Or.inr ⟨s, rfl, by simp [Pen.itinerary], by simp [ShortOf]⟩
  | cons e rest ih =>
      obtain ⟨hmove, t, before, leg, after, henter, hcrosses, hrests, hreached, hadvance⟩ |
        ⟨s₁, hcovers⟩ := advance_of_query index htolerance hquery hle hafford.1
      · refine Or.inl ⟨Stop.here henter hadvance hcrosses hmove hrests hreached, ?_⟩
        rw [advanceAll_cons, hadvance]
        rfl
      · obtain ⟨stop, hrun⟩ | ⟨t, hrun, hend, hshort⟩ := ih (index + 1)
          (hcovers.tolerance_eq ▸ htolerance) (hcovers.isLengthQuery_eq.trans hquery)
          (hcovers.desiredLength_eq ▸ hcovers.totalLength_le)
          (by rw [hcovers.pen_eq, hcovers.tolerance_eq]; exact hafford.2)
        · refine Or.inl ⟨stop.later hcovers, ?_⟩
          rw [advanceAll_cons, hcovers.advance_eq]
          exact hrun
        · refine Or.inr ⟨t, ?_, hend.trans (hcovers.walked_itinerary rest),
            hcovers.shortOf_cons hshort⟩
          rw [advanceAll_cons, hcovers.advance_eq]
          exact hrun

end ArcLength
