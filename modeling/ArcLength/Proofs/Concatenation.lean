import Mathlib
import ArcLength.Proofs.Carrying
import ArcLength.Proofs.Comparison
import ArcLength.Proofs.Plane

/-!
# Walks along joined paths

A walk carries nothing outside its state. So a walk along two paths in a row is a walk along the
first and then, from the state that it leaves, along the second, unless the first has answered the
query already. Only the index of the element walked last counts on from the first path.
-/

namespace ArcLength

variable {α : Type} [Scalar α]

/-- Adding zero changes no comparison. -/
class Scalar.AddZeroLawful (α : Type) [Scalar α] : Prop where
  le_add_zero_iff : ∀ a d : α, d ≤ a + 0 ↔ d ≤ a

instance : Scalar.AddZeroLawful ℝ where
  le_add_zero_iff a _ := by rw [add_zero]

instance : Scalar.AddZeroLawful Float where
  le_add_zero_iff a d :=
    (Binary64.Alike.refl d).le_iff (Binary64.alike_add_of_isZero_right Binary64.isZero_zero a)

namespace State

/-- The state as it is where `n` more elements stand before those walked. -/
def reindexed (s : State α) (n : Nat) : State α := { s with segmentIndex := s.segmentIndex + n }

omit [Scalar α] in
theorem poised_add (s : State α) (index n : Nat) :
    s.poised (index + n) = (s.poised index).reindexed n := by
  simp [poised, reindexed]

theorem resolve_reindexed (s : State α) (n : Nat) :
    (s.reindexed n).resolve = s.resolve.reindexed n := by
  cases hgoal : s.goal <;> simp [resolve, reindexed, hgoal, pullBack, slope]

variable {budget index : Nat} {s t : State α} {e : Element α} {es fs : List (Element α)}

theorem drawCurve_reindexed {κ : Type} [Curve κ α] (s : State α) (n budget : Nat) (c : κ)
    (control1 control2 finish : Point α) :
    (s.reindexed n).drawCurve budget c control1 control2 finish =
      (s.drawCurve budget c control1 control2 finish).map fun drawn =>
        (drawn.1, drawn.2.reindexed n) := by
  rw [drawCurve, drawCurve, Option.map_map]
  rfl

theorem draw_reindexed (s : State α) (n budget : Nat) (e : Element α) :
    (s.reindexed n).draw budget e =
      (s.draw budget e).map fun drawn => (drawn.1, drawn.2.reindexed n) := by
  cases e with
  | moveTo p => rfl
  | lineTo p => rfl
  | quadTo c p =>
      rw [draw_quadTo, draw_quadTo]
      exact drawCurve_reindexed s n budget _ _ _ _
  | cubicTo c₁ c₂ p =>
      rw [draw_cubicTo, draw_cubicTo]
      exact drawCurve_reindexed s n budget _ _ _ _
  | close => rfl

theorem enter_add (s : State α) (budget index n : Nat) (e : Element α) :
    s.enter budget (index + n) e = (s.enter budget index e).map (·.reindexed n) := by
  rw [enter_eq, enter_eq, poised_add, draw_reindexed, Option.map_map, Option.map_map]
  rfl

theorem carries_reindexed (budget n : Nat) :
    Carries budget n (fun s : State α => s.reindexed n) id where
  isMove_read _ := rfl
  enter_carry s index e := s.enter_add budget index n e
  reached_carry _ := rfl
  resolve_carry s := s.resolve_reindexed n
  rest_carry _ := rfl

theorem advanceAll_add (s : State α) (budget index n : Nat) (hes : es ≠ []) :
    s.advanceAll budget (index + n) es =
      (s.advanceAll budget index es).map (Progress.map (·.reindexed n)) := by
  -- the first element overwrites the index that the walk set out with
  have hcarried := (carries_reindexed budget n).advanceAll_carry s index es
  rw [List.map_id] at hcarried
  cases es with
  | nil => exact absurd rfl hes
  | cons e rest => exact hcarried

theorem advanceAll_append (s : State α) (budget index : Nat) (es fs : List (Element α)) :
    s.advanceAll budget index (es ++ fs) = (s.advanceAll budget index es).bind fun
      | .answered t => some (.answered t)
      | .walking t => t.advanceAll budget (index + es.length) fs := by
  induction es generalizing s index with
  | nil => rfl
  | cons e rest ih =>
      rw [List.cons_append, advanceAll_cons, advanceAll_cons, Option.bind_assoc]
      congr 1
      funext r
      cases r with
      | answered t => rfl
      | walking t =>
          have hlength : index + (e :: rest).length = index + 1 + rest.length := by
            rw [List.length_cons]
            omega
          rw [hlength]
          exact ih t (index + 1)

theorem advanceAll_append_of_walking (h : s.advanceAll budget index es = some (.walking t)) :
    s.advanceAll budget index (es ++ fs) = t.advanceAll budget (index + es.length) fs := by
  rw [advanceAll_append, h]
  rfl

theorem advanceAll_append_of_answered (h : s.advanceAll budget index es = some (.answered t)) :
    s.advanceAll budget index (es ++ fs) = some (.answered t) := by
  rw [advanceAll_append, h]
  rfl

theorem advanceAll_singleton (s : State α) (budget index : Nat) (e : Element α) :
    s.advanceAll budget index [e] = s.advance budget index e := by
  rw [advanceAll_cons]
  cases s.advance budget index e with
  | none => rfl
  | some r => cases r <;> rfl

theorem advanceAll_concat {r : Progress α}
    (h : s.advanceAll budget index (es ++ [e]) = some r) :
    (∃ a, s.advanceAll budget index es = some (.answered a) ∧ r = .answered a) ∨
      ∃ u, s.advanceAll budget index es = some (.walking u) ∧
        u.advance budget (index + es.length) e = some r := by
  rw [advanceAll_append] at h
  obtain ⟨r', hrun, hlast⟩ := Option.bind_eq_some_iff.mp h
  cases r' with
  | answered a => exact Or.inl ⟨a, hrun, (Option.some.inj hlast).symm⟩
  | walking u => exact Or.inr ⟨u, hrun, (u.advanceAll_singleton _ _ e).symm.trans hlast⟩

theorem advance_answered_iff : s.advance budget index e = some (.answered t) ↔
    ∃ v, s.enter budget index e = some v ∧ e.isMove = false ∧ v.reached = true ∧
      t = v.resolve := by
  rw [advance_eq, Option.map_eq_some_iff]
  refine exists_congr fun v => and_congr_right fun _ => ?_
  cases hmove : e.isMove <;> cases hreached : v.reached <;> simp [eq_comm]

theorem success_of_advanceAll_answered (h : s.advanceAll budget index es = some (.answered t)) :
    t.success = true := by
  induction es generalizing s index with
  | nil => simp [advanceAll] at h
  | cons e rest ih =>
      rw [advanceAll_cons] at h
      obtain ⟨r, hstep, hrest⟩ := Option.bind_eq_some_iff.mp h
      cases r with
      | answered a =>
          obtain rfl := Progress.answered.inj (Option.some.inj hrest)
          obtain ⟨v, -, -, -, rfl⟩ := advance_answered_iff.mp hstep
          exact resolve_success v
      | walking s₁ => exact ih hrest

theorem success_of_advanceAll_walking (h : s.advanceAll budget index es = some (.walking t)) :
    t.success = s.success := by
  rw [advanceAll_frame h]

theorem goal_of_advanceAll (h : s.advanceAll budget index es = some (.walking t)) :
    t.goal = s.goal := by
  rw [advanceAll_frame h]

theorem advanceAll_ne_answered (hs : s.goal = .totalLength) :
    s.advanceAll budget index es ≠ some (.answered t) := by
  intro h
  induction es generalizing s index with
  | nil => simp [advanceAll] at h
  | cons e rest ih =>
      rw [advanceAll_cons] at h
      obtain ⟨r, hstep, hrest⟩ := Option.bind_eq_some_iff.mp h
      cases r with
      | answered a =>
          rw [advance_of_totalLength hs] at hstep
          obtain ⟨u, -, hu⟩ := Option.map_eq_some_iff.mp hstep
          cases hu
      | walking s₁ => exact ih ((goal_of_advance hstep).trans hs) hrest

/-- The element with index `k`, which is no move, answers the walk along a list of elements: none
before it does, its length takes the total to the desired length, and `t` is the answer. -/
def AnsweredAt (budget : Nat) (s : State α) (es : List (Element α)) (k : Nat) (t : State α) :
    Prop :=
  ∃ (e : Element α) (u v : State α), es[k]? = some e ∧ e.isMove = false ∧
    s.advanceAll budget 0 (es.take k) = some (.walking u) ∧ u.enter budget k e = some v ∧
    v.reached = true ∧ t = v.resolve

theorem AnsweredAt.advanceAll_eq {k : Nat} (h : s.AnsweredAt budget es k t) :
    s.advanceAll budget 0 es = some (.answered t) := by
  obtain ⟨e, u, v, he, hmove, hwalk, henter, hreached, rfl⟩ := h
  obtain ⟨hk, hget⟩ := List.getElem?_eq_some_iff.mp he
  have hanswer : u.advance budget k e = some (.answered v.resolve) :=
    advance_answered_iff.mpr ⟨v, henter, hmove, hreached, rfl⟩
  have hsplit : es = es.take k ++ e :: es.drop (k + 1) := by
    rw [← hget, ← List.drop_eq_getElem_cons hk, List.take_append_drop]
  rw [hsplit, advanceAll_append_of_walking hwalk, List.length_take_of_le hk.le, Nat.zero_add,
    advanceAll_cons, hanswer]
  rfl

theorem exists_answeredAt (h : s.advanceAll budget 0 es = some (.answered t)) :
    ∃ k, s.AnsweredAt budget es k t := by
  induction es using List.reverseRecOn with
  | nil => simp [advanceAll] at h
  | append_singleton es f ih =>
      obtain ⟨a, hrun, ha⟩ | ⟨u, hrun, hstep⟩ := advanceAll_concat h
      · obtain rfl := Progress.answered.inj ha
        obtain ⟨k, e, u, v, he, hmove, hwalk, hanswer⟩ := ih hrun
        have hk : k < es.length := (List.getElem?_eq_some_iff.mp he).1
        refine ⟨k, e, u, v, ?_, hmove, ?_, hanswer⟩
        · rwa [List.getElem?_append_left hk]
        · rwa [List.take_append_of_le_length hk.le]
      · rw [Nat.zero_add] at hstep
        obtain ⟨v, henter, hmove, hreached, rfl⟩ := advance_answered_iff.mp hstep
        refine ⟨es.length, f, u, v, by simp, hmove, ?_, henter, hreached, rfl⟩
        rwa [List.take_left' rfl]

theorem not_reached_of_advance (h : s.advance budget index e = some (.walking t))
    (hmove : e.isMove = false) : t.reached = false := by
  rw [advance_eq] at h
  obtain ⟨v, -, hv⟩ := Option.map_eq_some_iff.mp h
  cases hreached : v.reached with
  | true => simp [hmove, hreached] at hv
  | false =>
      obtain rfl : v = t := by simpa [hmove, hreached] using hv
      exact hreached

theorem reached_count_zero [Scalar.AddZeroLawful α] (s : State α) :
    (s.count 0).reached = s.reached := by
  have hle : decide (s.desiredLength ≤ s.totalLength + 0) =
      decide (s.desiredLength ≤ s.totalLength) :=
    decide_eq_decide.mpr (Scalar.AddZeroLawful.le_add_zero_iff _ _)
  exact congrArg (s.isLengthQuery && ·) hle

theorem reached_of_advance_move [Scalar.AddZeroLawful α]
    (h : s.advance budget index e = some (.walking t)) (hmove : e.isMove = true) :
    t.reached = s.reached := by
  obtain ⟨p, rfl⟩ : ∃ p, e = .moveTo p := by
    cases e with
    | moveTo p => exact ⟨p, rfl⟩
    | _ => simp [Element.isMove] at hmove
  obtain rfl := Option.some.inj (enter_of_advance h)
  exact reached_count_zero s

theorem reached_of_advanceAll_walking [Scalar.AddZeroLawful α] {f : Element α}
    (h : s.advanceAll budget index es = some (.walking t)) (hmem : f ∈ es)
    (hmove : f.isMove = false) : t.reached = false := by
  -- an element that does not answer a query leaves it short, and no move behind it changes that
  induction es using List.reverseRecOn generalizing t with
  | nil => simp at hmem
  | append_singleton es e ih =>
      obtain ⟨a, -, ha⟩ | ⟨u, hrun, hstep⟩ := advanceAll_concat h
      · cases ha
      · cases he : e.isMove with
        | false => exact not_reached_of_advance hstep he
        | true =>
            have hne : f ≠ e := by
              rintro rfl
              simp [he] at hmove
            rw [reached_of_advance_move hstep he]
            exact ih hrun (by simpa [hne] using hmem)

end State

namespace Path

variable {budget : Nat} {p q : Path α} {s t : State α}

theorem walk_append_of_answered (h : s.advanceAll budget 0 p.elements = some (.answered t)) :
    (p ++ q).walk budget s = some t := by
  have happend : s.advanceAll budget 0 (p ++ q).elements = some (.answered t) :=
    State.advanceAll_append_of_answered h
  rw [walk_eq_map, happend]
  rfl

theorem advanceAll_of_walk_of_not_success (h : p.walk budget s = some t)
    (ht : t.success = false) : s.advanceAll budget 0 p.elements = some (.walking t) := by
  rw [walk_eq_map] at h
  obtain ⟨r, hrun, hend⟩ := Option.map_eq_some_iff.mp h
  cases r with
  | answered a =>
      obtain rfl : a = t := hend
      simp [State.success_of_advanceAll_answered hrun] at ht
  | walking u =>
      rw [finishWalk] at hend
      split at hend
      · subst hend
        simp [State.resolveAtRest] at ht
      · rw [hrun, hend]

theorem walk_append_of_not_success (hq : q.isEmpty = false) (h : p.walk budget s = some t)
    (ht : t.success = false) :
    (p ++ q).walk budget s = (q.walk budget t).map (·.reindexed p.size) := by
  have hrun := advanceAll_of_walk_of_not_success h ht
  have hnonempty : q.elements ≠ [] := by simpa [isEmpty] using hq
  have hfinish : (p ++ q).finishWalk = q.finishWalk := by
    funext r
    have hempty : (p ++ q).isEmpty = false := by
      change (p.elements ++ q.elements).isEmpty = false
      simp [hnonempty]
    cases r with
    | answered a => rfl
    | walking a => rw [finishWalk, finishWalk, hempty, hq]
  have happend : s.advanceAll budget 0 (p ++ q).elements =
      t.advanceAll budget (0 + p.size) q.elements := State.advanceAll_append_of_walking hrun
  rw [walk_eq_map, walk_eq_map, hfinish, happend, t.advanceAll_add budget 0 p.size hnonempty,
    Option.map_map, Option.map_map]
  exact Option.map_congr fun r _ => (State.carries_reindexed budget p.size).finishWalk_carry rfl r

theorem success_of_walk_totalLength (hs : s.goal = .totalLength) (h : p.walk budget s = some t) :
    t.success = s.success := by
  rw [walk_eq_map] at h
  obtain ⟨r, hrun, rfl⟩ := Option.map_eq_some_iff.mp h
  cases r with
  | answered a => exact absurd hrun (State.advanceAll_ne_answered hs)
  | walking u =>
      have hreached : u.reached = false := by
        rw [State.reached, State.isLengthQuery, State.goal_of_advanceAll hrun, hs]
        rfl
      simp [finishWalk, hreached, State.success_of_advanceAll_walking hrun]

/-- A walk that succeeds is answered on an element, or it has met bare moves only. -/
theorem answeredAt_or_bare [Scalar.AddZeroLawful α] (hs : s.success = false)
    (h : p.walk budget s = some t) (ht : t.success = true) :
    (∃ k, s.AnsweredAt budget p.elements k t) ∨
      p.isEmpty = false ∧ ∀ e ∈ p.elements, e.isMove = true := by
  rw [walk_eq_map] at h
  obtain ⟨r, hrun, hend⟩ := Option.map_eq_some_iff.mp h
  cases r with
  | answered a =>
      obtain rfl : a = t := hend
      exact Or.inl (State.exists_answeredAt hrun)
  | walking u =>
      rw [finishWalk] at hend
      cases hrest : !p.isEmpty && u.reached with
      | false =>
          obtain rfl : u = t := by simpa [hrest] using hend
          simp [State.success_of_advanceAll_walking hrun, hs] at ht
      | true =>
          obtain ⟨hempty, hreached⟩ := Bool.and_eq_true_iff.mp hrest
          refine Or.inr ⟨by simpa using hempty, fun e he => ?_⟩
          by_contra hmove
          have hshort := State.reached_of_advanceAll_walking hrun he (Bool.eq_false_iff.mpr hmove)
          simp [hshort] at hreached

/-- **Walks compose.** For all paths, the second not empty, and every goal and start state without
success, within every budget: a walk that the first path answers on an element that is no move ends
in the same state along both paths. A walk that the first path does not answer, as no walk of the
whole length is, goes on along the second path from the state that the first one leaves, with
indices that count on from the first path. No other walk is there but that of a first path of bare
moves that is answered at rest. -/
theorem walk_append [Scalar.AddZeroLawful α] (p q : Path α) (hq : q.isEmpty = false) (s : State α)
    (hs : s.success = false) (budget : Nat) :
    (∀ k t, s.AnsweredAt budget p.elements k t →
      p.walk budget s = some t ∧ t.success = true ∧ (p ++ q).walk budget s = some t) ∧
    (∀ t, p.walk budget s = some t → t.success = false →
      (p ++ q).walk budget s = (q.walk budget t).map (·.reindexed p.size)) ∧
    (s.goal = .totalLength → ∀ t, p.walk budget s = some t → t.success = false) ∧
    (∀ t, p.walk budget s = some t → t.success = true →
      (∃ k, s.AnsweredAt budget p.elements k t) ∨
        p.isEmpty = false ∧ ∀ e ∈ p.elements, e.isMove = true) := by
  refine ⟨?_, ?_, ?_, ?_⟩
  · intro k t hanswered
    have hrun := hanswered.advanceAll_eq
    refine ⟨?_, State.success_of_advanceAll_answered hrun, walk_append_of_answered hrun⟩
    rw [walk_eq_map, hrun]
    rfl
  · intro t hwalk ht
    exact walk_append_of_not_success hq hwalk ht
  · intro hgoal t hwalk
    exact (success_of_walk_totalLength hgoal hwalk).trans hs
  · intro t hwalk ht
    exact answeredAt_or_bare hs hwalk ht

/-- A point query that goes on behind an arch. -/
theorem walk_append_arch :
    (⟨[.moveTo ⟨0, 0⟩, .lineTo ⟨3, 4⟩]⟩ : Path Float).isEmpty = false ∧
    (State.initial .pointAtLength (7 : Float) 1).success = false ∧
    ∃ t, Path.walk 9 ⟨[.moveTo ⟨0, 0⟩, .quadTo ⟨1, 1⟩ ⟨2, 0⟩]⟩
        (State.initial .pointAtLength (7 : Float) 1) = some t ∧
      Path.walk 9 (⟨[.moveTo ⟨0, 0⟩, .quadTo ⟨1, 1⟩ ⟨2, 0⟩]⟩ ++
          ⟨[.moveTo ⟨0, 0⟩, .lineTo ⟨3, 4⟩]⟩) (State.initial .pointAtLength (7 : Float) 1) =
        (Path.walk 9 ⟨[.moveTo ⟨0, 0⟩, .lineTo ⟨3, 4⟩]⟩ t).map (·.reindexed 2) := by
  have hunanswered : (Path.walk 9 ⟨[.moveTo ⟨0, 0⟩, .quadTo ⟨1, 1⟩ ⟨2, 0⟩]⟩
      (State.initial .pointAtLength (7 : Float) 1)).any (fun t => !t.success) = true := by
    decide +kernel
  obtain ⟨t, hwalk, ht⟩ := Option.any_eq_true .. |>.mp hunanswered
  obtain ⟨-, hcompose, -, -⟩ := walk_append ⟨[.moveTo ⟨0, 0⟩, .quadTo ⟨1, 1⟩ ⟨2, 0⟩]⟩
    ⟨[.moveTo ⟨0, 0⟩, .lineTo ⟨3, 4⟩]⟩ rfl (State.initial .pointAtLength (7 : Float) 1) rfl 9
  exact ⟨rfl, rfl, t, hwalk, hcompose t hwalk (by simpa using ht)⟩

end Path

end ArcLength
