import ArcLength.Binary64
import ArcLength.Proofs.Pieces
import ArcLength.Proofs.Steps

/-!
# Measuring a curve by its flat pieces

What measuring a curve comes to, read off the flat pieces that plain recursion into halves yields.
The length of the whole is their sum. A query stops on the first piece with which it passes the
desired length, or on the last one, and changes of its state no more than the two points. Nothing
here is a fact of arithmetic.
-/

namespace ArcLength

variable {κ α : Type} [Curve κ α] [Scalar α]

namespace Curve

variable {enough : α → Bool} {length : α} {ps before after : List κ} {last : κ}

theorem Ends.take_eq (h : Ends enough length ps before last after) :
    ps.take (before.length + 1) = before ++ [last] := by
  rw [h.pieces_eq, List.take_length_add_append]
  rfl

theorem Ends.take_of_le (h : Ends enough length ps before last after) {k : Nat}
    (hk : k ≤ before.length) : ps.take k = before.take k := by
  rw [h.pieces_eq, List.take_append_of_le_length hk]

theorem Ends.getElem?_eq (h : Ends enough length ps before last after) :
    ps[before.length]? = some last := by
  rw [h.pieces_eq]
  simp

theorem Ends.length_lt (h : Ends enough length ps before last after) :
    before.length < ps.length := by
  rw [h.pieces_eq, List.length_append, List.length_cons]
  omega

end Curve

namespace State

def restOn (s : State α) (piece : κ) : State α :=
  { s with previous := Curve.start piece, current := Curve.finish piece }

/-- Whether the first `k` of the pieces take a query past its desired length. -/
def PassesWith (s : State α) (ps : List κ) (k : Nat) : Prop :=
  s.desiredLength < s.totalLength + Curve.total 0 (ps.take k)

instance (s : State α) (ps : List κ) (k : Nat) : Decidable (s.PassesWith ps k) :=
  inferInstanceAs (Decidable (_ < _))

structure PassesFirstWith (s : State α) (ps : List κ) (k : Nat) : Prop where
  pos : 0 < k
  le_length : k ≤ ps.length
  passesWith : s.PassesWith ps k
  not_passesWith : ∀ j, 0 < j → j < k → ¬ s.PassesWith ps j

variable {s : State α} {budget : Nat} {c : κ} {ps before after : List κ} {last : κ}

theorem passes_iff (hquery : s.isLengthQuery = true) {k : Nat} :
    s.passes (Curve.total 0 (ps.take k)) = true ↔ s.PassesWith ps k := by
  rw [passes, hquery, Bool.true_and, decide_eq_true_iff]
  rfl

theorem curveLength_of_query (hquery : s.isLengthQuery = true) {m : Measured κ α}
    (h : Curve.measure budget s.tolerance s.passes c = some m) :
    s.curveLength budget c = some (m.length, s.restOn m.last) := by
  rw [curveLength_eq, h]
  simp only [Option.map_some, land, hquery, if_true]
  rfl

theorem curveLength_of_totalLength (hgoal : s.goal = .totalLength) {m : Measured κ α}
    (h : Curve.measure budget s.tolerance Curve.never c = some m) :
    s.curveLength budget c = some (m.length, s) := by
  have hquery : s.isLengthQuery = false := by rw [isLengthQuery, hgoal]; rfl
  rw [curveLength_eq, passes_of_not_isLengthQuery hquery, h]
  simp [land, hquery]

theorem eq_of_passesFirstWith (hquery : s.isLengthQuery = true)
    (hends : Curve.Ends s.passes 0 ps before last after) {k : Nat}
    (hk : s.PassesFirstWith ps k) : k = before.length + 1 := by
  rcases Nat.lt_trichotomy k (before.length + 1) with hlt | heq | hgt
  · -- the visit went on behind the piece, so the desired length was not passed there
    obtain ⟨j, rfl⟩ : ∃ j, k = j + 1 := ⟨k - 1, by have := hk.pos; omega⟩
    have hopen := hends.not_enough j (by omega)
    rw [← hends.take_of_le (by omega), (passes_iff hquery).mpr hk.passesWith] at hopen
    simp at hopen
  · exact heq
  · -- the visit ended before, on a piece that passes it or for want of pieces
    rcases hends.enough_or_over with hcut | rfl
    · rw [← hends.take_eq, passes_iff hquery] at hcut
      exact absurd hcut (hk.not_passesWith _ (Nat.succ_pos _) hgt)
    · have hle := hk.le_length
      rw [hends.pieces_eq, List.length_append, List.length_singleton] at hle
      omega

theorem after_eq_nil_of_not_passesWith (hquery : s.isLengthQuery = true)
    (hends : Curve.Ends s.passes 0 ps before last after)
    (hnot : ∀ k, 0 < k → k ≤ ps.length → ¬ s.PassesWith ps k) : after = [] := by
  refine hends.enough_or_over.resolve_left fun hcut => ?_
  rw [← hends.take_eq, passes_iff hquery] at hcut
  exact hnot _ (Nat.succ_pos _) hends.length_lt hcut

/-- **Measuring scans the flat pieces.** For every kind of curve, from every state, let `ps` be the
pieces of a curve that plain recursion yields. Two steps for each piece suffice. The whole length is
the sum of the polygons in order, and the state stays as it is. A query comes to the sum of the
fewest first pieces that take it past its desired length, with its points at the ends of the last of
them, or else to the sum of all pieces with its points at the ends of the last piece. The rest of
its state stays as it is. -/
theorem curveLength_of_flatPieces (s : State α) (c : κ) {depth : Nat}
    (h : Curve.flatPieces s.tolerance depth c = some ps) (hbudget : 2 * ps.length ≤ budget + 1) :
    (s.goal = .totalLength → s.curveLength budget c = some (Curve.total 0 ps, s)) ∧
    (s.isLengthQuery = true →
      (∀ k, s.PassesFirstWith ps k → ∃ piece, ps[k - 1]? = some piece ∧
        s.curveLength budget c = some (Curve.total 0 (ps.take k), s.restOn piece)) ∧
      ((∀ k, 0 < k → k ≤ ps.length → ¬ s.PassesWith ps k) → ∃ piece, ps.getLast? = some piece ∧
        s.curveLength budget c = some (Curve.total 0 ps, s.restOn piece))) := by
  have hmeasured : Curve.MeasuredAs budget s.tolerance c ps :=
    Curve.measuredAs_of_flatPieces h hbudget
  refine ⟨fun hgoal => ?_, fun hquery => ?_⟩
  · obtain ⟨last, hmeasure⟩ := hmeasured.exists_measure_total
    exact curveLength_of_totalLength hgoal hmeasure
  · obtain ⟨before, last, after, hends, hmeasure⟩ := hmeasured s.passes
    have hlength := curveLength_of_query hquery hmeasure
    refine ⟨fun k hk => ⟨last, ?_, ?_⟩, fun hnot => ⟨last, ?_, ?_⟩⟩
    · rw [eq_of_passesFirstWith hquery hends hk]
      exact hends.getElem?_eq
    · rw [eq_of_passesFirstWith hquery hends hk, hends.take_eq]
      exact hlength
    · rw [hends.pieces_eq, after_eq_nil_of_not_passesWith hquery hends hnot]
      simp
    · obtain rfl := after_eq_nil_of_not_passesWith hquery hends hnot
      rw [hends.pieces_eq]
      exact hlength

/-- A point query on a hook, of which only the first half is split again: it stops on the second of
three pieces. -/
theorem curveLength_second_piece :
    ∃ (ps : List (QuadraticCurve Float)) (piece : QuadraticCurve Float),
      Curve.flatPieces (1 : Float) 2 (⟨⟨0, 0⟩, ⟨0, 4⟩, ⟨40, 0⟩⟩ : QuadraticCurve Float) =
        some ps ∧
      2 * ps.length ≤ 5 + 1 ∧
      (State.initial .pointAtLength (8 : Float) 1).PassesFirstWith ps 2 ∧
      ps[1]? = some piece ∧
      (State.initial .pointAtLength (8 : Float) 1).curveLength 5
          (⟨⟨0, 0⟩, ⟨0, 4⟩, ⟨40, 0⟩⟩ : QuadraticCurve Float) =
        some (Curve.total 0 (ps.take 2),
          (State.initial .pointAtLength (8 : Float) 1).restOn piece) := by
  have hpieces : (Curve.flatPieces (1 : Float) 2
      (⟨⟨0, 0⟩, ⟨0, 4⟩, ⟨40, 0⟩⟩ : QuadraticCurve Float)).any (fun ps =>
        ps.length = 3 ∧ (State.initial .pointAtLength (8 : Float) 1).PassesWith ps 2 ∧
        ¬ (State.initial .pointAtLength (8 : Float) 1).PassesWith ps 1) = true := by
    decide +kernel
  obtain ⟨ps, hps, hpasses⟩ := Option.any_eq_true .. |>.mp hpieces
  obtain ⟨hlength, hsecond, hnot⟩ := of_decide_eq_true hpasses
  have hfirst : (State.initial .pointAtLength (8 : Float) 1).PassesFirstWith ps 2 := by
    refine ⟨by decide, by omega, hsecond, fun j hpos hlt => ?_⟩
    obtain rfl : j = 1 := by omega
    exact hnot
  have hbudget : 2 * ps.length ≤ 5 + 1 := by omega
  obtain ⟨-, hquery⟩ := curveLength_of_flatPieces (State.initial .pointAtLength (8 : Float) 1)
    (⟨⟨0, 0⟩, ⟨0, 4⟩, ⟨40, 0⟩⟩ : QuadraticCurve Float) hps hbudget
  obtain ⟨piece, hpiece, hmeasure⟩ := (hquery rfl).1 2 hfirst
  exact ⟨ps, piece, hps, hbudget, hfirst, hpiece, hmeasure⟩

end State

end ArcLength
