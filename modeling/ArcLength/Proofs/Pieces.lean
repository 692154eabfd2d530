import ArcLength.Proofs.Visit

/-!
# The flat pieces that a visit meets

The stack of a visit always holds the pieces still to come, in order. So a visit is a scan of the
flat pieces that plain recursion yields: it sums their polygons from the left and ends on the first
piece with which the sum is enough, or on the last piece. Where halving leaves no gap, each flat
piece starts where the one before it ends.
-/

namespace ArcLength.Curve

variable {κ α : Type} [Curve κ α] [Scalar α] {tolerance : α}

def total (length : α) (ps : List κ) : α :=
  ps.foldl (fun sum c => sum + polygonLength c) length

/-- The flat pieces that a stack stands for, in the order in which a visit meets them. -/
inductive Unfolds (tolerance : α) : List κ → List κ → Prop where
  | nil : Unfolds tolerance [] []
  | flat {c : κ} {later ps : List κ} (hflat : isFlat tolerance c = true)
      (hlater : Unfolds tolerance later ps) : Unfolds tolerance (c :: later) (c :: ps)
  | halves {c : κ} {later ps : List κ} (hflat : isFlat tolerance c = false)
      (hhalves : Unfolds tolerance ((split c).1 :: (split c).2 :: later) ps) :
      Unfolds tolerance (c :: later) ps

theorem flatPieces_of_flat {c : κ} (hflat : isFlat tolerance c = true) (depth : Nat) :
    flatPieces tolerance depth c = some [c] := by
  cases depth <;> simp [flatPieces, hflat]

theorem flatPieces_succ_of_not_flat {depth : Nat} {c : κ} {ps : List κ}
    (hflat : isFlat tolerance c = false) :
    flatPieces tolerance (depth + 1) c = some ps ↔
      ∃ first second, flatPieces tolerance depth (split c).1 = some first ∧
        flatPieces tolerance depth (split c).2 = some second ∧ ps = first ++ second := by
  simp only [flatPieces, hflat, Bool.false_eq_true, if_false, Option.bind_eq_bind,
    Option.bind_eq_some_iff, Option.pure_def, Option.some.injEq]
  constructor
  · rintro ⟨first, hfirst, second, hsecond, rfl⟩
    exact ⟨first, second, hfirst, hsecond, rfl⟩
  · rintro ⟨first, second, hfirst, hsecond, rfl⟩
    exact ⟨first, hfirst, second, hsecond, rfl⟩

/-- What holds of the pieces of a flat curve, and passes from the halves to the whole, holds of the
pieces of every curve. -/
theorem flatPieces_induction {P : κ → List κ → Prop}
    (flat : ∀ c, isFlat tolerance c = true → P c [c])
    (halves : ∀ c first second, P (split c).1 first → P (split c).2 second →
      isFlat tolerance c = false → P c (first ++ second))
    {depth : Nat} {c : κ} {ps : List κ} (h : flatPieces tolerance depth c = some ps) : P c ps := by
  induction depth generalizing c ps with
  | zero =>
      cases hflat : isFlat tolerance c with
      | true =>
          rw [flatPieces_of_flat hflat] at h
          obtain rfl := Option.some.inj h
          exact flat c hflat
      | false => simp [flatPieces, hflat] at h
  | succ depth ih =>
      cases hflat : isFlat tolerance c with
      | true =>
          rw [flatPieces_of_flat hflat] at h
          obtain rfl := Option.some.inj h
          exact flat c hflat
      | false =>
          obtain ⟨first, second, hfirst, hsecond, rfl⟩ := (flatPieces_succ_of_not_flat hflat).mp h
          exact halves c first second (ih hfirst) (ih hsecond) hflat

theorem Unfolds.cons_of_flatPieces {depth : Nat} {c : κ} {ps : List κ}
    (h : flatPieces tolerance depth c = some ps) :
    ∀ {later qs : List κ}, Unfolds tolerance later qs →
      Unfolds tolerance (c :: later) (ps ++ qs) := by
  refine flatPieces_induction (P := fun c ps => ∀ {later qs : List κ},
    Unfolds tolerance later qs → Unfolds tolerance (c :: later) (ps ++ qs)) ?_ ?_ h
  · intro c hflat later qs hlater
    exact Unfolds.flat hflat hlater
  · intro c first second hfirst hsecond hflat later qs hlater
    refine Unfolds.halves hflat ?_
    rw [List.append_assoc]
    exact hfirst (hsecond hlater)

theorem Unfolds.of_flatPieces {depth : Nat} {c : κ} {ps : List κ}
    (h : flatPieces tolerance depth c = some ps) : Unfolds tolerance [c] ps := by
  simpa using Unfolds.cons_of_flatPieces h Unfolds.nil

/-- The pieces lead from one point to another without a gap. -/
def Joins : Point α → List κ → Point α → Prop
  | p, [], q => p = q
  | p, c :: cs, q => start c = p ∧ Joins (finish c) cs q

theorem Unfolds.joins [Lawful κ] {stack ps : List κ} (h : Unfolds tolerance stack ps)
    {p q : Point α} (hstack : Joins p stack q) : Joins p ps q := by
  induction h generalizing p with
  | nil => exact hstack
  | flat _ _ ih => exact ⟨hstack.1, ih hstack.2⟩
  | halves _ _ ih =>
      refine ih ⟨(Lawful.start_left _).trans hstack.1, (Lawful.finish_left _).symm, ?_⟩
      rw [Lawful.finish_right]
      exact hstack.2

/-- How a visit of pieces ends: on the first with which the sum is enough, or on the last. -/
structure Ends (enough : α → Bool) (length : α) (ps before : List κ) (last : κ)
    (after : List κ) : Prop where
  pieces_eq : ps = before ++ last :: after
  not_enough : ∀ k < before.length, enough (total length (before.take (k + 1))) = false
  enough_or_over : enough (total length (before ++ [last])) = true ∨ after = []

theorem Ends.cons {enough : α → Bool} {length : α} {ps before after : List κ} {c last : κ}
    (h : Ends enough (length + polygonLength c) ps before last after)
    (hopen : enough (length + polygonLength c) = false) :
    Ends enough length (c :: ps) (c :: before) last after where
  pieces_eq := by rw [h.pieces_eq, List.cons_append]
  not_enough k hk := by
    cases k with
    | zero => simpa [total] using hopen
    | succ k => exact h.not_enough k (Nat.lt_of_succ_lt_succ hk)
  enough_or_over := h.enough_or_over

theorem Unfolds.length_le {stack ps : List κ} (h : Unfolds tolerance stack ps) :
    stack.length ≤ ps.length := by
  induction h with
  | nil => exact Nat.le_refl _
  | flat _ _ ih => exact Nat.succ_le_succ ih
  | halves _ _ ih =>
      simp only [List.length_cons] at ih ⊢
      omega

/-- **A visit scans the flat pieces.** It ends on a piece as `Ends` has it, with the sum up to that
piece, in one step for each flat piece and one for each split. -/
theorem exists_visit_of_unfolds {stack ps : List κ} (h : Unfolds tolerance stack ps) :
    ∀ budget, 2 * ps.length ≤ budget + stack.length → ∀ piece later, stack = piece :: later →
      ∀ (enough : α → Bool) (length : α), ∃ before last after,
        Ends enough length ps before last after ∧
          visit tolerance enough budget piece later length =
            some ⟨total length (before ++ [last]), last⟩ := by
  -- each step of the visit undoes one step of the unfolding
  induction h with
  | nil =>
      intro budget hbudget piece later hstack
      simp at hstack
  | @flat c later ps hflat hlater ih =>
      intro budget hbudget piece later' hstack enough length
      obtain ⟨rfl, rfl⟩ := List.cons.inj hstack
      have hle := hlater.length_le
      simp only [List.length_cons] at hbudget
      obtain ⟨budget, rfl⟩ : ∃ b, budget = b + 1 := ⟨budget - 1, by omega⟩
      cases hcut : enough (length + polygonLength c) with
      | true =>
          exact ⟨[], c, ps, ⟨rfl, by simp, Or.inl hcut⟩, visit_of_enough hflat hcut budget⟩
      | false =>
          cases later with
          | nil =>
              cases hlater
              exact ⟨[], c, [], ⟨rfl, by simp, Or.inr rfl⟩, visit_of_last hflat hcut budget⟩
          | cons next later =>
              obtain ⟨before, last, after, hends, hvisit⟩ :=
                ih budget (by omega) next later rfl enough (length + polygonLength c)
              refine ⟨c :: before, last, after, hends.cons hcut, ?_⟩
              rw [visit_of_next hflat hcut, hvisit]
              rfl
  | @halves c later ps hflat hhalves ih =>
      intro budget hbudget piece later' hstack enough length
      obtain ⟨rfl, rfl⟩ := List.cons.inj hstack
      have hle := hhalves.length_le
      simp only [List.length_cons] at hbudget hle ih
      obtain ⟨budget, rfl⟩ : ∃ b, budget = b + 1 := ⟨budget - 1, by omega⟩
      rw [visit_of_not_flat hflat]
      exact ih budget (by omega) _ _ rfl enough length

/-- The budget suffices to measure a curve that consists of these flat pieces, for every rule of
when the sum is enough. -/
def MeasuredAs (budget : Nat) (tolerance : α) (c : κ) (ps : List κ) : Prop :=
  ∀ enough : α → Bool, ∃ before last after, Ends enough 0 ps before last after ∧
    measure budget tolerance enough c = some ⟨total 0 (before ++ [last]), last⟩

theorem measuredAs_of_flatPieces {depth budget : Nat} {c : κ} {ps : List κ}
    (h : flatPieces tolerance depth c = some ps) (hbudget : 2 * ps.length ≤ budget + 1) :
    MeasuredAs budget tolerance c ps := fun enough =>
  exists_visit_of_unfolds (.of_flatPieces h) budget hbudget c [] rfl enough 0

theorem MeasuredAs.exists_measure_total {budget : Nat} {c : κ} {ps : List κ}
    (h : MeasuredAs budget tolerance c ps) :
    ∃ last, measure budget tolerance never c = some ⟨total 0 ps, last⟩ := by
  obtain ⟨before, last, after, hends, hmeasure⟩ := h never
  obtain rfl : after = [] := hends.enough_or_over.resolve_left (by simp)
  rw [← hends.pieces_eq] at hmeasure
  exact ⟨last, hmeasure⟩

end ArcLength.Curve
