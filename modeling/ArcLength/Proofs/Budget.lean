import Mathlib
import ArcLength.Proofs.Pieces

/-!
# How many steps a visit takes

Each step of a visit takes a flat piece off the stack or puts two halves in place of a piece. So
the stack grows while the visit goes on, and what falls is its cost: a piece all of whose parts are
flat after `depth` halvings costs `2 ^ (depth + 1) - 1` steps, one more than its two halves
together.

A visit that ends has met pieces that become flat after finitely many halvings, so the number of
halvings decides whether it ends.
-/

namespace ArcLength.Curve

variable {κ α : Type} [Curve κ α] [Scalar α] {tolerance : α}

/-- The first piece is split, and so is every further one on the way that the sides show, the last
one among them. -/
def SplitsAlong (tolerance : α) : κ → List Side → Prop
  | c, [] => isFlat tolerance c = false
  | c, side :: w => isFlat tolerance c = false ∧ SplitsAlong tolerance (half c side) w

omit [Scalar α] in
theorem descend_append (c : κ) (w v : List Side) :
    descend c (w ++ v) = descend (descend c w) v := by
  induction w generalizing c with
  | nil => rfl
  | cons side w ih => exact ih (half c side)

theorem splitsAlong_append {c : κ} {w v : List Side} (hne : v ≠ []) :
    SplitsAlong tolerance c (w ++ v) ↔
      SplitsAlong tolerance c w ∧ SplitsAlong tolerance (descend c w) v := by
  induction w generalizing c with
  | nil =>
      constructor
      · intro h
        cases v with
        | nil => exact absurd rfl hne
        | cons side v => exact ⟨h.1, h⟩
      · intro h
        exact h.2
  | cons side w ih =>
      rw [List.cons_append, SplitsAlong, ih, SplitsAlong, and_assoc]
      rfl

theorem flatPieces_succ {depth : Nat} {c : κ} {ps : List κ}
    (h : flatPieces tolerance depth c = some ps) :
    flatPieces tolerance (depth + 1) c = some ps := by
  induction depth generalizing c ps with
  | zero =>
      cases hflat : isFlat tolerance c with
      | true => rwa [flatPieces_of_flat hflat] at h ⊢
      | false => simp [flatPieces, hflat] at h
  | succ depth ih =>
      cases hflat : isFlat tolerance c with
      | true => rwa [flatPieces_of_flat hflat] at h ⊢
      | false =>
          obtain ⟨first, second, hfirst, hsecond, rfl⟩ := (flatPieces_succ_of_not_flat hflat).mp h
          exact (flatPieces_succ_of_not_flat hflat).mpr
            ⟨first, second, ih hfirst, ih hsecond, rfl⟩

theorem flatPieces_eq_none_iff {depth : Nat} {c : κ} :
    flatPieces tolerance depth c = none ↔
      ∃ w : List Side, w.length = depth ∧ SplitsAlong tolerance c w := by
  induction depth generalizing c with
  | zero =>
      cases hflat : isFlat tolerance c with
      | true => simp [flatPieces, SplitsAlong, hflat]
      | false => simp [flatPieces, SplitsAlong, hflat]
  | succ depth ih =>
      cases hflat : isFlat tolerance c with
      | true =>
          rw [flatPieces_of_flat hflat]
          constructor
          · intro h
            simp at h
          · rintro ⟨w, hlength, hsplits⟩
            cases w with
            | nil => simp at hlength
            | cons side w => exact absurd hsplits.1 (by simp [hflat])
      | false =>
          have hhalves : flatPieces tolerance (depth + 1) c = none ↔
              flatPieces tolerance depth (split c).1 = none ∨
                flatPieces tolerance depth (split c).2 = none := by
            rw [flatPieces]
            cases flatPieces tolerance depth (split c).1 <;>
              cases flatPieces tolerance depth (split c).2 <;> simp [hflat]
          rw [hhalves, ih, ih]
          constructor
          · rintro (⟨w, hlength, hsplits⟩ | ⟨w, hlength, hsplits⟩)
            · exact ⟨.left :: w, by simp [hlength], hflat, hsplits⟩
            · exact ⟨.right :: w, by simp [hlength], hflat, hsplits⟩
          · rintro ⟨w, hlength, hsplits⟩
            cases w with
            | nil => simp at hlength
            | cons side w =>
                have hlength' : w.length = depth := by simpa using hlength
                cases side with
                | left => exact Or.inl ⟨w, hlength', hsplits.2⟩
                | right => exact Or.inr ⟨w, hlength', hsplits.2⟩

/-- A piece on the stack, with a depth at which its parts are flat. -/
structure Entry (κ α : Type) [Curve κ α] [Scalar α] (tolerance : α) where
  piece : κ
  depth : Nat
  isSome_flatPieces : (flatPieces tolerance depth piece).isSome = true

def Entry.cost (e : Entry κ α tolerance) : Nat := 2 ^ (e.depth + 1) - 1

def stackCost (entries : List (Entry κ α tolerance)) : Nat := (entries.map Entry.cost).sum

theorem stackCost_cons (e : Entry κ α tolerance) (entries : List (Entry κ α tolerance)) :
    stackCost (e :: entries) = e.cost + stackCost entries := by
  simp [stackCost]

theorem Entry.cost_pos (e : Entry κ α tolerance) : 0 < e.cost := by
  have hpow : 2 ≤ 2 ^ (e.depth + 1) := by
    rw [pow_succ]
    have := Nat.one_le_two_pow (n := e.depth)
    omega
  unfold Entry.cost
  omega

/-- The halves of a piece that is not flat cost less than the piece by one. -/
theorem Entry.exists_halves (e : Entry κ α tolerance) (hflat : isFlat tolerance e.piece = false) :
    ∃ left right : Entry κ α tolerance, left.piece = (split e.piece).1 ∧
      right.piece = (split e.piece).2 ∧ left.cost + right.cost + 1 = e.cost := by
  obtain ⟨piece, depth, hsome⟩ := e
  obtain ⟨ps, hps⟩ := Option.isSome_iff_exists.mp hsome
  cases depth with
  | zero => simp [flatPieces, hflat] at hps
  | succ depth =>
      obtain ⟨first, second, hfirst, hsecond, rfl⟩ := (flatPieces_succ_of_not_flat hflat).mp hps
      refine ⟨⟨_, depth, by rw [hfirst]; rfl⟩, ⟨_, depth, by rw [hsecond]; rfl⟩, rfl, rfl, ?_⟩
      have hpow : 1 ≤ 2 ^ (depth + 1) := Nat.one_le_two_pow
      have hdouble : 2 ^ (depth + 1 + 1) = 2 ^ (depth + 1) * 2 := pow_succ 2 (depth + 1)
      simp only [Entry.cost]
      omega

/-- A visit ends within the cost of its stack, whatever sum is enough. -/
theorem exists_visit_of_stackCost_le (enough : α → Bool) {budget : Nat}
    {e : Entry κ α tolerance} {entries : List (Entry κ α tolerance)} {length : α}
    (hcost : stackCost (e :: entries) ≤ budget) :
    ∃ m, visit tolerance enough budget e.piece (entries.map Entry.piece) length = some m := by
  induction budget generalizing e entries length with
  | zero =>
      have hpos := e.cost_pos
      rw [stackCost_cons] at hcost
      omega
  | succ budget ih =>
      rw [stackCost_cons] at hcost
      cases hflat : isFlat tolerance e.piece with
      | false =>
          obtain ⟨left, right, hleft, hright, hhalves⟩ := e.exists_halves hflat
          have hcost' : stackCost (left :: right :: entries) ≤ budget := by
            rw [stackCost_cons, stackCost_cons]
            omega
          rw [visit_of_not_flat hflat, ← hleft, ← hright]
          exact ih hcost'
      | true =>
          cases hcut : enough (length + polygonLength e.piece) with
          | true => exact ⟨_, visit_of_enough hflat hcut budget⟩
          | false =>
              cases entries with
              | nil => exact ⟨_, visit_of_last hflat hcut budget⟩
              | cons next entries =>
                  have hpos := e.cost_pos
                  rw [List.map_cons, visit_of_next hflat hcut]
                  exact ih (by omega)

/-- A curve whose pieces are flat after `depth` halvings is measured in `2 ^ (depth + 1) - 1`
steps. -/
theorem exists_measure_of_flatPieces {depth budget : Nat} {c : κ} {ps : List κ}
    (h : flatPieces tolerance depth c = some ps) (hbudget : 2 ^ (depth + 1) - 1 ≤ budget)
    (enough : α → Bool) : ∃ m, measure budget tolerance enough c = some m := by
  have hcost : stackCost [(⟨c, depth, by rw [h]; rfl⟩ : Entry κ α tolerance)] ≤ budget := by
    simpa [stackCost, Entry.cost] using hbudget
  exact exists_visit_of_stackCost_le enough hcost

/-- The visit that is never cut comes to flat pieces of everything on its stack. -/
theorem exists_flatPieces_of_visit {budget : Nat} {piece : κ} {later : List κ} {length : α}
    {m : Measured κ α} (h : visit tolerance never budget piece later length = some m) :
    ∀ c ∈ piece :: later, ∃ ps, flatPieces tolerance budget c = some ps := by
  induction budget generalizing piece later length with
  | zero => simp [visit] at h
  | succ budget ih =>
      intro c hc
      cases hflat : isFlat tolerance piece with
      | false =>
          rw [visit_of_not_flat hflat] at h
          have hstack := ih h
          rcases List.mem_cons.mp hc with rfl | hlater
          · obtain ⟨first, hfirst⟩ := hstack (split c).1 (by simp)
            obtain ⟨second, hsecond⟩ := hstack (split c).2 (by simp)
            exact ⟨first ++ second, (flatPieces_succ_of_not_flat hflat).mpr
              ⟨first, second, hfirst, hsecond, rfl⟩⟩
          · obtain ⟨ps, hps⟩ := hstack c (by simp [hlater])
            exact ⟨ps, flatPieces_succ hps⟩
      | true =>
          rcases List.mem_cons.mp hc with rfl | hlater
          · exact ⟨[c], flatPieces_of_flat hflat _⟩
          · cases later with
            | nil => simp at hlater
            | cons next later =>
                rw [visit_of_next hflat rfl] at h
                obtain ⟨ps, hps⟩ := ih h c hlater
                exact ⟨ps, flatPieces_succ hps⟩

/-- A measure that is never cut ends for some budget exactly if not every depth leaves a piece to
split. -/
theorem exists_measure_never_iff {c : κ} :
    (∃ budget m, measure budget tolerance never c = some m) ↔
      ∃ depth, ∀ w : List Side, w.length = depth → ¬ SplitsAlong tolerance c w := by
  constructor
  · rintro ⟨budget, m, hmeasure⟩
    obtain ⟨ps, hps⟩ := exists_flatPieces_of_visit hmeasure c List.mem_cons_self
    refine ⟨budget, ?_⟩
    intro w hlength hsplits
    have hnone : flatPieces tolerance budget c = none :=
      flatPieces_eq_none_iff.mpr ⟨w, hlength, hsplits⟩
    rw [hnone] at hps
    simp at hps
  · rintro ⟨depth, hdepth⟩
    cases hps : flatPieces tolerance depth c with
    | none =>
        obtain ⟨w, hlength, hsplits⟩ := flatPieces_eq_none_iff.mp hps
        exact absurd hsplits (hdepth w hlength)
    | some ps =>
        obtain ⟨m, hm⟩ := exists_measure_of_flatPieces hps le_rfl never
        exact ⟨_, m, hm⟩

end ArcLength.Curve
