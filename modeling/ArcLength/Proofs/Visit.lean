import ArcLength.Curve.Subdivision

/-!
# Visiting the pieces of a curve

Halving keeps the outer ends of a piece, so a visit that is never cut ends where the curve ends. A
visit that may be cut takes the same steps until the cut: it either stops early or comes to the
same measure. Nothing here is a fact of arithmetic.
-/

namespace ArcLength.Curve

variable {κ α : Type} [Curve κ α]

/-- Halving keeps the outer ends and leaves no gap between the halves. -/
class Lawful (κ : Type) {α : Type} [Curve κ α] : Prop where
  start_left : ∀ c : κ, start (split c).1 = start c
  finish_left : ∀ c : κ, finish (split c).1 = start (split c).2
  finish_right : ∀ c : κ, finish (split c).2 = finish c

instance [Scalar α] : Lawful (QuadraticCurve α) where
  start_left _ := rfl
  finish_left _ := rfl
  finish_right _ := rfl

instance [Scalar α] : Lawful (CubicCurve α) where
  start_left _ := rfl
  finish_left _ := rfl
  finish_right _ := rfl

variable [Scalar α] {tolerance : α} {enough : α → Bool}

abbrev never : α → Bool := fun _ => false

section Step

variable {piece : κ} {later : List κ} {length : α}

theorem visit_of_enough (hflat : isFlat tolerance piece = true)
    (henough : enough (length + polygonLength piece) = true) (budget : Nat) :
    visit tolerance enough (budget + 1) piece later length =
      some ⟨length + polygonLength piece, piece⟩ := by
  simp [visit, hflat, henough]

theorem visit_of_last (hflat : isFlat tolerance piece = true)
    (hopen : enough (length + polygonLength piece) = false) (budget : Nat) :
    visit tolerance enough (budget + 1) piece [] length =
      some ⟨length + polygonLength piece, piece⟩ := by
  simp [visit, hflat, hopen]

theorem visit_of_next {next : κ} (hflat : isFlat tolerance piece = true)
    (hopen : enough (length + polygonLength piece) = false) (budget : Nat) :
    visit tolerance enough (budget + 1) piece (next :: later) length =
      visit tolerance enough budget next later (length + polygonLength piece) := by
  simp [visit, hflat, hopen]

theorem visit_of_not_flat (hflat : isFlat tolerance piece = false) (budget : Nat) :
    visit tolerance enough (budget + 1) piece later length =
      visit tolerance enough budget (split piece).1 ((split piece).2 :: later) length := by
  simp [visit, hflat]

end Step

/-- A visit that ends without being cut is the visit that is never cut. -/
theorem visit_never_of_uncut {budget : Nat} {piece : κ} {later : List κ} {length : α}
    {m : Measured κ α} (h : visit tolerance enough budget piece later length = some m)
    (huncut : enough m.length = false) :
    visit tolerance never budget piece later length = some m := by
  induction budget generalizing piece later length with
  | zero => simp [visit] at h
  | succ budget ih =>
      cases hflat : isFlat tolerance piece with
      | false =>
          rw [visit_of_not_flat hflat] at h ⊢
          exact ih h
      | true =>
          cases hcut : enough (length + polygonLength piece) with
          | true =>
              rw [visit_of_enough hflat hcut] at h
              obtain rfl := Option.some.inj h
              exact absurd hcut (by simp [huncut])
          | false =>
              cases later with
              | nil =>
                  rw [visit_of_last hflat hcut] at h
                  rw [visit_of_last hflat rfl, h]
              | cons next later =>
                  rw [visit_of_next hflat hcut] at h
                  rw [visit_of_next hflat rfl]
                  exact ih h

/-- Where the visit that is never cut ends, every other visit ends too. It is cut, or it comes to
the same. -/
theorem exists_visit_of_never {budget : Nat} {piece : κ} {later : List κ} {length : α}
    {m : Measured κ α} (h : visit tolerance never budget piece later length = some m)
    (enough : α → Bool) :
    ∃ m', visit tolerance enough budget piece later length = some m' ∧
      (enough m'.length = true ∨ m' = m) := by
  induction budget generalizing piece later length with
  | zero => simp [visit] at h
  | succ budget ih =>
      cases hflat : isFlat tolerance piece with
      | false =>
          rw [visit_of_not_flat hflat] at h ⊢
          exact ih h
      | true =>
          cases hcut : enough (length + polygonLength piece) with
          | true => exact ⟨_, visit_of_enough hflat hcut budget, Or.inl hcut⟩
          | false =>
              cases later with
              | nil =>
                  rw [visit_of_last hflat rfl] at h
                  rw [visit_of_last hflat hcut]
                  exact ⟨m, h, Or.inr rfl⟩
              | cons next later =>
                  rw [visit_of_next hflat rfl] at h
                  rw [visit_of_next hflat hcut]
                  exact ih h

theorem finish_visit_never [Lawful κ] {budget : Nat} {piece : κ} {later : List κ} {length : α}
    {m : Measured κ α} (h : visit tolerance never budget piece later length = some m) :
    finish m.last = finish ((piece :: later).getLast (List.cons_ne_nil piece later)) := by
  induction budget generalizing piece later length with
  | zero => simp [visit] at h
  | succ budget ih =>
      cases hflat : isFlat tolerance piece with
      | false =>
          rw [visit_of_not_flat hflat] at h
          cases later with
          | nil => simpa [Lawful.finish_right] using ih h
          | cons next later => simpa using ih h
      | true =>
          cases later with
          | nil =>
              rw [visit_of_last hflat rfl] at h
              obtain rfl := Option.some.inj h
              rfl
          | cons next later =>
              rw [visit_of_next hflat rfl] at h
              simpa using ih h

theorem finish_measure_of_uncut [Lawful κ] {budget : Nat} {c : κ} {m : Measured κ α}
    (h : measure budget tolerance enough c = some m) (huncut : enough m.length = false) :
    finish m.last = finish c :=
  finish_visit_never (visit_never_of_uncut h huncut)

end ArcLength.Curve
