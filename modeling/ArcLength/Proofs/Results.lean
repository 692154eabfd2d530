import Mathlib.Logic.Relation

/-!
# Results

Facts on results that may be missing or faulty.
-/

namespace ArcLength

theorem exists_of_bind_eq_ok {ε A B : Type} {x : Except ε A} {f : A → Except ε B} {c : B}
    (h : x >>= f = .ok c) : ∃ a, x = .ok a ∧ f a = .ok c := by
  cases x with
  | error e => cases h
  | ok a => exact ⟨a, rfl, h⟩

section Rel

variable {A B C D : Type} {R R' : A → B → Prop} {S : C → D → Prop} {T : B → C → Prop}
  {a : Option A} {b : Option B} {c : Option C}

theorem isSome_eq_of_rel (h : Option.Rel R a b) : a.isSome = b.isSome := by
  cases h <;> rfl

theorem exists_of_rel_some {x : A} (h : Option.Rel R (some x) b) : ∃ y, b = some y ∧ R x y := by
  cases h with
  | some hxy => exact ⟨_, rfl, hxy⟩

theorem eq_none_of_rel_none (h : Option.Rel R none b) : b = none := by
  cases h
  rfl

theorem rel_mono (h : Option.Rel R a b)
    (hvalues : ∀ x y, a = some x → b = some y → R x y → R' x y) : Option.Rel R' a b := by
  cases h with
  | none => exact .none
  | some hxy => exact .some (hvalues _ _ rfl rfl hxy)

theorem rel_comp (h : Option.Rel R a b) (h' : Option.Rel T b c) :
    Option.Rel (Relation.Comp R T) a c := by
  cases h with
  | none =>
      cases h'
      exact .none
  | some hxy =>
      cases h' with
      | some hyz => exact .some ⟨_, hxy, hyz⟩

theorem rel_map {f : A → C} {g : B → D} (h : Option.Rel R a b)
    (hvalues : ∀ x y, a = some x → b = some y → R x y → S (f x) (g y)) :
    Option.Rel S (a.map f) (b.map g) := by
  cases h with
  | none => exact .none
  | some hxy => exact .some (hvalues _ _ rfl rfl hxy)

theorem rel_bind {f : A → Option C} {g : B → Option D} (h : Option.Rel R a b)
    (hvalues : ∀ x y, a = some x → b = some y → R x y → Option.Rel S (f x) (g y)) :
    Option.Rel S (a.bind f) (b.bind g) := by
  cases h with
  | none => exact .none
  | some hxy => exact hvalues _ _ rfl rfl hxy

end Rel

end ArcLength
