import ArcLength.Proofs.Serving

/-!
# What a request calls

Reading path data, walking a path and sampling one are what the service asks of paths. The handlers
leave open how this is done. Here they run on recorded calls: each call is listed with its arguments,
in order, and calls what it calls in the service. Recording changes no result.
-/

namespace ArcLength.Service

/-- A call that a handler makes, or a call made on its way. -/
inductive Call (α : Type) where
  | read (d : String)
  | walk (start : State α)
  | sample (count : Int) (tolerance : α)
deriving DecidableEq

/-- A result that may be missing, and the calls made on the way to it. -/
structure Recorded (α β : Type) where
  calls : List (Call α)
  result : Option β

namespace Recorded

variable {α β γ : Type}

/-- Calls for something and goes on with what comes back. -/
def called (call : Call α) (x : Recorded α β) : Recorded α β := ⟨call :: x.calls, x.result⟩

instance : Monad (Recorded α) where
  pure b := ⟨[], some b⟩
  bind x f :=
    { calls := x.calls ++ x.result.elim [] fun b => (f b).calls
      result := x.result.bind fun b => (f b).result }

instance : LawfulMonad (Recorded α) := by
  refine LawfulMonad.mk' (Recorded α) ?_ ?_ ?_
  · rintro β ⟨calls, _ | b⟩ <;> simp [Functor.map]
  · intro β γ b f
    rfl
  · rintro β γ δ ⟨calls, _ | b⟩ f g
    · simp [bind]
    · cases hresult : (f b).result <;> simp [bind, hresult]

variable [Scalar α]

def walk (budget : Nat) (p : Path α) (s : State α) : Recorded α (State α) :=
  called (.walk s) ⟨[], p.walk budget s⟩

end Recorded

variable {α : Type} [Scalar α]

/-- Measuring within a budget on record. Sampling calls for walks in turn. -/
def Measuring.recording (budget : Nat) : Measuring (Recorded α) α where
  read d := .called (.read d) (pure (readPath d))
  walk := .walk budget
  samplePoints p count tolerance :=
    .called (.sample count tolerance) (Query.samplePoints (.walk budget) p count tolerance)

/-- The response of an endpoint, with the calls on the way to it. -/
def Endpoint.record (budget : Nat) (body : Option Value) (e : Endpoint) :
    Recorded α (Response α) :=
  e.respondBy (.recording budget) body

namespace Recorded

section Results

variable {budget : Nat}

end Results

section Only

variable {β γ : Type} {P : Call α → Prop} {call : Call α} {x : Recorded α β}

variable {budget : Nat} {p : Path α} {tolerance : α}

end Only

end Recorded

section Handlers

variable {budget : Nat} {P : Call α → Prop}

end Handlers

end ArcLength.Service
