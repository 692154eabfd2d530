import ArcLength.Path.Query
import ArcLength.PathData
import ArcLength.Service.Request

/-!
# Responses

What the service answers, with the status of each answer. Numbers that are not finite are left out.
-/

namespace ArcLength.Service

inductive Answer (α : Type) where
  | health (status version : String)
  | length (length : Option α) (segmentCount : Nat)
  | point (x y : Option α) (success : Bool) (segmentIndex : Int)
  | angle (angle : Option α) (success : Bool) (segmentIndex : Int)
  | sample (length : Option α) (points : List (Option α × Option α))
deriving DecidableEq, Repr

/-- Why there is no answer. -/
inductive Refusal where
  | notFound
  | methodNotAllowed
  | invalid (issues : List Issue)
  /-- More points are asked for than the service gives. -/
  | tooManyPoints (limit : Nat)
  | rejected (d : String) (r : PathData.Rejection)
  /-- A failure that the service does not foresee. -/
  | internalError
deriving DecidableEq, Repr

abbrev Response (α : Type) := Except Refusal (Answer α)

def Refusal.status : Refusal → Nat
  | .notFound => 404
  | .methodNotAllowed => 405
  | .invalid _ => 422
  | .tooManyPoints _ => 422
  | .rejected _ _ => 422
  | .internalError => 500

def Refusal.detail : Refusal → String
  | .notFound => "Not Found"
  | .methodNotAllowed => "Method Not Allowed"
  | .invalid issues => "; ".intercalate (issues.map fun i => i.fault.message)
  | .tooManyPoints limit => s!"count must be at most {limit}"
  | .rejected d r => r.message d
  | .internalError => "Internal Server Error"

def status {α : Type} : Response α → Nat
  | .ok _ => 200
  | .error r => r.status

/-- A number as it is answered. -/
def finite? {α : Type} [Scalar α] (a : α) : Option α := if isFinite a then some a else none

end ArcLength.Service
