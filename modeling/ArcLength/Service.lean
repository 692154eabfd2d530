import ArcLength.Service.Response
import ArcLength.Service.Target

/-!
# The service

Handlers for the requests that come over the network, and their routes. Each handler checks its
request, reads the path data and asks the path. It leaves open how paths are measured, so that what
it asks can also be observed. The service measures within a budget; running out of it is no answer.
-/

namespace ArcLength.Service

variable {α : Type} [Scalar α]

def version : String := "0.1.0"

/-- The greatest number of points in one answer. -/
def maximalSamples : Nat := 1000

def readPath (d : String) : Except Refusal (Path α) :=
  match Path.ofData d with
  | .ok p => .ok p
  | .error (.rejected r) => .error (.rejected d r)
  | .error .unanchoredClose => .error .internalError

/-- What the handlers ask of paths: to read path data, to walk a path and to sample one. -/
structure Measuring (m : Type → Type) (α : Type) where
  read : String → m (Except Refusal (Path α))
  walk : Path α → State α → m (State α)
  samplePoints : Path α → Int → α → m (List (Point α))

/-- Measuring that gives nothing where the budget runs out. -/
def Measuring.within (budget : Nat) : Measuring Option α where
  read d := some (readPath d)
  walk := Path.walk budget
  samplePoints := Path.samplePoints budget

section Handlers

variable {m : Type → Type} [Monad m] (paths : Measuring m α)

/-- The answer made from a path. -/
def answerWith (d : String) (measure : Path α → m (Answer α)) : m (Response α) := do
  match ← paths.read d with
  | .ok p => return .ok (← measure p)
  | .error r => return .error r

def length (r : LengthRequest α) : m (Response α) :=
  answerWith paths r.d fun p => do
    let length ← Query.length paths.walk p (r.tolerance.getD defaultTolerance)
    return .length (finite? length) p.size

/-- The walk of a request for a place. -/
def walkTo (goal : Goal) (r : PlaceRequest α) (p : Path α) : m (State α) :=
  paths.walk p (.initial goal r.distance (r.tolerance.getD defaultTolerance))

def pointAtLength (r : PlaceRequest α) : m (Response α) :=
  answerWith paths r.d fun p => do
    let s ← walkTo paths .pointAtLength r p
    return .point (finite? s.current.x) (finite? s.current.y) s.success s.segmentIndex

def normalAngleAtLength (r : PlaceRequest α) : m (Response α) :=
  answerWith paths r.d fun p => do
    let s ← walkTo paths .normalAngleAtLength r p
    return .angle (finite? s.normalAngle) s.success s.segmentIndex

/-- The number of points is checked before the path data is read. -/
def sample (r : SampleRequest α) : m (Response α) :=
  if (maximalSamples : Int) < r.count then return .error (.tooManyPoints maximalSamples)
  else
    answerWith paths r.d fun p => do
      let tolerance := r.tolerance.getD defaultTolerance
      let points ← paths.samplePoints p r.count tolerance
      let length ← Query.length paths.walk p tolerance
      return .sample (finite? length) (points.map fun q => (finite? q.x, finite? q.y))

/-- Hands a request that passes its checks to a handler. -/
def withRequest {ρ : Type} (request : Validated ρ) (handler : ρ → m (Response α)) :
    m (Response α) :=
  match request with
  | .ok r => handler r
  | .error issues => return .error (.invalid issues)

end Handlers

inductive Endpoint where
  | health
  | length
  | pointAtLength
  | normalAngleAtLength
  | sample
deriving DecidableEq, Repr

namespace Endpoint

def all : List Endpoint := [health, length, pointAtLength, normalAngleAtLength, sample]

def path : Endpoint → String
  | health => "/api/health"
  | length => "/api/length"
  | pointAtLength => "/api/point-at-length"
  | normalAngleAtLength => "/api/normal-angle-at-length"
  | sample => "/api/sample"

/-- The one method that the endpoint allows. -/
def method : Endpoint → String
  | health => "GET"
  | _ => "POST"

def ofTarget? (target : String) : Option Endpoint :=
  let place := Target.place target
  all.find? fun e => e.path == place

end Endpoint

/-- The handler of an endpoint, for any way to measure paths. -/
def Endpoint.respondBy {m : Type → Type} [Monad m] (paths : Measuring m α) (body : Option Value) :
    Endpoint → m (Response α)
  | .health => return .ok (.health "ok" version)
  | .length => withRequest (LengthRequest.ofBody body) (Service.length paths)
  | .pointAtLength => withRequest (PlaceRequest.ofBody body) (Service.pointAtLength paths)
  | .normalAngleAtLength =>
    withRequest (PlaceRequest.ofBody body) (Service.normalAngleAtLength paths)
  | .sample => withRequest (SampleRequest.ofBody body) (Service.sample paths)

def Endpoint.respond (budget : Nat) (body : Option Value) (e : Endpoint) : Option (Response α) :=
  e.respondBy (.within budget) body

/-- The capitals of a character. Beyond ASCII only the long s and the ligatures of s and t have
capitals that the methods are written with. -/
def capitals (c : Char) : List Char :=
  if c == 'ſ' then ['S']
  else if c == 'ﬅ' || c == 'ﬆ' then ['S', 'T']
  else [c.toUpper]

/-- Whether a method is the one that an endpoint allows, in either case. -/
def Endpoint.allows (e : Endpoint) (method : String) : Bool :=
  e.method.toList == method.toList.flatMap capitals

/-- Answers a request; `none` if the budget runs out. -/
def handle (budget : Nat) (method target : String) (body : Option Value) : Option (Response α) :=
  match Endpoint.ofTarget? target with
  | none => some (.error .notFound)
  | some endpoint =>
    if endpoint.allows method then endpoint.respond budget body
    else some (.error .methodNotAllowed)

end ArcLength.Service
