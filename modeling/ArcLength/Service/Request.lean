import ArcLength.Binary64
import ArcLength.Service.Numeral
import ArcLength.Service.Value

/-!
# Requests

Bodies are checked field by field, in the order of the field names, and all issues are reported
together. Texts and truth values that stand for numbers are accepted, and unknown fields are
ignored.
-/

namespace ArcLength.Service

variable {α : Type} [Scalar α]

structure LengthRequest (α : Type) where
  d : String
  tolerance : Option α

structure PlaceRequest (α : Type) where
  d : String
  distance : α
  tolerance : Option α

structure SampleRequest (α : Type) where
  count : Int
  d : String
  tolerance : Option α

/-- Whether a scalar is neither infinite nor no number. -/
def isFinite (a : α) : Bool := a - a == 0

/-- A checked value, or what is wrong with it. -/
abbrev Checked (β : Type) := Except Fault β

def checkText : Value → Checked String
  | .text s => .ok s
  | _ => .error .notText

def numeralOf (n : Int) : Decimal := ⟨n < 0, n.natAbs, 0⟩

/-- A number of the scalars. A whole number that is too large for them is none. -/
def checkNumber : Value → Checked α
  | .integer n =>
    let a : α := Scalar.ofDecimal (numeralOf n)
    if isFinite a then .ok a else .error .notANumber
  | .number d => .ok (Scalar.ofDecimal d)
  | .bool b => .ok (if b then 1 else 0)
  | .text s =>
    match readNumber? s with
    | some literal => .ok literal.value
    | none => .error .unreadableNumber
  | _ => .error .notANumber

/-- A finite distance from zero up. -/
def checkDistance (v : Value) : Checked α := do
  let a ← checkNumber v
  if !isFinite a then throw .notFinite
  if (0 : α) ≤ a then return a else throw .negative

/-- A tolerance above zero, or none. -/
def checkTolerance : Value → Checked (Option α)
  | .null => .ok none
  | v => do
    let a ← checkNumber v
    if (0 : α) < a then return some a else throw .notPositive

/-- Doubles from this size up are not taken for whole numbers. -/
def wholeLimit : Nat := Nat.pow 2 63

def wholeOf (x : Float) : Checked Int :=
  match Binary64.expand x with
  | .finite negative significand exponent =>
    let unit := Nat.pow 2 (-exponent).toNat
    let size := significand * Nat.pow 2 exponent.toNat
    if size % unit != 0 then .error .fractional
    else if wholeLimit ≤ size / unit then .error .tooLarge
    else
      let whole : Int := (size / unit : Nat)
      .ok (if negative then -whole else whole)
  | _ => .error .notFinite

/-- A whole number. Numbers with a point or an exponent are doubles. -/
def checkInteger : Value → Checked Int
  | .integer n => .ok n
  | .number d => wholeOf (Binary64.ofDecimal d)
  | .bool b => .ok (if b then 1 else 0)
  | .text s => readInteger s
  | _ => .error .notAnInteger

/-- A number of points from two up. -/
def checkCount (v : Value) : Checked Int := do
  let n ← checkInteger v
  if 2 ≤ n then return n else throw .tooFew

/-- The fields of a body. -/
abbrev Fields := List (String × Value)

/-- A value, or all issues that stand in its way. -/
abbrev Validated (β : Type) := Except (List Issue) β

/-- Two values, or the issues of both. -/
def Validated.both {β γ : Type} (v : Validated β) (w : Validated γ) : Validated (β × γ) :=
  match v, w with
  | .ok b, .ok c => .ok (b, c)
  | .ok _, .error issues => .error issues
  | .error issues, .ok _ => .error issues
  | .error first, .error second => .error (first ++ second)

def required {β : Type} (fields : Fields) (name : String) (check : Value → Checked β) :
    Validated β :=
  match fields.lookup name with
  | none => .error [⟨some name, .missing⟩]
  | some v => (check v).mapError fun fault => [⟨some name, fault⟩]

def optional {β : Type} (fields : Fields) (name : String)
    (check : Value → Checked (Option β)) : Validated (Option β) :=
  match fields.lookup name with
  | none => .ok none
  | some v => (check v).mapError fun fault => [⟨some name, fault⟩]

def fieldsOf : Option Value → Validated Fields
  | some (.record fields) => .ok fields
  | none => .error [⟨none, .missing⟩]
  | some .null => .error [⟨none, .missing⟩]
  | some _ => .error [⟨none, .notARecord⟩]

def LengthRequest.ofBody (body : Option Value) : Validated (LengthRequest α) := do
  let fields ← fieldsOf body
  let (d, tolerance) ← Validated.both (required fields "d" checkText)
    (optional fields "tolerance" checkTolerance)
  return { d, tolerance }

def PlaceRequest.ofBody (body : Option Value) : Validated (PlaceRequest α) := do
  let fields ← fieldsOf body
  let (d, distance, tolerance) ← Validated.both (required fields "d" checkText)
    (Validated.both (required fields "distance" checkDistance)
      (optional fields "tolerance" checkTolerance))
  return { d, distance, tolerance }

def SampleRequest.ofBody (body : Option Value) : Validated (SampleRequest α) := do
  let fields ← fieldsOf body
  let (count, d, tolerance) ← Validated.both (required fields "count" checkCount)
    (Validated.both (required fields "d" checkText)
      (optional fields "tolerance" checkTolerance))
  return { count, d, tolerance }

end ArcLength.Service
