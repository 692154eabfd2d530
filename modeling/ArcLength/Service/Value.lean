import ArcLength.Decimal

/-!
# Request bodies

A body is a tree of values. Only its top and the fields there are ever looked at.
-/

namespace ArcLength.Service

inductive Value where
  | null
  | bool (b : Bool)
  /-- A number written without a point and without an exponent. -/
  | integer (n : Int)
  /-- Any other number. -/
  | number (d : Decimal)
  | text (s : String)
  | list (items : List Value)
  | record (fields : List (String × Value))
deriving Inhabited

end ArcLength.Service
