import ArcLength.CommandLine
import ArcLength.Proofs.Comparison
import ArcLength.Proofs.Likeness
import ArcLength.Proofs.Serving
import ArcLength.Proofs.Validation

/-!
# The front ends agree with the queries

The service walks paths by itself, from the distance as it was sent, where a query of a path starts
from the distance raised to zero. A distance that passes the checks is a zero or above zero, so both
compare alike and settle the same approach. What they answer differs at most in the sign of a zero.
The command line asks the queries themselves.
-/

namespace ArcLength

section Settle

variable {t : State Float} {d d' : Float}

end Settle

namespace Service

/-- The same response up to the sign of zero. -/
inductive Response.Alike : Response Float → Response Float → Prop where
  | refl (response : Response Float) : Alike response response
  | point {x x' y y' : Option Float} {success : Bool} {index : Int}
      (hx : Option.Rel Binary64.Alike x x') (hy : Option.Rel Binary64.Alike y y') :
      Alike (.ok (.point x y success index)) (.ok (.point x' y' success index))

variable {budget : Nat} {fields : Fields} {d : String} {tolerance : Float} {p : Path Float}

section Place

variable {distance : Float}

end Place

end Service

namespace CommandLine

variable {budget : Nat} {arguments : List String} {d : String} {p : Path Float} {tolerance : Float}
  {s : Settings} {code : Nat} {output errors : List String}

end CommandLine

namespace Service

end Service

namespace CommandLine

end CommandLine

end ArcLength
