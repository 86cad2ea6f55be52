import Mathlib.Algebra.Order.Round
import Mathlib.Data.Int.Log
import Mathlib.Tactic

/-!
# Rounding to a number of binary digits
-/

namespace RallyDB.Lib

variable {K : Type*} [Field K] [LinearOrder K] [IsStrictOrderedRing K] [FloorRing K] {x y : K} {p : ℕ}

end RallyDB.Lib
