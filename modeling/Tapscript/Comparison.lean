import Tapscript.Fault

/-!
# Comparisons

Two records compare field by field: the first difference decides. A field with no number differs
from every number and is neither less nor greater, so records may be unequal and have no order.
-/

namespace Tapscript

/-- Whether two things are equal, and how they are ordered if they can be. -/
structure Comparison where
  equal : Bool
  order : Option Ordering
  deriving DecidableEq, Repr

namespace Comparison

/-- Equal, and so neither less nor greater. -/
def same : Comparison := ⟨true, some .eq⟩

/-- Unequal, and neither less nor greater. -/
def unordered : Comparison := ⟨false, none⟩

/-- The answer to a question about the order; there is none when there is no order. -/
def ask (c : Comparison) (question : Ordering → Bool) : Except Fault Bool :=
  match c.order with
  | some o => .ok (question o)
  | none => .error .mismatch

/-- Compares two lists of amounts by their first difference. -/
def ofAmounts : List (Option Nat × Option Nat) → Comparison
  | [] => same
  | (some m, some n) :: rest => if m = n then ofAmounts rest else ⟨false, some (compare m n)⟩
  | (none, none) :: rest => ofAmounts rest
  | _ :: _ => unordered

end Comparison

end Tapscript
