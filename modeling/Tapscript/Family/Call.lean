import Tapscript.Family

/-!
# Calls on the members of a family

The calls that make a family grow, fill and drain, as data, so that a history of a family is a list
of calls.
-/

namespace Tapscript

/-- What a call returns. -/
inductive Reply where
  | done
  | item (x : Item)
  /-- Items in the order they are listed. -/
  | items (xs : List Item)
  | bounds (b : Bounds)
  | number (n : Nat)
  | flag (b : Bool)
  /-- Whether two things are equal. -/
  | equality (equal : Bool)
  /-- The number of items of a stack. -/
  | occupancy (depth : Nat)
  | text (s : String)
  deriving DecidableEq, Repr

namespace Family

inductive Call where
  | push (v : Value)
  | pop
  | peek (depth : Value)
  | extend (v : Value)
  | clear
  | child

/-- Makes a call on member `i`. -/
def perform (i : Nat) : Call → Action Family Reply
  | .push v => do
    push i v
    return .done
  | .pop => return .item (← pop i)
  | .peek depth => return .item (← peek i (← Action.check depth.toInt))
  | .extend v => do
    extend i v
    return .done
  | .clear => do
    clear i
    return .done
  | .child => return .bounds (← makeChild i).bounds

end Family

end Tapscript
