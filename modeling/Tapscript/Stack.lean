import Tapscript.Admission

/-!
# Stacks

A stack holds items, a running count of its bytes, and the bounds it was made with. Items are kept
top first. The byte count is kept beside the items and not computed from them, so the two can be
compared (`Family.audit`). Like every running count it may be left without a number, and then it
cannot be moved.
-/

namespace Tapscript

/-- The bounds a stack is made with: on the number of items, and on their bytes. -/
structure Bounds where
  count : Bound := some maxStackElements
  bytes : Bound := some maxStackMemory
  deriving DecidableEq, Repr

/-- A running count. Without a number it can be neither moved nor compared. -/
abbrev Counter := Option Int

/-- The number a counter stands at. -/
def Counter.number (c : Counter) : Except Fault Int :=
  match c with
  | some n => .ok n
  | none => .error .mismatch

@[simp]
theorem Counter.number_some (n : Int) : Counter.number (some n) = .ok n := rfl

@[simp]
theorem Counter.number_none : Counter.number none = .error .mismatch := rfl

structure Stack where
  bounds : Bounds
  /-- The running count of bytes. -/
  size : Counter := some 0
  /-- The items, top first. -/
  items : List Item := []
  deriving DecidableEq, Repr

namespace Stack

/-- The number of items. -/
def depth (s : Stack) : Nat := s.items.length

/-- The items from the bottom to the top. -/
def bottomUp (s : Stack) : List Item := s.items.reverse

def isEmpty (s : Stack) : Bool := s.items.isEmpty

/-- Whether some item is true. -/
def anyTrue (s : Stack) : Bool := Item.anyTrue s.bottomUp

/-! ## Looking at items -/

/-- The item `depth` places below the top. -/
def peek (s : Stack) (depth : Int) : Except Fault Item :=
  match (if 0 ≤ depth then s.items[depth.toNat]? else none) with
  | some x => .ok x
  | none => .error (.refused (.peekOutside s.depth (depth + 1)))

/-- The item at a position counted from the bottom, or from the top when it is negative. -/
def get (s : Stack) (index : Int) : Except Fault Item :=
  match (position? s.depth index).bind (s.bottomUp[·]?) with
  | some x => .ok x
  | none => .error .outOfRange

/-- A slice of the items, counted from the bottom. -/
def slice (s : Stack) (range : Slice) : Except Fault (List Item) :=
  range.pick s.bottomUp.toArray

/-- Whether some item equals a value. -/
def contains (s : Stack) (v : Value) : Bool := s.bottomUp.any v.equals

/-- The printed form. -/
def printed (s : Stack) : List Char :=
  "BoundedStack(".toList ++ Item.printedList s.bottomUp ++ [')']

end Stack

end Tapscript
