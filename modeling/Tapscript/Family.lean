import Tapscript.Action
import Tapscript.Stack

/-!
# Families of stacks

A family grows from one root stack by making children of its members. The members hold their own
items, but they draw on one allowance: whatever member an item is put on, it counts towards the
totals of the family, and the totals are held to the bounds of the root. The bounds a child is made
with are never consulted.

Adding items first reserves room for all of them, so a refused addition changes nothing. After the
contents of a member have changed the totals follow; should one of them turn out negative or have no
number, the family was tampered with (`Family.override`), and the action stops with the changes that
are already made.

The root is member `0`; the children follow in the order they were made. A family does not know whose
child a child is. A `Store` does, where each stack has a parent and climbs to its root; its families are
what is said here (`Store.call_mirrors_family`).
-/

namespace Tapscript

/-- The items and bytes on all members of a family together. -/
structure Tally where
  count : Counter := some 0
  bytes : Counter := some 0
  deriving DecidableEq, Repr

namespace Tally

/-- Refuses unless `count` more items with `bytes` bytes fit the bounds. -/
def reserve (held : Tally) (bounds : Bounds) (count bytes : Int) : Except Fault Unit := do
  let heldCount ← held.count.number
  bounds.count.check (heldCount + count) fun most => .refused (.tooManyItems most count)
  let heldBytes ← held.bytes.number
  bounds.bytes.check (heldBytes + bytes) fun most => .refused (.tooManyBytes most bytes)

/-- Checks the bookkeeping of one stack: its size is the bytes of its items, and it stays, as the
totals do, within the bounds. -/
def audit (held : Tally) (bounds : Bounds) (s : Stack) : Except Fault Unit := do
  if s.size ≠ some (Item.total s.items : Int) then throw .broken
  bounds.count.check s.depth fun _ => .broken
  bounds.bytes.check (Item.total s.items) fun _ => .broken
  bounds.count.check (← held.count.number) fun _ => .broken
  bounds.bytes.check (← held.bytes.number) fun _ => .broken

end Tally

structure Family where
  root : Stack
  children : List Stack := []
  held : Tally := {}
  deriving DecidableEq, Repr

namespace Family

/-! ## Members -/

/-- A family of one empty stack. -/
def ofBounds (bounds : Bounds) : Family := { root := { bounds } }

/-- The bounds of a child; they are not consulted. -/
def childBounds : Bounds := ⟨some 0, some 0⟩

def members (f : Family) : List Stack := f.root :: f.children

/-- Replaces a member. -/
def put (f : Family) : Nat → Stack → Family
  | 0, s => { f with root := s }
  | i + 1, s => { f with children := f.children.set i s }

theorem members_put (f : Family) (i : Nat) (s : Stack) :
    (f.put i s).members = f.members.set i s := by
  cases i <;> rfl

/-- A member, by its number. -/
def member (i : Nat) : Action Family Stack := fun f =>
  match f.members[i]? with
  | some s => .ok s f
  | none => .error .outOfRange f

/-! ## The allowance -/

/-- Refuses unless `count` more items with `bytes` bytes fit the bounds of the root. -/
def reserve (f : Family) (count bytes : Int) : Except Fault Unit :=
  f.held.reserve f.root.bounds count bytes

/-- Gives member `i`, so far `s`, new items, and moves the totals and then its size accordingly. At
a counter without a number the action stops, and the counters before it have moved. -/
def settle (i : Nat) (s : Stack) (items : List Item) (count bytes : Int) : Action Family Unit :=
  fun f =>
    match f.held.count, f.held.bytes, s.size with
    | none, _, _ => .error .mismatch (f.put i { s with items })
    | some c, none, _ =>
      .error .mismatch { f.put i { s with items } with held := ⟨some (c + count), none⟩ }
    | some c, some b, none =>
      .error .mismatch
        { f.put i { s with items } with held := ⟨some (c + count), some (b + bytes)⟩ }
    | some c, some b, some n =>
      let f' :=
        { f.put i { s with items, size := some (n + bytes) } with
          held := ⟨some (c + count), some (b + bytes)⟩ }
      if 0 ≤ c + count ∧ 0 ≤ b + bytes then .ok () f' else .error .broken f'

/-! ## Operations on a member -/

/-- Puts an item on top. -/
def pushItem (i : Nat) (x : Item) : Action Family Unit := do
  let s ← member i
  Action.check ((← get).reserve 1 x.size)
  settle i s (x :: s.items) 1 x.size

/-- Puts a value on top, as an item. -/
def push (i : Nat) (v : Value) : Action Family Unit := do
  pushItem i (← Action.check v.asItem)

/-- Takes the top item. -/
def pop (i : Nat) : Action Family Item := do
  let s ← member i
  match s.items with
  | [] => Action.refuse .popEmpty
  | x :: rest =>
    settle i s rest (-1) (-x.size)
    return x

/-- Puts items on top in order, the last one topmost: all of them, or none. -/
def pushItems (i : Nat) (xs : List Item) : Action Family Unit := do
  let s ← member i
  Action.check ((← get).reserve xs.length (Item.total xs))
  settle i s (xs.reverse ++ s.items) xs.length (Item.total xs)

/-- Puts the values that `v` yields on top in order. All are made items first, and the first one
that cannot be decides the fault. -/
def extend (i : Nat) (v : Value) : Action Family Unit := do
  let values ← Action.check v.elements
  pushItems i (← Action.check (values.mapM Value.asItem))

/-- Takes the top item `n` times. -/
def popMany (i : Nat) : Nat → Action Family Unit
  | 0 => pure ()
  | n + 1 => do
    let _ ← pop i
    popMany i n

/-- Takes item after item until none is left. -/
def clear (i : Nat) : Action Family Unit := do
  popMany i (← member i).depth

/-- The item some places below the top. -/
def peek (i : Nat) (depth : Int) : Action Family Item := do
  Action.check ((← member i).peek depth)

/-- Adds an empty child of a member. -/
def makeChild (i : Nat) : Action Family Stack := do
  let _ ← member i
  let child : Stack := { bounds := childBounds }
  modify fun f => { f with children := f.children ++ [child] }
  return child

/-! ## Agreement of the bookkeeping -/

/-- Checks the bookkeeping of one member against the totals and the bounds of the root. -/
def audit (f : Family) (s : Stack) : Except Fault Unit := f.held.audit f.root.bounds s

/-- New values for the bookkeeping of one member. -/
structure Override where
  countBound : Option Bound := none
  bytesBound : Option Bound := none
  size : Option Counter := none
  heldCount : Option Counter := none
  heldBytes : Option Counter := none

/-- Overwrites the bookkeeping of one member without regard to the rest. The totals are kept for
the whole family, so only the root can overwrite them. -/
def override (i : Nat) (o : Override) : Action Family Unit := do
  let s ← member i
  let bounds : Bounds :=
    { count := o.countBound.getD s.bounds.count, bytes := o.bytesBound.getD s.bounds.bytes }
  modify (·.put i { s with bounds, size := o.size.getD s.size })
  if i = 0 then
    modify fun f =>
      { f with
        held := ⟨o.heldCount.getD f.held.count, o.heldBytes.getD f.held.bytes⟩ }

/-- Gives a member the items that `v` yields, of any length and from the bottom to the top, without
regard to the bookkeeping. -/
def replaceItems (i : Nat) (v : Value) : Action Family Unit := do
  let s ← member i
  let values ← Action.check v.elements
  let items ← Action.check (values.mapM Value.wholeItem)
  modify (·.put i { s with items := items.reverse })

end Family

end Tapscript
