import Tapscript.Family.Call

/-!
# Forests

Several families side by side, with their stacks numbered in the order they were made. A command
names the stack it works on by its number; a negative number counts from the last stack. Besides the
calls on one family there are commands that look at a stack, that move items between two stacks,
which may belong to different families, and that start a new family.

A forest is how a `Store` of stacks with parents looks when every stack has climbed to its root
(`Store.deed_forest`).
-/

namespace Tapscript

/-- Where a stack lives: the number of its family, and its number in the family. -/
structure Address where
  family : Nat
  member : Nat
  deriving DecidableEq, Repr

structure Forest where
  families : List Family
  /-- The addresses of the stacks, in the order of their numbers. -/
  addresses : List Address
  deriving DecidableEq, Repr

namespace Forest

/-- A forest of one family, in which some members are numbered. -/
def ofFamily (f : Family) (numbered : List Nat) : Forest :=
  ⟨[f], numbered.map (⟨0, ·⟩)⟩

/-- A forest of one empty stack. -/
def ofBounds (bounds : Bounds) : Forest := ofFamily (Family.ofBounds bounds) [0]

/-! ## Stacks by their numbers -/

/-- The address of a stack. -/
def locate (number : Int) : Action Forest Address := fun w =>
  match (position? w.addresses.length number).bind (w.addresses[·]?) with
  | some a => .ok a w
  | none => .error .outOfRange w

/-- Works on one family. -/
def onFamily {α : Type} (k : Nat) (act : Action Family α) : Action Forest α := fun w =>
  match w.families[k]? with
  | none => .error .outOfRange w
  | some f =>
    match act f with
    | .ok a f' => .ok a { w with families := w.families.set k f' }
    | .error e f' => .error e { w with families := w.families.set k f' }

/-- The contents of a stack. -/
def stack (number : Int) : Action Forest Stack := do
  let a ← locate number
  onFamily a.family (Family.member a.member)

/-- The stacks with the totals of their families, in the order of their numbers. -/
def listing (w : Forest) : List (Stack × Tally) :=
  w.addresses.filterMap fun a => do
    let f ← w.families[a.family]?
    return (← f.members[a.member]?, f.held)

/-! ## Commands -/

inductive Command where
  /-- A call on the family of the stack. -/
  | call (c : Family.Call)
  /-- Puts all items of another stack, or of the same one, on top. -/
  | extendFrom (source : Int)
  /-- Takes the top item and puts it on another stack. It is lost if that stack refuses it. -/
  | move (target : Int)
  /-- Starts a new family. -/
  | plant (bounds : Bounds)
  /-- The number of the root of the family. -/
  | root
  | get (index : Value)
  | slice (range : Slice)
  | ascending
  | descending
  | contains (v : Value)
  | equalsStack (other : Int)
  | equalsValue (v : Value)
  | print
  | occupancy
  | truthy
  | check
  | override (o : Family.Override)
  | replaceItems (v : Value)

/-- Runs a command on the stack with a given number. -/
def perform (number : Int) : Command → Action Forest Reply
  | .call c => do
    let a ← locate number
    let reply ← onFamily a.family (Family.perform a.member c)
    if let .child := c then
      modify fun w =>
        let size := (w.families[a.family]?.map (·.members.length)).getD 0
        { w with addresses := w.addresses ++ [⟨a.family, size - 1⟩] }
    return reply
  | .extendFrom source => do
    let a ← locate number
    let items := (← stack source).bottomUp
    onFamily a.family (Family.pushItems a.member items)
    return .done
  | .move target => do
    let a ← locate number
    let b ← locate target
    let x ← onFamily a.family (Family.pop a.member)
    onFamily b.family (Family.pushItem b.member x)
    return .done
  | .plant bounds => do
    modify fun w =>
      { families := w.families ++ [Family.ofBounds bounds]
        addresses := w.addresses ++ [⟨w.families.length, 0⟩] }
    return .bounds bounds
  | .root => do
    let a ← locate number
    return .number ((← get).addresses.idxOf ⟨a.family, 0⟩)
  | .get index => do
    let s ← stack number
    return .item (← Action.check (do s.get (← index.toInt)))
  | .slice range => return .items (← Action.check ((← stack number).slice range))
  | .ascending => return .items (← stack number).bottomUp
  | .descending => return .items (← stack number).items
  | .contains v => return .flag ((← stack number).contains v)
  | .equalsStack other => do
    let s ← stack number
    return .equality (s.items == (← stack other).items)
  | .equalsValue v => return .equality (v.equalsList (← stack number).bottomUp)
  | .print => return .text (String.ofList (← stack number).printed)
  | .occupancy => return .occupancy (← stack number).depth
  | .truthy => return .flag (← stack number).anyTrue
  | .check => do
    let a ← locate number
    onFamily a.family do
      let s ← Family.member a.member
      Action.check ((← get).audit s)
    return .done
  | .override o => do
    let a ← locate number
    onFamily a.family (Family.override a.member o)
    return .done
  | .replaceItems v => do
    let a ← locate number
    onFamily a.family (Family.replaceItems a.member v)
    return .done

end Forest

end Tapscript
