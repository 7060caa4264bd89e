import Tapscript.Family.Call

/-!
# Stores of stacks

All stacks stand in one store, numbered in the order they were made. A stack that was made as a child
knows the number of its parent, and nothing else of its family, so whoever looks for the root of a
family climbs from parent to parent (`Store.rootOf`). Each stack has bounds, and totals of what a
family holds. A stack reserves room and accounts for its items at the root it climbs to; the bounds and
the totals of the stacks on the way are not consulted.

The families of a store are the stacks that climb to one root, however the children hang together. A
`Family` is what such stacks amount to when the climb is done. A parent is made before its children, so
the climb ends; it may be of any length.
-/

namespace Tapscript

/-- A stack in a store. -/
@[ext]
structure Node where
  /-- The number of the stack it is a child of. A root has none. -/
  parent : Option Nat := none
  stack : Stack
  /-- What the family holds together. Only the totals of a root are moved. -/
  held : Tally := {}
  deriving DecidableEq, Repr

@[ext]
structure Store where
  /-- The stacks in the order of their numbers. -/
  nodes : List Node
  parent_lt : ∀ i p, nodes[i]?.bind Node.parent = some p → p < i

namespace Store

/-! ## Parents and roots -/

/-- The number of the parent of a stack. -/
def parentOf (w : Store) (i : Nat) : Option Nat := w.nodes[i]?.bind Node.parent

/-- The root that a stack climbs to. -/
def rootOf (w : Store) (i : Nat) : Nat :=
  match _h : w.parentOf i with
  | none => i
  | some p => w.rootOf p
termination_by i
decreasing_by exact w.parent_lt i p _h

/-! ## Changes -/

def empty : Store where
  nodes := []
  parent_lt := by simp

/-- The store with one more stack. -/
def add (w : Store) (n : Node) (h : ∀ p, n.parent = some p → p < w.nodes.length) : Store where
  nodes := w.nodes ++ [n]
  parent_lt := by
    intro i p hp
    rcases Nat.lt_trichotomy i w.nodes.length with hi | rfl | hi
    · rw [List.getElem?_append_left hi] at hp
      exact w.parent_lt i p hp
    · rw [List.getElem?_concat_length] at hp
      exact h p hp
    · have hnone : (w.nodes ++ [n])[i]? = none := by
        apply List.getElem?_eq_none
        rw [List.length_append, List.length_singleton]
        omega
      rw [hnone] at hp
      cases hp

/-- The store in which one stack has changed, but for its parent. -/
def update (w : Store) (i : Nat) (change : Node → Node) (h : ∀ n, (change n).parent = n.parent) :
    Store where
  nodes := w.nodes.modify i change
  parent_lt := by
    intro j p hp
    apply w.parent_lt j p
    rw [List.getElem?_modify] at hp
    cases hn : w.nodes[j]? with
    | none =>
      rw [hn] at hp
      cases hp
    | some n =>
      rw [hn] at hp
      by_cases hij : i = j
      · simpa [hij, h] using hp
      · simpa [hij] using hp

/-- Changes the stack itself. -/
def restack (w : Store) (i : Nat) (change : Stack → Stack) : Store :=
  w.update i (fun n => { n with stack := change n.stack }) fun _ => rfl

/-- Changes the totals of a stack. -/
def retally (w : Store) (i : Nat) (change : Tally → Tally) : Store :=
  w.update i (fun n => { n with held := change n.held }) fun _ => rfl

/-! ## The allowance -/

def node (i : Nat) : Action Store Node := fun w =>
  match w.nodes[i]? with
  | some n => .ok n w
  | none => .error .outOfRange w

/-- Refuses unless `count` more items with `bytes` bytes fit the bounds of the root. -/
def reserve (i : Nat) (count bytes : Int) : Action Store Unit := do
  let root ← node ((← get).rootOf i)
  Action.check (root.held.reserve root.stack.bounds count bytes)

/-- Moves the totals of the root and then the size of stack `i`, one after another. At a counter without
a number the action stops, and the counters before it have moved. -/
def account (i : Nat) (count bytes : Int) : Action Store Unit := do
  let r := (← get).rootOf i
  let c ← Action.check (← node r).held.count.number
  modify (·.retally r ({ · with count := some (c + count) }))
  let b ← Action.check (← node r).held.bytes.number
  modify (·.retally r ({ · with bytes := some (b + bytes) }))
  let n ← Action.check (← node i).stack.size.number
  modify (·.restack i ({ · with size := some (n + bytes) }))
  if 0 ≤ c + count ∧ 0 ≤ b + bytes then pure () else throw .broken

/-! ## Operations on a stack -/

/-- Puts items on top in order, the last one topmost: all of them, or none. -/
def pushItems (i : Nat) (xs : List Item) : Action Store Unit := do
  reserve i xs.length (Item.total xs)
  modify (·.restack i fun s => { s with items := xs.reverse ++ s.items })
  account i xs.length (Item.total xs)

/-- Puts a value on top, as an item. -/
def push (i : Nat) (v : Value) : Action Store Unit := do
  pushItems i [← Action.check v.asItem]

/-- Puts the values that `v` yields on top in order. All are made items first. -/
def extend (i : Nat) (v : Value) : Action Store Unit := do
  let values ← Action.check v.elements
  pushItems i (← Action.check (values.mapM Value.asItem))

/-- Takes the top item. -/
def pop (i : Nat) : Action Store Item := do
  match (← node i).stack.items with
  | [] => Action.refuse .popEmpty
  | x :: rest =>
    modify (·.restack i ({ · with items := rest }))
    account i (-1) (-x.size)
    return x

/-- Takes the top item `n` times. -/
def popMany (i : Nat) : Nat → Action Store Unit
  | 0 => pure ()
  | n + 1 => do
    let _ ← pop i
    popMany i n

/-- Takes item after item until none is left. -/
def clear (i : Nat) : Action Store Unit := do
  popMany i (← node i).stack.depth

/-- The item some places below the top. -/
def peek (i : Nat) (depth : Int) : Action Store Item := do
  Action.check ((← node i).stack.peek depth)

/-- Checks the bookkeeping of a stack against the totals and the bounds of its root. -/
def audit (i : Nat) : Action Store Unit := do
  let n ← node i
  let root ← node ((← get).rootOf i)
  Action.check (root.held.audit root.stack.bounds n.stack)

/-! ## New stacks -/

/-- The store with one more root. -/
def planted (w : Store) (bounds : Bounds) : Store := w.add { stack := { bounds } } nofun

/-- The store with a child of stack `i`, with bounds of zero. -/
def withChild (w : Store) (i : Nat) (h : i < w.nodes.length) : Store :=
  w.add { parent := some i, stack := { bounds := Family.childBounds } }
    fun _ hp => Option.some.inj hp ▸ h

/-- A new stack whose parent is stack `i`. -/
def makeChild (i : Nat) : Action Store Stack := fun w =>
  if h : i < w.nodes.length then .ok { bounds := Family.childBounds } (w.withChild i h)
  else .error .outOfRange w

/-! ## Histories -/

/-- Makes a call on stack `i`. -/
def perform (i : Nat) : Family.Call → Action Store Reply
  | .push v => do
    push i v
    return .done
  | .pop => return .item (← pop i)
  | .peek depth => return .item (← peek i (← Action.check depth.toInt))
  | .extend v => do
    extend i v
    return .done
  | .clear => do
    clear i
    return .done
  | .child => return .bounds (← makeChild i).bounds

/-- What is done to a store: a new root is planted, or a call is made on a stack by its number. -/
inductive Deed where
  | plant (bounds : Bounds)
  | call (number : Nat) (c : Family.Call)

def deed : Deed → Action Store Reply
  | .plant bounds => do
    modify (·.planted bounds)
    return .bounds bounds
  | .call number c => do
    let _ ← node number
    perform number c

end Store

end Tapscript
