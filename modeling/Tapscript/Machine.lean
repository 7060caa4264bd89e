import Tapscript.Family
import Tapscript.Limits
import Tapscript.Opcode

/-!
# The machine

A machine runs a script against a witness. It holds a family of stacks whose root is the main stack
and whose first child is the alt stack; further children can be added, and share the same allowance.
The main stack starts with the witness, its first item at the bottom.

A step counts one operation, carries out one opcode, and then checks that the two stacks together
stay below the element limit and that the bookkeeping is in order. The opcodes check all they need
before they change a stack.

A machine starts with limits, which can be taken from it later. Whatever consults the limits then
stops, at the point where it consults them.
-/

namespace Tapscript

structure Machine where
  limits : Option Limits
  witness : List Item
  script : List Value
  family : Family
  opCount : Int := 0

namespace Machine

/-! ## The two stacks -/

/-- The number of the main stack in the family. -/
def mainMember : Nat := 0

/-- The number of the alt stack in the family. -/
def altMember : Nat := 1

def mainStack (m : Machine) : Stack := m.family.root

def altStack (m : Machine) : Stack := m.family.children.headD { bounds := Family.childBounds }

/-- The number of items on both stacks. -/
def combinedDepth (m : Machine) : Nat := m.mainStack.depth + m.altStack.depth

/-- Works on the family of stacks. -/
def onFamily {α : Type} : Action Family α → Action Machine α :=
  Action.focus family fun m f => { m with family := f }

/-! ## Checks -/

/-- The limits the machine is held to. -/
def heldTo (m : Machine) : Except Fault Limits :=
  match m.limits with
  | some limits => .ok limits
  | none => .error .absent

/-- Counts `n` operations, and refuses when there are more than the budget. -/
def bump (n : Int) : Action Machine Unit := do
  modify fun m => { m with opCount := m.opCount + n }
  let m ← get
  match (← Action.check m.heldTo).opBudget with
  | none => pure ()
  | some most => if m.opCount > most then Action.refuse (.overBudget most)

/-- Refuses unless the main stack holds `depth` items. -/
def requireDepth (depth : Int) : Action Machine Unit := do
  let held := (← get).mainStack.depth
  if held < depth then Action.refuse (.mainTooShallow held depth)

/-- Refuses unless the alt stack holds an item. -/
def requireAlt : Action Machine Unit := do
  if (← get).altStack.isEmpty then Action.refuse .altEmpty

/-- Refuses unless both stacks together stay below the element limit. -/
def requireRoom : Action Machine Unit := do
  let m ← get
  let most := (← Action.check m.heldTo).stackElements
  if m.combinedDepth ≥ most then Action.refuse (.tooDeep m.combinedDepth most)

/-- Checks the bookkeeping of both stacks, their combined depth, and the size of every item. -/
def audit (m : Machine) : Except Fault Unit := do
  m.family.audit m.mainStack
  m.family.audit m.altStack
  let limits ← m.heldTo
  if m.combinedDepth ≥ limits.stackElements then throw .broken
  m.mainStack.items.forM fun x => limits.itemBound.check x.size fun _ => .broken
  m.altStack.items.forM fun x => limits.itemBound.check x.size fun _ => .broken

/-! ## Starting -/

/-- The stacks of a machine before the witness is put on: an empty main stack and an empty alt
stack, within limits that keep the combined depth below the element limit. -/
def emptyFamily (limits : Limits) : Family :=
  { root := { bounds := ⟨some (limits.stackElements - 1), limits.stackMemory.map Int.ofNat⟩ }
    children := [{ bounds := Family.childBounds }] }

/-- A machine with the witness on its main stack. Every value of the witness is made an item before
the script is looked at, and both before anything is put on the stack. -/
def start (limits : Limits) (witness script : Value) : Except Fault Machine := do
  let items ← (← witness.elements).mapM limits.accept
  let ops ← script.elements
  let seed : Action Machine Unit := do
    onFamily (Family.pushItems mainMember items)
    requireRoom
  let empty : Machine :=
    { limits := some limits, witness := items, script := ops, family := emptyFamily limits }
  match seed empty with
  | .ok () m => .ok m
  | .error e _ => .error e

/-! ## Opcodes -/

/-- The refusal of an opcode: by the canonical name of a code that has one, and by the plain form of
any other value. -/
def opcodeRefusal (v : Value) : Refusal :=
  match Opcode.ofValue? v with
  | some op => .unknownOpcode op.name []
  | none => .unknownOpcode v.plain v.numbers

@[simp]
theorem kind_opcodeRefusal (v : Value) : (opcodeRefusal v).kind = .invalidOpcode := by
  unfold opcodeRefusal
  split <;> rfl

/-- Refuses an opcode. -/
def refuseOpcode (op : Value) : Action Machine Unit := Action.refuse (opcodeRefusal op)

/-- Moves the top of the main stack to the alt stack. -/
def moveToAlt : Action Machine Unit := do
  requireDepth 1
  let x ← onFamily (Family.pop mainMember)
  onFamily (Family.pushItem altMember x)

/-- Moves the top of the alt stack to the main stack. -/
def moveFromAlt : Action Machine Unit := do
  requireAlt
  let x ← onFamily (Family.pop altMember)
  onFamily (Family.pushItem mainMember x)

/-- Replaces the two topmost items of the main stack by their concatenation, the upper one last. -/
def concatenate : Action Machine Unit := do
  requireDepth 2
  let lower ← onFamily (Family.peek mainMember 1)
  let upper ← onFamily (Family.peek mainMember 0)
  let limits ← Action.check (← get).heldTo
  let joined ← Action.check (Value.join (.item lower) (.item upper) limits.itemBound)
  let _ ← onFamily (Family.pop mainMember)
  let _ ← onFamily (Family.pop mainMember)
  onFamily (Family.pushItem mainMember joined)

/-- Carries out an opcode. -/
def execute : Opcode → Action Machine Unit
  | .toAlt => moveToAlt
  | .fromAlt => moveFromAlt
  | .cat => concatenate

/-! ## Steps and runs -/

/-- Carries out what one element of a script asks for. -/
def dispatch : Value → Action Machine Unit
  | .int n =>
    match Opcode.ofCode? n with
    | some op => execute op
    | none => refuseOpcode (.int n)
  | _ => throw .mismatch

/-- One step: an operation is counted, carried out and checked. -/
def step (op : Value) : Action Machine Unit := do
  bump 1
  dispatch op
  requireRoom
  Action.check (← get).audit

/-- Steps through the elements of a script. -/
def steps : List Value → Action Machine Unit
  | [] => pure ()
  | op :: rest => do
    step op
    steps rest

/-- Runs a script, counting its operations from zero. -/
def run (script : List Value) : Action Machine Unit := do
  modify fun m => { m with opCount := 0 }
  steps script

/-- Runs what a caller hands in as a script, or the machine's own script when it is nothing. -/
def runValue : Value → Action Machine Unit
  | .nothing => do run (← get).script
  | v => do
    modify fun m => { m with opCount := 0 }
    run (← Action.check v.elements)

/-- Whether the main stack has a true item. -/
def isTrue (m : Machine) : Bool := m.mainStack.anyTrue

/-- Runs the machine's own script, and refuses unless it leaves a true item on the main stack. -/
def verify : Action Machine Unit := do
  run (← get).script
  let m ← get
  if !m.isTrue then
    Action.refuse (if m.mainStack.isEmpty then .nothingLeft else .nothingTrue)

end Machine

end Tapscript
