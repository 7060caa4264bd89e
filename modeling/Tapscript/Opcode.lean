import Tapscript.Value.Printer

/-!
# Opcodes

The three opcodes that are implemented, with their codes and their two published names each.
-/

namespace Tapscript

inductive Opcode where
  /-- Moves the top of the main stack to the alt stack. -/
  | toAlt
  /-- Moves the top of the alt stack to the main stack. -/
  | fromAlt
  /-- Joins the two topmost items of the main stack. -/
  | cat
  deriving DecidableEq, Repr

namespace Opcode

def all : List Opcode := [toAlt, fromAlt, cat]

def code : Opcode → Nat
  | toAlt => 0x6b
  | fromAlt => 0x6c
  | cat => 0x7e

/-- The canonical name. -/
def name : Opcode → String
  | toAlt => "OP_TOALTSTACK"
  | fromAlt => "OP_FROMALTSTACK"
  | cat => "OP_CAT"

/-- The second name. -/
def secondName : Opcode → String
  | toAlt => "STACK_TO_ALT"
  | fromAlt => "ALT_TO_STACK"
  | cat => "CONCAT"

/-- The opcode with a given code. -/
def ofCode? (n : Int) : Option Opcode :=
  if n = 0x6b then some toAlt
  else if n = 0x6c then some fromAlt
  else if n = 0x7e then some cat
  else none

theorem ofCode?_eq_some_iff {n : Int} {op : Opcode} : ofCode? n = some op ↔ n = op.code := by
  cases op <;> grind [ofCode?, code]

/-- The opcode whose code a value is. -/
def ofValue? : Value → Option Opcode
  | .int n => ofCode? n
  | _ => none

/-- The opcode whose code a value is; any other value is unfit. -/
def ofValue (v : Value) : Except Fault Opcode :=
  match ofValue? v with
  | some op => .ok op
  | none => .error (.unfit (.notAnOpcode (String.ofList v.printed) v.numbers))

/-- The opcode with a given name, canonical or not. -/
def ofName (s : String) : Except Fault Opcode :=
  match all.find? fun op => op.name = s ∨ op.secondName = s with
  | some op => .ok op
  | none => .error .unknownName

/-- Every name with its opcode: each canonical name is followed by the second one. -/
def names : List (String × Opcode) :=
  all.flatMap fun op => [(op.name, op), (op.secondName, op)]

end Opcode

end Tapscript
