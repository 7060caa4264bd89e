import Tapscript.Forest
import Tapscript.Machine

/-!
# Commands to a machine

Everything that can be asked of a machine from outside, as data, so that a history of a machine is a
list of commands.
-/

namespace Tapscript.Machine

inductive Command where
  | step (op : Value)
  | run (script : Value)
  | verify
  | isTrue
  | bump (n : Value)
  | requireDepth (depth : Value)
  | requireAlt
  | requireRoom
  | audit
  | refuseOpcode (op : Value)
  /-- Carries out an opcode outside a step. -/
  | execute (op : Opcode)
  /-- New limits for the machine, or none. The bounds of its stacks do not change. -/
  | setLimits (limits : Option Limits)
  /-- A command to one of the stacks. -/
  | stack (number : Int) (c : Forest.Command)

/-- The main stack as number `0` and the alt stack as number `1` of a forest. Further members of the
family have no number. -/
def forest (m : Machine) : Forest := Forest.ofFamily m.family [mainMember, altMember]

/-- Works on the two stacks by their numbers. Stacks that are numbered in the course of it are
forgotten afterwards, but a child stays in the family. -/
def onForest {α : Type} : Action Forest α → Action Machine α :=
  Action.focus forest fun m w => { m with family := w.families.headD m.family }

def perform : Command → Action Machine Reply
  | .step op => do
    step op
    return .done
  | .run script => do
    runValue script
    return .done
  | .verify => do
    verify
    return .done
  | .isTrue => return .flag (← get).isTrue
  | .bump n => do
    bump (← Action.check n.toInt)
    return .done
  | .requireDepth depth => do
    requireDepth (← Action.check depth.toInt)
    return .done
  | .requireAlt => do
    requireAlt
    return .done
  | .requireRoom => do
    requireRoom
    return .done
  | .audit => do
    Action.check (← get).audit
    return .done
  | .refuseOpcode op => do
    refuseOpcode op
    return .done
  | .execute op => do
    execute op
    return .done
  | .setLimits limits => do
    modify fun m => { m with limits }
    return .done
  | .stack number c => onForest (Forest.perform number c)

end Tapscript.Machine
