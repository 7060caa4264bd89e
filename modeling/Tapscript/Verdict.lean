import Tapscript.Host
import Tapscript.Machine

/-!
# Verdicts

`evaluate` runs a script against a witness and turns a refusal into a failed verdict; `verifyScript`
passes the refusal on. Any other fault is passed on by both. An evaluation also keeps a log: its
opening once the machine has started, and its ending. On a host that caps the digits of an integer
(`evaluateOn`), a refusal whose message cannot be written is no verdict.
-/

namespace Tapscript

/-! ## Failures and verdicts -/

/-- A failure as it is reported: its kind, and what it was reported with. -/
structure Failure where
  kind : ErrorKind
  /-- A refusal is reported with a text, but a caller may report a failure with any value or with
  none. -/
  detail : Option Value

/-- A refusal is reported with its message. -/
def Refusal.failure (r : Refusal) : Failure := ⟨r.kind, some (.text r.message)⟩

namespace Failure

/-- The message, which is the plain form of what the failure was reported with. -/
def message (f : Failure) : String :=
  match f.detail with
  | some v => v.plain
  | none => ""

/-- The printed form. -/
def printed (f : Failure) : String :=
  let detail :=
    match f.detail with
    | some v => String.ofList v.printed
    | none => ""
  f.kind.name ++ "(" ++ detail ++ ")"

end Failure

@[simp]
theorem Refusal.kind_failure (r : Refusal) : r.failure.kind = r.kind := rfl

@[simp]
theorem Refusal.message_failure (r : Refusal) : r.failure.message = r.message := rfl

/-- The outcome of an evaluation. A verdict without a failure is a success. -/
structure Verdict where
  failure : Option Failure
  /-- The machine at the end, if there was one. -/
  machine : Option Machine

namespace Verdict

def success (machine : Option Machine := none) : Verdict := ⟨none, machine⟩

def failed (failure : Failure) (machine : Option Machine := none) : Verdict :=
  ⟨some failure, machine⟩

def isSuccess (v : Verdict) : Bool := v.failure.isNone

/-- The same machine, with the failure of another verdict. -/
def withFailureOf (v other : Verdict) : Verdict := { v with failure := other.failure }

/-- Compares two verdicts by their failures alone. Two failures are the same only when they are one
and the same occurrence, which `shared` tells; failures that are not the same have no order. -/
def comparison (a b : Verdict) (shared : Bool) : Comparison :=
  if shared || (a.isSuccess && b.isSuccess) then .same else .unordered

/-- The printed form. -/
def printed (v : Verdict) : String :=
  let error :=
    match v.failure with
    | some f => f.printed
    | none => "None"
  "ExecutionResult(error=" ++ error ++ ")"

end Verdict

/-! ## The log -/

inductive LogEntry where
  | opened (ops witnessItems : Nat)
  | succeeded
  | failed (r : Refusal)
  deriving DecidableEq, Repr

/-- The text of a log entry. -/
def LogEntry.text : LogEntry → String
  | opened ops items =>
    s!"evaluating {Text.grouped ops} ops against {Text.grouped items} witness items"
  | succeeded => "evaluation succeeded"
  | failed r => s!"evaluation failed: {r.kind.name}: {r.message}"

/-! ## Evaluation -/

/-- What came of an evaluation, and what it logged. -/
structure Evaluation where
  log : List LogEntry
  outcome : Except Fault Verdict

/-- An evaluation that stopped: a refusal is its verdict, and any other fault is passed on. -/
def Evaluation.stopped (log : List LogEntry) (e : Fault) (machine : Option Machine) : Evaluation :=
  match e with
  | .refused r => ⟨log ++ [.failed r], .ok (.failed r.failure machine)⟩
  | e => ⟨log, .error e⟩

/-- Runs a script against a witness on a host. -/
def evaluateOn (host : Host) (limits : Limits) (script witness : Value) : Evaluation :=
  match Machine.start limits witness script with
  | .error e => .stopped [] (host.raised e) none
  | .ok m =>
    let opening := LogEntry.opened m.script.length m.witness.length
    match Machine.verify m with
    | .ok () m' => ⟨[opening, .succeeded], .ok (.success m')⟩
    | .error e m' => .stopped [opening] (host.raised e) m'

/-- Runs a script against a witness on a host that writes every integer. -/
def evaluate (limits : Limits) (script witness : Value) : Evaluation :=
  evaluateOn .unlimited limits script witness

theorem evaluate_eq (limits : Limits) (script witness : Value) :
    evaluate limits script witness =
      match Machine.start limits witness script with
      | .error (.refused r) => ⟨[.failed r], .ok (.failed r.failure)⟩
      | .error e => ⟨[], .error e⟩
      | .ok m =>
        let opening := LogEntry.opened m.script.length m.witness.length
        match Machine.verify m with
        | .ok () m' => ⟨[opening, .succeeded], .ok (.success m')⟩
        | .error (.refused r) m' => ⟨[opening, .failed r], .ok (.failed r.failure m')⟩
        | .error e _ => ⟨[opening], .error e⟩ := by
  unfold evaluate evaluateOn
  simp only [Host.raised_unlimited]
  cases Machine.start limits witness script with
  | error e => cases e <;> rfl
  | ok m =>
    simp only
    cases Machine.verify m with
    | ok u m' => rfl
    | error e m' => cases e <;> rfl

/-- Runs a script against a witness and returns the machine as it ends. -/
def verifyScript (limits : Limits) (script witness : Value) : Except Fault Machine := do
  let m ← Machine.start limits witness script
  match Machine.verify m with
  | .ok () m' => .ok m'
  | .error e _ => .error e

end Tapscript
