import Tapscript.Proofs.Start
import Tapscript.Verdict

/-!
# Evaluating and verifying agree

A script is run against a witness in two ways: `evaluate` returns a verdict, also on a failure, and keeps a
log; `verifyScript` returns the machine or passes the fault on. Both start the same machine and verify it, so
one can be read off the other.

* `outcome_evaluate`: the outcome of an evaluation, by the outcome of the verification.
* `log_evaluate`: the log of an evaluation, by its start and its outcome.
* `evaluate_agrees_with_verifyScript`: what the two have in common, ending by ending.
-/

namespace Tapscript

/-! ## Outcomes -/

/-- The outcome of an evaluation whose verification ended as given. A refusal becomes a failed verdict with
the machine that was left, if there was one. -/
def Verdict.ofVerification (left : Option Machine) : Except Fault Machine → Except Fault Verdict
  | .ok m => .ok (.success m)
  | .error (.refused r) => .ok (.failed r.failure left)
  | .error e => .error e

section

variable {left : Option Machine} {verified : Except Fault Machine} {verdict : Verdict}

theorem Verdict.ofVerification_success :
    ofVerification left verified = .ok verdict ∧ verdict.isSuccess = true ↔
      ∃ m, verified = .ok m ∧ verdict = .success m := by
  constructor
  · rintro ⟨hv, hs⟩
    cases verified with
    | ok m =>
      cases hv
      exact ⟨m, rfl, rfl⟩
    | error e =>
      cases e with
      | refused r =>
        cases hv
        cases hs
      | _ => cases hv
  · rintro ⟨m, rfl, rfl⟩
    exact ⟨rfl, rfl⟩

theorem Verdict.ofVerification_failed {f : Failure} :
    ofVerification left verified = .ok verdict ∧ verdict.failure = some f ↔
      ∃ r, verified = .error (.refused r) ∧ verdict = .failed f left ∧ f = r.failure := by
  constructor
  · rintro ⟨hv, hf⟩
    cases verified with
    | ok m =>
      cases hv
      cases hf
    | error e =>
      cases e with
      | refused r =>
        cases hv
        cases hf
        exact ⟨r, rfl, rfl, rfl⟩
      | _ => cases hv
  · rintro ⟨r, rfl, rfl, rfl⟩
    exact ⟨rfl, rfl⟩

theorem Verdict.ofVerification_error {e : Fault} :
    ofVerification left verified = .error e ↔ verified = .error e ∧ ∀ r, e ≠ .refused r := by
  constructor
  · intro hv
    cases verified with
    | ok m => cases hv
    | error e' => cases e' <;> cases hv <;> exact ⟨rfl, nofun⟩
  · rintro ⟨rfl, hr⟩
    cases e with
    | refused r => exact absurd rfl (hr r)
    | _ => rfl

end

variable (limits : Limits) (script witness : Value)

theorem outcome_evaluate :
    (evaluate limits script witness).outcome =
      Verdict.ofVerification ((Machine.start limits witness script).toOption.map Machine.verify.after)
        (verifyScript limits script witness) := by
  rw [evaluate_eq, verifyScript]
  cases Machine.start limits witness script with
  | error e => cases e <;> rfl
  | ok m =>
    simp only [bind, Except.bind, Except.toOption, Option.map_some, Action.after]
    cases Machine.verify m with
    | ok u m' => rfl
    | error e m' => cases e <;> rfl

/-! ## The log -/

def openingLine (ops items : Nat) : String :=
  s!"evaluating {Text.grouped ops} ops against {Text.grouped items} witness items"

def endingLine (verdict : Verdict) : String :=
  match verdict.failure with
  | none => "evaluation succeeded"
  | some f => s!"evaluation failed: {f.kind.name}: {f.message}"

theorem openingLine_ne_endingLine (ops items : Nat) (verdict : Verdict) :
    openingLine ops items ≠ endingLine verdict := by
  -- The lines part at their ninth character.
  have hopening : (openingLine ops items).toList[8]? = some 'n' := by
    delta openingLine
    rw [String.append_assoc, String.append_assoc, String.append_assoc, String.toList_append,
      List.getElem?_append_left (by decide)]
    decide
  have hending : (endingLine verdict).toList[8]? = some 'o' := by
    unfold endingLine
    split
    · decide
    · rw [String.append_assoc, String.append_assoc, String.toList_append,
        List.getElem?_append_left (by decide)]
      decide
  intro h
  rw [h, hending] at hopening
  exact absurd hopening (by decide)

theorem log_evaluate :
    (evaluate limits script witness).log.map LogEntry.text =
      ((Machine.start limits witness script).toOption.map
          fun m => openingLine m.script.length m.witness.length).toList ++
        ((evaluate limits script witness).outcome.toOption.map endingLine).toList := by
  rw [evaluate_eq]
  cases Machine.start limits witness script with
  | error e => cases e <;> rfl
  | ok m =>
    dsimp only
    cases Machine.verify m with
    | ok u m' => rfl
    | error e m' => cases e <;> rfl

/-! ## Agreement -/

variable {limits script witness}

theorem eq_ok_of_toOption {α : Type} {x : Except Fault α} {a : α} (h : x.toOption = some a) :
    x = .ok a := by
  cases x with
  | ok b =>
    cases h
    rfl
  | error e => cases h

theorem verify_refused {m : Machine} {r : Refusal} (h : Machine.start limits witness script = .ok m)
    (hr : verifyScript limits script witness = .error (.refused r)) :
    ∃ m', Machine.verify m = .error (.refused r) m' := by
  rw [verifyScript, h] at hr
  simp only [bind, Except.bind] at hr
  split at hr
  · cases hr
  · rename_i e m' hverify
    cases hr
    exact ⟨m', hverify⟩

/-- A machine that started holds the elements of the script, and an item for each element of the
witness. -/
theorem Machine.lengths_of_start {m : Machine} (h : start limits witness script = .ok m) :
    script.elements = .ok m.script ∧
      ∃ vs, witness.elements = .ok vs ∧ m.witness.length = vs.length := by
  obtain ⟨vs, items, ops, memory, hvs, hitems, hops, -, hlaunch⟩ := start_ok h
  obtain ⟨-, -, rfl⟩ := launch_ok hlaunch
  have hlength := congrArg List.length (map_eq_of_mapM_ok hitems)
  rw [List.length_map, List.length_map] at hlength
  exact ⟨hops, vs, hvs, hlength.symm⟩

/-- What an evaluation has in common with the verification of the same script against the same witness,
where `started` is what came of starting the machine. -/
structure Agreement (started verified : Except Fault Machine) (e : Evaluation) : Prop where
  /-- A machine is returned exactly when the verdict is a success. -/
  returned : (∃ m, verified = .ok m) ↔ ∃ verdict, e.outcome = .ok verdict ∧ verdict.isSuccess = true
  same_machine : ∀ m verdict, verified = .ok m → e.outcome = .ok verdict → verdict.machine = some m
  /-- A refusal is passed on exactly when the verdict has failed, with the same kind and message. -/
  refused : ∀ kind message,
    (∃ r, verified = .error (.refused r) ∧ r.kind = kind ∧ r.message = message) ↔
      ∃ verdict f, e.outcome = .ok verdict ∧ verdict.failure = some f ∧ f.kind = kind ∧
        f.message = message
  /-- Any other fault is passed on by both, and an evaluation passes on no refusal. -/
  passed_on : ∀ fault,
    e.outcome = .error fault ↔ verified = .error fault ∧ ∀ r, fault ≠ .refused r
  /-- A failed verdict is without a machine exactly when none started. -/
  unstarted : ∀ verdict f, e.outcome = .ok verdict → verdict.failure = some f →
    (verdict.machine = none ↔ ∃ fault, started = .error fault)
  /-- A machine that started is in a failed verdict as the refused verification left it. -/
  left : ∀ verdict f m, e.outcome = .ok verdict → verdict.failure = some f → started = .ok m →
    ∃ r m', Machine.verify m = .error (.refused r) m' ∧ f = r.failure ∧ verdict.machine = some m'
  opened : (∃ ops items, openingLine ops items ∈ e.log.map LogEntry.text) ↔ ∃ m, started = .ok m
  ended : ∀ verdict, e.outcome = .ok verdict →
    (e.log.map LogEntry.text).getLast? = some (endingLine verdict)
  /-- The log is the opening, if a machine started, and the ending, if there is a verdict. -/
  lines : e.log.map LogEntry.text =
    (started.toOption.map fun m => openingLine m.script.length m.witness.length).toList ++
      (e.outcome.toOption.map endingLine).toList

/-- **Evaluating and verifying agree**, for every script and witness, under given limits or those of
tapscript. A machine that started holds the elements of the script and an item for each element of the
witness. -/
theorem evaluate_agrees_with_verifyScript (given : Option Limits) (script witness : Value) :
    let limits := given.getD .tapscript
    let started := Machine.start limits witness script
    Agreement started (verifyScript limits script witness) (evaluate limits script witness) ∧
      ∀ m, started = .ok m → script.elements = .ok m.script ∧
        ∃ vs, witness.elements = .ok vs ∧ m.witness.length = vs.length := by
  intro limits started
  have houtcome := outcome_evaluate limits script witness
  have hlog := log_evaluate limits script witness
  refine ⟨?_, fun m h => Machine.lengths_of_start h⟩
  generalize evaluate limits script witness = e at houtcome hlog ⊢
  constructor
  case returned =>
    constructor
    · rintro ⟨m, hm⟩
      obtain ⟨hv, hs⟩ := Verdict.ofVerification_success.mpr ⟨m, hm, rfl⟩
      exact ⟨_, houtcome.trans hv, hs⟩
    · rintro ⟨verdict, hv, hs⟩
      obtain ⟨m, hm, -⟩ := Verdict.ofVerification_success.mp ⟨houtcome.symm.trans hv, hs⟩
      exact ⟨m, hm⟩
  case same_machine =>
    intro m verdict hm hv
    rw [houtcome, hm] at hv
    cases hv
    rfl
  case refused =>
    intro kind message
    constructor
    · rintro ⟨r, hr, rfl, rfl⟩
      obtain ⟨hv, hf⟩ := Verdict.ofVerification_failed.mpr ⟨r, hr, rfl, rfl⟩
      exact ⟨_, _, houtcome.trans hv, hf, rfl, rfl⟩
    · rintro ⟨verdict, f, hv, hf, rfl, rfl⟩
      obtain ⟨r, hr, -, rfl⟩ := Verdict.ofVerification_failed.mp ⟨houtcome.symm.trans hv, hf⟩
      exact ⟨r, hr, rfl, rfl⟩
  case passed_on =>
    intro fault
    rw [houtcome]
    exact Verdict.ofVerification_error
  case unstarted =>
    intro verdict f hv hf
    obtain ⟨r, -, rfl, -⟩ := Verdict.ofVerification_failed.mp ⟨houtcome.symm.trans hv, hf⟩
    change started.toOption.map _ = none ↔ _
    cases started with
    | ok m => simp [Except.toOption]
    | error fault => simp [Except.toOption]
  case left =>
    intro verdict f m hv hf hm
    obtain ⟨r, hr, rfl, rfl⟩ := Verdict.ofVerification_failed.mp ⟨houtcome.symm.trans hv, hf⟩
    obtain ⟨m', hm'⟩ := verify_refused hm hr
    refine ⟨r, m', hm', rfl, ?_⟩
    change started.toOption.map _ = some m'
    rw [show started = .ok m from hm, Except.toOption, Option.map_some, Action.after, hm']
  case opened =>
    rw [hlog]
    constructor
    · rintro ⟨ops, items, hline⟩
      rcases List.mem_append.mp hline with hopening | hending
      · obtain ⟨m, hm, -⟩ := Option.map_eq_some_iff.mp (Option.mem_toList.mp hopening)
        exact ⟨m, eq_ok_of_toOption hm⟩
      · obtain ⟨verdict, -, hline⟩ := Option.map_eq_some_iff.mp (Option.mem_toList.mp hending)
        exact absurd hline.symm (openingLine_ne_endingLine ops items verdict)
    · rintro ⟨m, hm⟩
      refine ⟨m.script.length, m.witness.length, List.mem_append_left _ ?_⟩
      rw [show Machine.start limits witness script = .ok m from hm]
      exact List.mem_singleton_self _
  case ended =>
    intro verdict hv
    rw [hlog, hv]
    exact List.getLast?_concat
  case lines => exact hlog

end Tapscript
