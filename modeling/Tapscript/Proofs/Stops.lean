import Tapscript.Proofs.Composition
import Tapscript.Proofs.Reachability

/-!
# Where a run stops

A run that fails fails at one element of its script: the elements before it are carried out, and its own
step stops. `Machine.StopsAt` says which element it is, what the step stops with, and what machine is left.
On the plain machine the same is said of a script of opcodes by `Plain.Halts`, beside `Plain.Leads` for a
script that goes through.

* `runValue_error_iff`: a run fails exactly when it stops somewhere.
* `run_keeps`: what every operation keeps, a run keeps.
* `stopsAt_machine`, `stopsAt_of_halts`: from the plain machine to the machine.
* `eq_machine_of_attempt`: a machine after any steps holds two lists that fit its rules.
-/

namespace Tapscript

namespace Machine

variable {limits : Limits} {memory : Nat} {m m' : Machine} {script : List Value} {n : Nat} {e : Fault}

/-- A run of the script stops at the element with number `n`, counted from zero: the elements before it are
carried out, and the step of that element stops with `e` and leaves `m'`. -/
def StopsAt (m : Machine) (script : List Value) (n : Nat) (e : Fault) (m' : Machine) : Prop :=
  ∃ op m₁, script[n]? = some op ∧ runValue (.list (script.take n)) m = .ok () m₁ ∧
    step op m₁ = .error e m'

/-- The elements after the one where a run stops do not matter. -/
theorem StopsAt.runValue_eq (h : m.StopsAt script n e m') :
    runValue (.list script) m = .error e m' := by
  obtain ⟨op, m₁, hop, htake, hstep⟩ := h
  obtain ⟨hn, rfl⟩ := List.getElem?_eq_some_iff.mp hop
  have hscript : script = script.take n ++ script[n] :: script.drop (n + 1) := by
    rw [List.getElem_cons_drop, List.take_append_drop]
  rw [runValue_list] at htake
  rw [runValue_list, hscript, steps_append, htake]
  simp only [steps_cons, hstep]

/-- What stops does not also go through. -/
theorem StopsAt.runValue_ne_ok (h : m.StopsAt script n e m') (m'' : Machine) :
    runValue (.list script) m ≠ .ok () m'' := by
  rw [h.runValue_eq]
  exact nofun

theorem runValue_error_iff :
    runValue (.list script) m = .error e m' ↔ ∃ n, m.StopsAt script n e m' := by
  constructor
  · intro h
    rw [runValue_list] at h
    obtain ⟨n, op, m₁, hop, htake, hstep⟩ := steps_error h
    refine ⟨n, op, m₁, hop, ?_, hstep⟩
    rw [runValue_list, htake]
  · rintro ⟨n, h⟩
    exact h.runValue_eq

/-- A run stops at an element exactly when a run of any longer part of the script stops there. -/
theorem stopsAt_take_iff {k : Nat} (hn : n < k) :
    m.StopsAt (script.take k) n e m' ↔ m.StopsAt script n e m' := by
  unfold StopsAt
  rw [List.getElem?_take_of_lt hn, List.take_take, Nat.min_eq_left (Nat.le_of_lt hn)]

theorem StopsAt.lt_length (h : m.StopsAt script n e m') : n < script.length := by
  obtain ⟨op, m₁, hop, -, -⟩ := h
  exact (List.getElem?_eq_some_iff.mp hop).1

end Machine

/-! ## Runs of the plain machine -/

namespace Plain

variable {rules : Rules} {p q q' : Plain} {r : Refusal}

/-- What every operation keeps, a run keeps. -/
theorem run_keeps {P : Plain → Prop}
    (hexec : ∀ {p q op}, P p → p.exec rules.itemSize op = .ok q → P q) (hp : P p) (i : Nat)
    (ops : List Int) : P (p.run rules i ops).lists := by
  induction ops generalizing p i with
  | nil => exact hp
  | cons op rest ih =>
    rw [run]
    cases hstep : p.step rules (i + 1) op with
    | error r => exact hp
    | ok q => exact ih (hexec hp (step_ok hstep)) (i + 1)

theorem fits_run (hp : p.Fits rules) {i j : Nat} {ops : List Int}
    (h : p.run rules i ops = ⟨none, q, j⟩) : q.Fits rules := by
  have hkept := run_keeps (fun hfits hexec => fits_exec hfits hexec) hp i ops
  rw [h] at hkept
  exact hkept

/-- A run that is refused goes through up to the operation that is refused, and that operation changes
nothing. -/
theorem run_refused {i j : Nat} {ops : List Int} (h : p.run rules i ops = ⟨some r, q, j⟩) :
    ∃ s op t, ops = s ++ op :: t ∧ p.run rules i s = ⟨none, q, i + s.length⟩ ∧
      q.step rules (i + s.length + 1) op = .error r := by
  induction ops generalizing p i with
  | nil => cases h
  | cons op rest ih =>
    rw [run] at h
    cases hstep : p.step rules (i + 1) op with
    | error r' =>
      rw [hstep] at h
      cases h
      exact ⟨[], op, rest, rfl, rfl, hstep⟩
    | ok p' =>
      rw [hstep] at h
      obtain ⟨s, op', t, rfl, hrun, hrefused⟩ := ih h
      have hlength : i + 1 + s.length = i + (op :: s).length := by
        rw [List.length_cons]
        omega
      refine ⟨op :: s, op', t, rfl, ?_, ?_⟩
      · rw [run, hstep, ← hlength]
        exact hrun
      · rw [← hlength]
        exact hrefused

theorem runValue_carried (hp : p.Fits rules) (ops : List Int) (witness : List Item)
    (script : List Value) (k : Int) :
    Machine.runValue (.list (ops.map .int)) (p.machine rules.limits witness script k) =
      (p.run rules 0 ops).carried rules.limits witness script := steps_machine hp ops witness script 0

theorem runValue_ok_iff (hp : p.Fits rules) {ops : List Int} {witness : List Item}
    {script : List Value} {k : Int} {m : Machine} :
    Machine.runValue (.list (ops.map .int)) (p.machine rules.limits witness script k) = .ok () m ↔
      ∃ q j, p.run rules 0 ops = ⟨none, q, j⟩ ∧ m = q.machine rules.limits witness script j := by
  rw [runValue_carried hp, Ending.carried]
  obtain ⟨refusal, q, j⟩ := p.run rules 0 ops
  cases refusal with
  | none => simp [eq_comm, and_assoc]
  | some r => simp

/-- The machine of two lists stops where the plain machine is refused. -/
theorem stopsAt_machine (hp : p.Fits rules) {s t : List Int} {op : Int}
    (hs : p.run rules 0 s = ⟨none, q, s.length⟩)
    (hop : q.step rules (s.length + 1) op = .error r) (witness : List Item) (script : List Value)
    (k : Int) :
    (p.machine rules.limits witness script k).StopsAt ((s ++ op :: t).map .int) s.length
      (.refused r) (q.machine rules.limits witness script (s.length + 1 : Nat)) := by
  have hstep := step_machine (fits_run hp hs) op witness script s.length
  rw [hop] at hstep
  refine ⟨.int op, q.machine rules.limits witness script s.length, ?_, ?_, hstep⟩
  · simp
  · have htake : ((s ++ op :: t).map Value.int).take s.length = s.map .int := by simp
    rw [htake]
    exact (runValue_ok_iff hp).mpr ⟨q, s.length, hs, rfl⟩

/-! ## Scripts of opcodes -/

/-- The script is refused at its opcode with number `n`, counted from zero, and leaves the lists `q`. -/
def Halts (rules : Rules) (ops : List Opcode) (n : Nat) (r : Refusal) (p q : Plain) : Prop :=
  ∃ s op t, ops = s ++ op :: t ∧ s.length = n ∧ Leads rules s p q ∧
    q.exec rules.itemSize op.code = .error r

theorem Leads.halts {s : List Opcode} {op : Opcode} (h : Leads rules s p q)
    (hop : q.exec rules.itemSize op.code = .error r) (t : List Opcode) :
    Halts rules (s ++ op :: t) s.length r p q := ⟨s, op, t, rfl, rfl, h, hop⟩

theorem Leads.append_halts {s t : List Opcode} {n : Nat} (h : Leads rules s p q)
    (ht : Halts rules t n r q q') : Halts rules (s ++ t) (s.length + n) r p q' := by
  obtain ⟨t₁, op, t₂, rfl, rfl, hleads, hop⟩ := ht
  refine ⟨s ++ t₁, op, t₂, ?_, List.length_append, h.append hleads, hop⟩
  rw [List.append_assoc]

end Plain

/-- The elements of a script of opcodes. -/
def Opcode.elements (ops : List Opcode) : List Value := ops.map fun op => .int op.code

namespace Plain

variable {rules : Rules} {p q : Plain} {r : Refusal}

theorem stopsAt_of_halts (hp : p.Fits rules) (hbudget : rules.opBudget = none) {ops : List Opcode}
    {n : Nat} (h : Halts rules ops n r p q) (witness : List Item) (script : List Value) (k : Int) :
    (p.machine rules.limits witness script k).StopsAt (Opcode.elements ops) n (.refused r)
      (q.machine rules.limits witness script (n + 1 : Nat)) := by
  obtain ⟨s, op, t, rfl, rfl, hleads, hop⟩ := h
  have hs := hleads 0
  rw [Nat.zero_add, ← List.length_map (f := fun op : Opcode => (op.code : Int))] at hs
  have hstep : q.step rules ((s.map fun op => (op.code : Int)).length + 1) op.code = .error r := by
    rw [step_eq_exec (Rules.affords_of_unlimited hbudget _), hop]
  have hstops := stopsAt_machine (t := t.map fun op => (op.code : Int)) hp hs hstep witness script k
  simpa [Opcode.elements, Function.comp_def] using hstops

/-! ## Machines after any steps -/

theorem attempt_machine (hp : p.Fits rules) (ops : List Int) (witness : List Item)
    (script : List Value) (k : Nat) :
    ∃ (q : Plain) (j : Nat), q.Fits rules ∧
      (p.machine rules.limits witness script k).attempt ops =
        q.machine rules.limits witness script j := by
  induction ops generalizing p k with
  | nil => exact ⟨p, k, hp, rfl⟩
  | cons op rest ih =>
    have hstep := step_machine hp op witness script k
    simp only [Machine.attempt, List.map_cons, Action.replay_cons, Action.after, hstep]
    cases hplain : p.step rules (k + 1) op with
    | error r => exact ih hp (k + 1)
    | ok q => exact ih (fits_step hp hplain) (k + 1)

/-- A machine that started with an item size holds, after any steps, two lists that fit its rules. -/
theorem eq_machine_of_attempt {limits : Limits} {itemSize : Nat} {witness script : Value}
    {m₀ : Machine} (hi : limits.itemSize = some itemSize)
    (h : Machine.start limits witness script = .ok m₀) (ops : List Int) :
    ∃ (rules : Rules) (p : Plain) (k : Nat), rules.limits = limits ∧ rules.itemSize = itemSize ∧
      p.Fits rules ∧ m₀.attempt ops = p.machine limits m₀.witness m₀.script k := by
  obtain ⟨rules, rfl, rfl, hfits, hm, -⟩ := eq_machine_of_start hi h
  obtain ⟨p, k, hp, hattempt⟩ := attempt_machine hfits ops m₀.witness m₀.script 0
  refine ⟨rules, p, k, rfl, rfl, hp, ?_⟩
  rw [← hattempt]
  exact congrArg (Machine.attempt ops) hm

end Plain

end Tapscript
