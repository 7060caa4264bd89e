import Tapscript.Proofs.Overflow

/-!
# Failed steps

A step that is refused, or is asked for something that is no opcode, has counted its operation and has
done nothing else. The opcodes check all they need before they change a stack, and of the checks after
an opcode only the size of an item can fail; that is broken bookkeeping and no refusal. So a script that
fails leaves the machine that the operations before the failing one leave.

* `step_ending`: all that can come of a step of a machine with an item size.
* `steps_error`: a script fails at one of its elements, and those before it are carried out.
* `failed_step_leaves_machine`: steps and scripts on a machine after any history of uses.
-/

namespace Tapscript

/-- A broken rule of execution or a value of a wrong type, and not broken bookkeeping. -/
def Fault.Reported (e : Fault) : Prop := e = .mismatch ∨ ∃ r, e = .refused r

/-- The fault an action stops with. -/
def Action.fault? {σ α : Type} (act : Action σ α) (s : σ) : Option Fault :=
  match act s with
  | .ok _ _ => none
  | .error e _ => some e

theorem Action.apply_of_fault? {σ α : Type} {act : Action σ α} {s : σ} {e : Fault}
    (h : act.fault? s = some e) : act s = .error e (act.after s) := by
  unfold fault? at h
  unfold after
  cases hact : act s with
  | ok a s' =>
    rw [hact] at h
    cases h
  | error e' s' =>
    rw [hact] at h
    cases h
    rfl

theorem Action.apply_of_no_fault {σ : Type} {act : Action σ Unit} {s : σ} (h : act.fault? s = none) :
    act s = .ok () (act.after s) := by
  unfold fault? at h
  unfold after
  cases hact : act s with
  | ok u s' => rfl
  | error e s' =>
    rw [hact] at h
    cases h

namespace Machine

variable {limits : Limits} {memory itemSize : Nat} {m m' : Machine} {e : Fault}

/-! ## Steps -/

/-- What can come of a step: it stops and has only counted, it is carried out, or it is carried out and
then finds an item that is too long. -/
inductive StepEnding (limits : Limits) (memory : Nat) (m : Machine) :
    EStateM.Result Fault Machine Unit → Prop
  | stopped {e : Fault} (h : e.Reported) : StepEnding limits memory m (.error e (m.counted 1))
  | tooLong (main alt : List Item) :
    StepEnding limits memory m (.error .broken ((m.counted 1).arrange main alt))
  | carriedOut (main alt : List Item) (h : ((m.counted 1).arrange main alt).Sound limits memory) :
    StepEnding limits memory m (.ok () ((m.counted 1).arrange main alt))

theorem step_ending (h : m.Sound limits memory) (hi : limits.itemSize = some itemSize) (op : Value) :
    StepEnding limits memory m (step op m) := by
  rcases bump_cases h 1 with hbump | ⟨most, hbump⟩
  · rw [step_sound h hbump]
    have hending := dispatch_ending (sound_counted h 1) op
    generalize dispatch op (m.counted 1) = result at hending
    cases hending with
    | mismatched => exact .stopped (Or.inl rfl)
    | refused hr => exact .stopped (Or.inr ⟨_, rfl⟩)
    | arranged main alt hsound =>
      cases hsize : sizeCheck limits ((m.counted 1).arrange main alt) with
      | ok u =>
        simp only [hsize]
        exact .carriedOut main alt hsound
      | error e =>
        simp only [hsize]
        rcases sizeCheck_error hsize with ⟨-, hnone⟩ | ⟨rfl, -⟩
        · rw [hi] at hnone
          cases hnone
        · exact .tooLong main alt
  · unfold step
    rw [Action.bind_apply_error hbump]
    exact .stopped (Or.inr ⟨_, rfl⟩)

theorem step_reported (h : m.Sound limits memory) (hi : limits.itemSize = some itemSize) {op : Value}
    (hstep : step op m = .error e m') (he : e.Reported) : m' = m.counted 1 := by
  have hending := step_ending h hi op
  rw [hstep] at hending
  cases hending with
  | stopped _ => rfl
  | tooLong main alt =>
    rcases he with he | ⟨r, he⟩
    · cases he
    · cases he

theorem opCount_of_step (h : m.Sound limits memory) (hi : limits.itemSize = some itemSize) {op : Value}
    (hstep : step op m = .ok () m') : m'.opCount = m.opCount + 1 := by
  have hending := step_ending h hi op
  rw [hstep] at hending
  cases hending with
  | carriedOut main alt _ => rfl

/-! ## Scripts -/

theorem steps_cons (op : Value) (rest : List Value) (m : Machine) :
    steps (op :: rest) m =
      match step op m with
      | .ok _ m' => steps rest m'
      | .error e m' => .error e m' := by
  rw [steps, Action.bind_apply]
  cases step op m <;> rfl

theorem steps_error {script : List Value} (h : steps script m = .error e m') :
    ∃ n op m₁, script[n]? = some op ∧ steps (script.take n) m = .ok () m₁ ∧
      step op m₁ = .error e m' := by
  induction script generalizing m with
  | nil => cases h
  | cons op rest ih =>
    rw [steps_cons] at h
    cases hstep : step op m with
    | error e₁ m₁ =>
      rw [hstep] at h
      cases h
      exact ⟨0, op, m, rfl, rfl, hstep⟩
    | ok u m₁ =>
      rw [hstep] at h
      obtain ⟨n, op', m₂, hop, htake, hlast⟩ := ih h
      refine ⟨n + 1, op', m₂, hop, ?_, hlast⟩
      rw [List.take_succ_cons, steps_cons, hstep]
      exact htake

theorem opCount_of_steps {script : List Value} (h : m.Sound limits memory)
    (hi : limits.itemSize = some itemSize) (hsteps : steps script m = .ok () m') :
    m'.opCount = m.opCount + script.length := by
  induction script generalizing m with
  | nil =>
    cases hsteps
    simp
  | cons op rest ih =>
    rw [steps_cons] at hsteps
    cases hstep : step op m with
    | error e₁ m₁ =>
      rw [hstep] at hsteps
      cases hsteps
    | ok u m₁ =>
      rw [hstep] at hsteps
      have hcount := ih ((step_safe op).returned h hstep) hsteps
      rw [opCount_of_step h hi hstep] at hcount
      rw [hcount, List.length_cons]
      omega

/-- The elements of what a caller hands in as a script; nothing stands for the machine's own script. -/
def scriptOf (m : Machine) : Value → Except Fault (List Value)
  | .nothing => .ok m.script
  | v => v.elements

theorem runValue_apply {v : Value} (hv : v ≠ .nothing) (m : Machine) :
    runValue v m = (Action.check v.elements >>= run) { m with opCount := 0 } := by
  unfold runValue
  split
  · exact absurd rfl hv
  · rfl

theorem runValue_eq_run {v : Value} {ops : List Value} (h : m.scriptOf v = .ok ops) :
    runValue v m = run ops m := by
  unfold scriptOf at h
  split at h
  · cases h
    rfl
  · rename_i hv
    rw [runValue_apply hv, h, Action.bind_apply_ok (Action.check_ok ops _)]
    rfl

theorem sound_reset (h : m.Sound limits memory) :
    ({ m with opCount := 0 } : Machine).Sound limits memory :=
  ⟨h.limits_eq, h.balanced, h.alt⟩

/-- **Failed steps.** Take a machine that started with an item size, after any history of uses. A step
that is refused, or that is given something of a wrong type, leaves the machine as it was with one more
operation counted. A script that fails so leaves the machine that the elements before the failing one
leave, again with one more operation counted. -/
theorem failed_step_leaves_machine {limits : Limits} {itemSize : Nat} {witness script : Value}
    {m₀ : Machine} (hi : limits.itemSize = some itemSize)
    (h : start limits witness script = .ok m₀) (uses : List Use) :
    let m := m₀.history uses
    (∀ op e m', step op m = .error e m' → e.Reported → m' = { m with opCount := m.opCount + 1 }) ∧
      ∀ v ops e m', m.scriptOf v = .ok ops → runValue v m = .error e m' → e.Reported →
        ∃ n op m₁, ops[n]? = some op ∧ runValue (.list (ops.take n)) m = .ok () m₁ ∧
          step op m₁ = .error e m' ∧ m' = { m₁ with opCount := m₁.opCount + 1 } ∧
          m'.opCount = n + 1 := by
  intro m
  obtain ⟨memory, hstart⟩ := sound_of_start h
  have hm : m.Sound limits memory := sound_history uses hstart
  refine ⟨fun op e m' hstep he => step_reported hm hi hstep he, ?_⟩
  intro v ops e m' hops hrun he
  rw [runValue_eq_run hops] at hrun
  obtain ⟨n, op, m₁, hop, htake, hstep⟩ := steps_error hrun
  have hsound : m₁.Sound limits memory := (steps_safe _).returned (sound_reset hm) htake
  have hcount := opCount_of_steps (sound_reset hm) hi htake
  have hlast := step_reported hsound hi hstep he
  refine ⟨n, op, m₁, hop, ?_, hstep, hlast, ?_⟩
  · rw [runValue_eq_run (show m.scriptOf (.list (ops.take n)) = .ok (ops.take n) from rfl)]
    exact htake
  · have hn : n < ops.length := (List.getElem?_eq_some_iff.mp hop).1
    have hlength : (ops.take n).length = n := List.length_take_of_le (Nat.le_of_lt hn)
    rw [hlast]
    simp only [counted, hcount, hlength]
    omega

/-- A machine with a child of its alt stack and a step refused before. A concatenation is too long, a
text is no opcode, and a script fails at its third element. -/
theorem failed_join_leaves_machine :
    let limits : Limits := ⟨some 2, 5, some 6, none, by decide⟩
    let m₀ := (blank limits [⟨#[1]⟩, ⟨#[2, 3]⟩] []).arrange [⟨#[2, 3]⟩, ⟨#[1]⟩] []
    let uses : List Use :=
      [.call altMember .child, .call 2 (.push (.bytes #[4])), .step (.int 0x6c), .bump 3]
    let m := m₀.history uses
    let ops : List Value := [.int 0x6b, .int 0x6c, .int 0x7e, .int 0x6b]
    start limits (.list [.bytes #[1], .bytes #[2, 3]]) (.list []) = .ok m₀ ∧
      step (.int 0x7e) m =
        .error (.refused (.joinTooLong 3 2)) { m with opCount := m.opCount + 1 } ∧
      step (.text "OP_CAT") m = .error .mismatch { m with opCount := m.opCount + 1 } ∧
      ∃ m', runValue (.list ops) m = .error (.refused (.joinTooLong 3 2)) m' ∧
        ∃ n op m₁, ops[n]? = some op ∧ runValue (.list (ops.take n)) m = .ok () m₁ ∧
          step op m₁ = .error (.refused (.joinTooLong 3 2)) m' ∧
          m' = { m₁ with opCount := m₁.opCount + 1 } ∧ m'.opCount = n + 1 := by
  intro limits m₀ uses m ops
  have hstart : start limits (.list [.bytes #[1], .bytes #[2, 3]]) (.list []) = .ok m₀ := rfl
  have hjoin : step (.int 0x7e) m = .error (.refused (.joinTooLong 3 2)) _ :=
    Action.apply_of_fault? (by decide +kernel)
  have htext : step (.text "OP_CAT") m = .error .mismatch _ :=
    Action.apply_of_fault? (by decide +kernel)
  have hrun : runValue (.list ops) m = .error (.refused (.joinTooLong 3 2)) _ :=
    Action.apply_of_fault? (by decide +kernel)
  obtain ⟨hsteps, hscripts⟩ := failed_step_leaves_machine rfl hstart uses
  refine ⟨hstart, ?_, ?_, _, hrun, ?_⟩
  · rw [hjoin, hsteps _ _ _ hjoin (Or.inr ⟨_, rfl⟩)]
  · rw [htext, hsteps _ _ _ htext (Or.inl rfl)]
  · exact hscripts (.list ops) ops _ _ rfl hrun (Or.inr ⟨_, rfl⟩)

end Machine

end Tapscript
