import Tapscript.Proofs.Atomicity

/-!
# Scripts compose

A run of `s ++ t` is a run of `s` followed by the steps of `t`, so what `s` fails with is what the whole
fails with. A run of `t` alone counts its operations from zero, while the steps of `t` after `s` count on.
Without an op budget nothing looks at the count, so the two end alike but for the count.

* `steps_append`: the steps of two scripts, one after the other.
* `steps_counted`: without an op budget the steps of a script do the same whatever was counted before.
* `scripts_compose`: runs of two scripts on a machine after any history of uses.
-/

namespace Tapscript.Machine

variable {limits : Limits} {memory : Nat} {m : Machine}

theorem steps_append (s t : List Value) (m : Machine) :
    steps (s ++ t) m =
      match steps s m with
      | .ok _ m' => steps t m'
      | .error e m' => .error e m' := by
  induction s generalizing m with
  | nil => rfl
  | cons op rest ih =>
    rw [List.cons_append, steps_cons, steps_cons]
    cases step op m with
    | ok u m' => exact ih m'
    | error e m' => rfl

/-! ## Operations counted before -/

/-- The same ending, with `n` more operations counted. -/
def shifted (n : Int) : EStateM.Result Fault Machine Unit → EStateM.Result Fault Machine Unit
  | .ok u m => .ok u (m.counted n)
  | .error e m => .error e (m.counted n)

theorem counted_comm (m : Machine) (n k : Int) : (m.counted n).counted k = (m.counted k).counted n := by
  simp only [counted, Int.add_right_comm]

theorem dispatch_counted (h : m.Sound limits memory) (op : Value) (n : Int) :
    dispatch op (m.counted n) = shifted n (dispatch op m) := by
  cases op with
  | int code =>
    cases hcode : Opcode.ofCode? code with
    | none =>
      simp only [dispatch, hcode]
      rfl
    | some c =>
      have hstacks : (m.counted n).mainStack = m.mainStack ∧ (m.counted n).altStack = m.altStack :=
        ⟨rfl, rfl⟩
      simp only [dispatch, hcode, execute_sound h, execute_sound (sound_counted h n), hstacks]
      cases c.effect limits.itemBound m.mainStack.items m.altStack.items with
      | error e => rfl
      | ok effect => rfl
  | _ => rfl

theorem bump_unlimited (h : m.Sound limits memory) (hb : limits.opBudget = none) (n : Int) :
    bump n m = .ok () (m.counted n) := by
  rw [bump_sound h, hb]

theorem step_counted (h : m.Sound limits memory) (hb : limits.opBudget = none) (op : Value) (n : Int) :
    step op (m.counted n) = shifted n (step op m) := by
  have hn := sound_counted h n
  rw [step_sound h (bump_unlimited h hb 1), step_sound hn (bump_unlimited hn hb 1), counted_comm,
    dispatch_counted (sound_counted h 1)]
  cases dispatch op (m.counted 1) with
  | error e m' => rfl
  | ok u m' =>
    -- The sizes are those of the same items.
    have hsizes : (m'.counted n).sizeCheck limits = m'.sizeCheck limits := rfl
    simp only [shifted, hsizes]
    cases m'.sizeCheck limits <;> rfl

theorem steps_counted (h : m.Sound limits memory) (hb : limits.opBudget = none) (script : List Value)
    (n : Int) : steps script (m.counted n) = shifted n (steps script m) := by
  induction script generalizing m with
  | nil => rfl
  | cons op rest ih =>
    rw [steps_cons, steps_cons, step_counted h hb]
    cases hstep : step op m with
    | error e m' => rfl
    | ok u m' => exact ih ((step_safe op).returned h hstep)

/-! ## Runs -/

theorem runValue_list (s : List Value) (m : Machine) :
    runValue (.list s) m = steps s { m with opCount := 0 } :=
  runValue_eq_run rfl

/-- A run starts its own count. -/
theorem runValue_recounted (v : Value) (m : Machine) (k : Int) :
    runValue v { m with opCount := k } = runValue v m := by
  by_cases hv : v = .nothing
  · subst hv
    rfl
  · rw [runValue_apply hv, runValue_apply hv]

/-- **Scripts compose.** Take a machine that started with an item size, after any history of uses, and
two scripts `s` and `t`. If a run of `s` fails, then a run of `s ++ t` fails in the same way and leaves
the same machine, under any op budget. If there is no op budget and the run of `s` returns, then a run of
`s ++ t` ends as a run of `t` after it, with the operations of `s` counted as well. What was counted
before a run has no influence on it. -/
theorem scripts_compose {limits : Limits} {itemSize : Nat} {witness script : Value} {m₀ : Machine}
    (hi : limits.itemSize = some itemSize) (h : start limits witness script = .ok m₀)
    (uses : List Use) (s t : List Value) :
    let m := m₀.history uses
    (∀ e m', runValue (.list s) m = .error e m' → runValue (.list (s ++ t)) m = .error e m') ∧
      (∀ m₁, limits.opBudget = none → runValue (.list s) m = .ok () m₁ →
        runValue (.list (s ++ t)) m = shifted s.length (runValue (.list t) m₁)) ∧
      ∀ v k, runValue v { m with opCount := k } = runValue v m := by
  intro m
  obtain ⟨memory, hstart⟩ := sound_of_start h
  have hm : ({ m with opCount := 0 } : Machine).Sound limits memory :=
    sound_reset (sound_history uses hstart)
  refine ⟨?_, ?_, fun v k => runValue_recounted v m k⟩
  · intro e m' hs
    rw [runValue_list] at hs ⊢
    rw [steps_append, hs]
  · intro m₁ hb hs
    rw [runValue_list] at hs
    have hsound : m₁.Sound limits memory := (steps_safe s).returned hm hs
    have hcount : m₁.opCount = 0 + s.length := opCount_of_steps hm hi hs
    have hm₁ : m₁ = ({ m₁ with opCount := 0 } : Machine).counted s.length := by
      rw [counted, ← hcount]
    rw [runValue_list, runValue_list, steps_append, hs, ← steps_counted (sound_reset hsound) hb,
      ← hm₁]

/-- A step refused before, a script that fails in its first half, and one whose second half fails. -/
theorem scripts_compose_two_halves :
    let limits : Limits := ⟨some 3, 5, some 9, none, by decide⟩
    let m₀ := (blank limits [⟨#[1]⟩, ⟨#[2]⟩, ⟨#[3]⟩] []).arrange [⟨#[3]⟩, ⟨#[2]⟩, ⟨#[1]⟩] []
    let m := m₀.history [.step (.int 0x6c), .step (.int 0x6b)]
    let s : List Value := [.int 0x7e, .int 0x6c]
    let t : List Value := [.int 0x7e, .int 0x7e]
    start limits (.list [.bytes #[1], .bytes #[2], .bytes #[3]]) (.list []) = .ok m₀ ∧
      (∃ m', runValue (.list t) m = .error (.refused (.mainTooShallow 1 2)) m' ∧
        runValue (.list (t ++ s)) m = .error (.refused (.mainTooShallow 1 2)) m') ∧
      (∃ m₁, runValue (.list s) m = .ok () m₁ ∧
        runValue (.list (s ++ t)) m = shifted 2 (runValue (.list t) m₁)) ∧
      runValue (.list s) { m with opCount := 7 } = runValue (.list s) m := by
  intro limits m₀ m s t
  have hstart : start limits (.list [.bytes #[1], .bytes #[2], .bytes #[3]]) (.list []) = .ok m₀ := rfl
  obtain ⟨hfails, -, -⟩ :=
    scripts_compose rfl hstart [.step (.int 0x6c), .step (.int 0x6b)] t s
  obtain ⟨-, hreturns, hcount⟩ :=
    scripts_compose rfl hstart [.step (.int 0x6c), .step (.int 0x6b)] s t
  have ht : runValue (.list t) m = .error (.refused (.mainTooShallow 1 2)) _ :=
    Action.apply_of_fault? (by decide +kernel)
  have hs : runValue (.list s) m = .ok () _ := Action.apply_of_no_fault (by decide +kernel)
  exact ⟨hstart, ⟨_, ht, hfails _ _ ht⟩, ⟨_, hs, hreturns _ rfl hs⟩, hcount _ _⟩

end Tapscript.Machine
