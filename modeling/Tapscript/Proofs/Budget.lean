import Tapscript.Proofs.Stops

/-!
# Op budgets

A run under an op budget is the run without one, cut off where it would count one operation too many. The
count is looked at before the operation is: what the operation beyond the budget is, and whether it is one
at all, has no influence.

* `step_budgeted`: one step under a budget.
* `steps_budgeted`: the steps of a script, as those of its part within the budget.
* `budget_cuts_run`: runs with and without a budget on a machine after any history of uses.
-/

namespace Tapscript

/-- The same limits with another op budget. -/
def Limits.budgeted (l : Limits) (budget : Option Nat) : Limits := { l with opBudget := budget }

namespace Machine

/-- The machine held to another op budget, and otherwise as it is. -/
def budgeted (m : Machine) (budget : Option Nat) : Machine :=
  { m with limits := m.limits.map (·.budgeted budget) }

/-- The same ending, with the machine held to another op budget. -/
def rebudgeted (budget : Option Nat) :
    EStateM.Result Fault Machine Unit → EStateM.Result Fault Machine Unit
  | .ok u m => .ok u (m.budgeted budget)
  | .error e m => .error e (m.budgeted budget)

variable {limits : Limits} {memory : Nat} {m m' : Machine}

theorem budgeted_budgeted (m : Machine) (a b : Option Nat) :
    (m.budgeted a).budgeted b = m.budgeted b := by
  simp only [budgeted, Option.map_map]
  rfl

theorem sound_budgeted (h : m.Sound limits memory) (budget : Option Nat) :
    (m.budgeted budget).Sound (limits.budgeted budget) memory where
  limits_eq := by rw [budgeted, h.limits_eq, Option.map_some]
  balanced := h.balanced
  alt := h.alt

/-! ## Steps -/

/-- A step is counted whatever comes of it. -/
theorem opCount_after_step (h : m.Sound limits memory) (op : Value) :
    ((step op).after m).opCount = m.opCount + 1 := by
  unfold Action.after
  rcases bump_cases h 1 with hbump | ⟨most, hbump⟩
  · have hending := dispatch_ending (sound_counted h 1) op
    rw [step_sound h hbump]
    generalize dispatch op (m.counted 1) = result at hending
    cases hending with
    | mismatched => rfl
    | refused hr => rfl
    | arranged main alt hsound =>
      dsimp only
      cases sizeCheck limits ((m.counted 1).arrange main alt) <;> rfl
  · unfold step
    rw [Action.bind_apply_error hbump]
    rfl

/-- The opcodes look at the item size and not at the budget. -/
theorem dispatch_budgeted (h : m.Sound limits memory) (op : Value) (budget : Option Nat) :
    dispatch op (m.budgeted budget) = rebudgeted budget (dispatch op m) := by
  cases op with
  | int code =>
    cases hcode : Opcode.ofCode? code with
    | none =>
      simp only [dispatch, hcode]
      rfl
    | some c =>
      have hbound : (limits.budgeted budget).itemBound = limits.itemBound := rfl
      have hmain : (m.budgeted budget).mainStack = m.mainStack := rfl
      have halt : (m.budgeted budget).altStack = m.altStack := rfl
      simp only [dispatch, hcode, execute_sound h, execute_sound (sound_budgeted h budget), hbound,
        hmain, halt]
      cases c.effect limits.itemBound m.mainStack.items m.altStack.items with
      | error e => rfl
      | ok effect => rfl
  | _ => rfl

theorem step_budgeted (h : m.Sound limits memory) (hb : limits.opBudget = none) (op : Value)
    (budget : Nat) :
    step op (m.budgeted (some budget)) =
      if (budget : Int) < m.opCount + 1 then
        .error (.refused (.overBudget budget)) ((m.counted 1).budgeted (some budget))
      else rebudgeted (some budget) (step op m) := by
  have hsound := sound_budgeted h (some budget)
  have hbump : bump 1 (m.budgeted (some budget)) =
      if (budget : Int) < m.opCount + 1 then
        .error (.refused (.overBudget budget)) ((m.counted 1).budgeted (some budget))
      else .ok () ((m.counted 1).budgeted (some budget)) := bump_sound hsound 1
  by_cases hover : (budget : Int) < m.opCount + 1
  · rw [if_pos hover] at hbump ⊢
    unfold step
    rw [Action.bind_apply_error hbump]
  · rw [if_neg hover] at hbump ⊢
    have hcounted : (m.budgeted (some budget)).counted 1 = (m.counted 1).budgeted (some budget) := rfl
    rw [step_sound hsound hbump, step_sound h (bump_unlimited h hb 1), hcounted,
      dispatch_budgeted (sound_counted h 1)]
    cases dispatch op (m.counted 1) with
    | error e m' => rfl
    | ok u m' =>
      -- The sizes are those of the same items, under the same item size.
      have hsizes : (m'.budgeted (some budget)).sizeCheck (limits.budgeted (some budget)) =
          m'.sizeCheck limits := rfl
      simp only [rebudgeted, hsizes]
      cases m'.sizeCheck limits <;> rfl

/-! ## Scripts -/

/-- With room for `room` more operations, the steps of a script are those of its first `room` elements, and
then a refusal if there is a further element. -/
theorem steps_budgeted (h : m.Sound limits memory) (hb : limits.opBudget = none) {budget room : Nat}
    (hroom : m.opCount + room = budget) (script : List Value) :
    steps script (m.budgeted (some budget)) =
      match steps (script.take room) m with
      | .error e m' => .error e (m'.budgeted (some budget))
      | .ok _ m' =>
        if script.length ≤ room then .ok () (m'.budgeted (some budget))
        else .error (.refused (.overBudget budget))
          { m'.budgeted (some budget) with opCount := budget + 1 } := by
  induction script generalizing m room with
  | nil => simp only [List.take_nil, List.length_nil, Nat.zero_le, if_true]; rfl
  | cons op rest ih =>
    rw [steps_cons, step_budgeted h hb]
    cases room with
    | zero =>
      have hcount : m.opCount = budget := by omega
      have hlong : ¬ (op :: rest).length ≤ 0 := by simp
      have hcounted : (m.counted 1).budgeted (some budget) =
          { m.budgeted (some budget) with opCount := budget + 1 } := by rw [← hcount]; rfl
      rw [if_pos (by omega), List.take_zero, hcounted]
      simp only [steps, if_neg hlong]
      rfl
    | succ room =>
      rw [if_neg (by omega), List.take_succ_cons, steps_cons]
      cases hstep : step op m with
      | error e m' => rfl
      | ok u m' =>
        have hcount : m'.opCount = m.opCount + 1 := by
          have hafter := opCount_after_step h op
          rw [Action.after, hstep] at hafter
          exact hafter
        have hless : m'.opCount + room = budget := by omega
        have hrest := ih ((step_safe op).returned h hstep) hless
        simp only [rebudgeted, hrest, List.length_cons, Nat.add_le_add_iff_right]

/-- **Op budgets.** Take a machine that started, after any history of uses, and run a script once without
an op budget and once under one. If the free run goes through and the script is not longer than the
budget, or if it stops within the budget, then the other run ends in the same way. Otherwise the first
elements, as many as the budget, go through in the free run, and the other run is refused for too many
operations, with the machine that they leave and one operation more than the budget counted, whatever the
remaining elements are. -/
theorem budget_cuts_run {limits : Limits} {witness script : Value} {m₀ : Machine}
    (h : start limits witness script = .ok m₀) (uses : List Use) (ops : List Value) (budget : Nat) :
    let free := (m₀.history uses).budgeted none
    let held := (m₀.history uses).budgeted (some budget)
    (∀ m', runValue (.list ops) free = .ok () m' → ops.length ≤ budget →
        runValue (.list ops) held = .ok () (m'.budgeted (some budget))) ∧
      (∀ n e m', free.StopsAt ops n e m' → n < budget →
        runValue (.list ops) held = .error e (m'.budgeted (some budget))) ∧
      ((¬ ∃ m', runValue (.list ops) free = .ok () m' ∧ ops.length ≤ budget) →
        (¬ ∃ n e m', free.StopsAt ops n e m' ∧ n < budget) →
        ∃ m₁, runValue (.list (ops.take budget)) free = .ok () m₁ ∧
          runValue (.list ops) held = .error (.refused (.overBudget budget))
            { m₁.budgeted (some budget) with opCount := budget + 1 } ∧
          (Refusal.overBudget budget).kind = .tooManyOps) := by
  intro free held
  obtain ⟨memory, hstart⟩ := sound_of_start h
  have hfree : ({ free with opCount := 0 } : Machine).Sound (limits.budgeted none) memory :=
    sound_reset (sound_budgeted (sound_history uses hstart) none)
  have hheld : ({ held with opCount := 0 } : Machine) =
      ({ free with opCount := 0 } : Machine).budgeted (some budget) :=
    (budgeted_budgeted { m₀.history uses with opCount := 0 } none (some budget)).symm
  have hcut := steps_budgeted hfree rfl (Int.zero_add (budget : Int)) ops
  rw [← hheld, ← runValue_list, ← runValue_list] at hcut
  refine ⟨?_, ?_, ?_⟩
  · intro m' hrun hlength
    rw [List.take_of_length_le hlength, hrun] at hcut
    simpa only [if_pos hlength] using hcut
  · intro n e m' hstops hn
    rw [((stopsAt_take_iff hn).mpr hstops).runValue_eq] at hcut
    exact hcut
  · intro hlong hlate
    cases htake : runValue (.list (ops.take budget)) free with
    | error e m' =>
      obtain ⟨n, hstops⟩ := runValue_error_iff.mp htake
      have hn : n < budget := by
        have hlt := hstops.lt_length
        rw [List.length_take] at hlt
        omega
      exact absurd ⟨n, e, m', (stopsAt_take_iff hn).mp hstops, hn⟩ hlate
    | ok u m₁ =>
      have hlength : ¬ ops.length ≤ budget := by
        intro hle
        rw [List.take_of_length_le hle] at htake
        exact hlong ⟨m₁, htake, hle⟩
      rw [htake] at hcut
      refine ⟨m₁, rfl, ?_, rfl⟩
      simpa only [if_neg hlength] using hcut

/-- A script whose second element is a text. Under a budget of two operations the run stops at the text, and
under a budget of one it is refused before the text is looked at. -/
theorem budget_cuts_before_text :
    let limits : Limits := ⟨some 3, 5, some 9, some 7, by decide⟩
    let m₀ := (blank limits [⟨#[1]⟩, ⟨#[2]⟩] []).arrange [⟨#[2]⟩, ⟨#[1]⟩] []
    let m := m₀.history [.step (.int 0x6c), .run (.list [.int 0x6b, .int 0x6c])]
    let ops : List Value := [.int 0x6b, .text "OP_CAT", .int 0x7e]
    start limits (.list [.bytes #[1], .bytes #[2]]) (.list []) = .ok m₀ ∧
      (∃ m', (m.budgeted none).StopsAt ops 1 .mismatch m' ∧
        runValue (.list ops) (m.budgeted (some 2)) = .error .mismatch (m'.budgeted (some 2))) ∧
      ∃ m₁, runValue (.list [.int 0x6b]) (m.budgeted none) = .ok () m₁ ∧
        runValue (.list ops) (m.budgeted (some 1)) = .error (.refused (.overBudget 1))
          { m₁.budgeted (some 1) with opCount := 2 } ∧
        runValue (.list [.int 0x6b]) (m.budgeted (some 1)) = .ok () (m₁.budgeted (some 1)) := by
  intro limits m₀ m ops
  have hstart : start limits (.list [.bytes #[1], .bytes #[2]]) (.list []) = .ok m₀ := rfl
  have hfirst : runValue (.list [.int 0x6b]) (m.budgeted none) = .ok () _ :=
    Action.apply_of_no_fault (by decide +kernel)
  have htext : (m.budgeted none).StopsAt ops 1 .mismatch _ :=
    ⟨.text "OP_CAT", _, rfl, hfirst, Action.apply_of_fault? (by decide +kernel)⟩
  have hcut := budget_cuts_run hstart [.step (.int 0x6c), .run (.list [.int 0x6b, .int 0x6c])]
  refine ⟨hstart, ⟨_, htext, (hcut ops 2).2.1 _ _ _ htext (by decide)⟩, _, hfirst, ?_,
    (hcut [.int 0x6b] 1).1 _ hfirst (by decide)⟩
  obtain ⟨m₁, htake, hrefused, -⟩ := (hcut ops 1).2.2
    (by
      rintro ⟨m', hrun, -⟩
      rw [htext.runValue_eq] at hrun
      cases hrun)
    (by
      rintro ⟨n, e, m', hstops, hn⟩
      have hearly := ((stopsAt_take_iff hn).mpr hstops).runValue_eq
      rw [show ops.take 1 = [.int 0x6b] from rfl, hfirst] at hearly
      cases hearly)
  rw [show ops.take 1 = [.int 0x6b] from rfl, hfirst] at htake
  rw [(EStateM.Result.ok.inj htake).2]
  exact hrefused

end Machine

end Tapscript
