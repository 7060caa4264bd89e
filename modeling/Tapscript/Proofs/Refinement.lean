import Tapscript.Proofs.Plain

/-!
# The machine carries out the plain machine

Counters, reservations, the pop-then-push of a move and the checks after a step cannot be seen from
outside: a machine that holds two lists does with every operation what the plain machine does with the
lists, and stops with the same refusals.

* `step_machine`: one step, as one operation of the plain machine.
* `steps_machine`, `verify_machine`: a script, and its verdict.
* `outcome_of_start`: an evaluation ends with the lists that the plain machine leaves.
-/

namespace Tapscript.Plain

open Machine (Sound)

variable {rules : Rules} {p q : Plain} {witness : List Item} {script : List Value} {k : Int}

/-! ## The machine of two lists -/

theorem arrange_machine (limits : Limits) (p q : Plain) (witness : List Item) (script : List Value)
    (k : Int) :
    (p.machine limits witness script k).arrange q.main.reverse q.alt.reverse =
      q.machine limits witness script k := by
  simp [machine, Machine.arrange, Machine.mainMember, Machine.altMember, Family.refill,
    Family.tallied, Family.itemCount, Family.itemBytes, Family.sum, Family.members, Stack.holding]

theorem machine_eq_arrange (limits : Limits) (p : Plain) (witness : List Item)
    (script : List Value) :
    p.machine limits witness script 0 =
      (Machine.blank limits witness script).arrange p.main.reverse p.alt.reverse :=
  (arrange_machine limits ⟨[], []⟩ p witness script 0).symm

theorem sound_machine (hp : p.Fits rules) (witness : List Item) (script : List Value) (k : Int) :
    (p.machine rules.limits witness script k).Sound rules.limits rules.stackMemory := by
  have helements := hp.elements
  have hmemory := hp.memory
  simp only [zipper, List.length_append, List.length_reverse] at helements
  simp only [zipper, Item.total_append, Item.total_reverse] at hmemory
  have hsound : (p.machine rules.limits witness script 0).Sound rules.limits rules.stackMemory := by
    rw [machine_eq_arrange]
    refine Machine.sound_arrange_blank rfl ?_ ?_
    · simpa using helements
    · simpa using hmemory
  exact ⟨hsound.limits_eq, hsound.balanced, hsound.alt⟩

/-- The size check after a step passes. -/
theorem sizeCheck_machine (hp : p.Fits rules) (witness : List Item) (script : List Value) (k : Int) :
    (p.machine rules.limits witness script k).sizeCheck rules.limits = .ok () := by
  refine Machine.sizeCheck_ok rfl fun x hx => hp.items x ?_
  simpa [machine, Machine.mainStack, Machine.altStack, zipper] using hx

/-! ## Operations -/

theorem effect_toAlt (bound : Bound) (p : Plain) :
    Opcode.toAlt.effect bound p.main.reverse p.alt.reverse =
      match p.toAlt with
      | .ok q => .ok (q.main.reverse, q.alt.reverse)
      | .error r => .error (.refused r) := by
  rcases List.eq_nil_or_concat p.main with hm | ⟨low, x, hm⟩
  · simp [toAlt, hm, Opcode.effect]
  · simp [toAlt, hm, Opcode.effect]

theorem effect_fromAlt (bound : Bound) (p : Plain) :
    Opcode.fromAlt.effect bound p.main.reverse p.alt.reverse =
      match p.fromAlt with
      | .ok q => .ok (q.main.reverse, q.alt.reverse)
      | .error r => .error (.refused r) := by
  rcases List.eq_nil_or_concat p.alt with ha | ⟨low, x, ha⟩
  · simp [fromAlt, ha, Opcode.effect]
  · simp [fromAlt, ha, Opcode.effect]

theorem effect_cat (itemSize : Nat) (p : Plain) :
    Opcode.cat.effect (some (itemSize : Int)) p.main.reverse p.alt.reverse =
      match p.cat itemSize with
      | .ok q => .ok (q.main.reverse, q.alt.reverse)
      | .error r => .error (.refused r) := by
  rcases List.eq_nil_or_concat p.main with hm | ⟨upper, y, hm⟩
  · simp [cat, hm, Opcode.effect]
  · rcases List.eq_nil_or_concat upper with hu | ⟨low, x, hu⟩
    · simp [cat, hm, hu, Opcode.effect]
    · have hcat : p.cat itemSize =
          if x.size + y.size ≤ itemSize then .ok ⟨low ++ [x ++ y], p.alt⟩
          else .error (.joinTooLong (x.size + y.size) itemSize) := by
        simp [cat, hm, hu]
      have hrev : p.main.reverse = y :: x :: low.reverse := by simp [hm, hu]
      rw [hcat, hrev]
      simp only [Opcode.effect, Bound.check, bind, Except.bind]
      by_cases hsize : x.size + y.size ≤ itemSize
      · rw [if_pos (by omega), if_pos hsize]
        simp [pure, Except.pure]
      · rw [if_neg (by omega), if_neg hsize]

/-- The effect of an opcode on the stacks is the operation on the lists. -/
theorem effect_exec (itemSize : Nat) (p : Plain) (c : Opcode) :
    c.effect (some (itemSize : Int)) p.main.reverse p.alt.reverse =
      match p.exec itemSize c.code with
      | .ok q => .ok (q.main.reverse, q.alt.reverse)
      | .error r => .error (.refused r) := by
  cases c with
  | toAlt => exact effect_toAlt _ p
  | fromAlt => exact effect_fromAlt _ p
  | cat => exact effect_cat itemSize p

theorem exec_unknown {op : Int} (h : Opcode.ofCode? op = none) (itemSize : Nat) (p : Plain) :
    p.exec itemSize op = .error (.unknownOpcode (toString op) [op]) := by
  unfold Opcode.ofCode? at h
  unfold exec
  split at h
  · cases h
  · split at h
    · cases h
    · split at h
      · cases h
      · rename_i h₁ h₂ h₃
        rw [if_neg h₁, if_neg h₂, if_neg h₃]

/-- What an operation on the lists of a machine means for the machine. -/
def carried (limits : Limits) (witness : List Item) (script : List Value) (k : Int) (p : Plain) :
    Except Refusal Plain → EStateM.Result Fault Machine Unit
  | .ok q => .ok () (q.machine limits witness script k)
  | .error r => .error (.refused r) (p.machine limits witness script k)

/-- On the machine of two lists an opcode is carried out as on the lists. -/
theorem dispatch_machine (hp : p.Fits rules) (op : Int) (witness : List Item)
    (script : List Value) (k : Int) :
    Machine.dispatch (.int op) (p.machine rules.limits witness script k) =
      p.carried rules.limits witness script k (p.exec rules.itemSize op) := by
  cases hcode : Opcode.ofCode? op with
  | none =>
    have hplain : (Value.int op).plain = toString op := String.ofList_toList
    have hnumbers : (Value.int op).numbers = [op] := rfl
    have hrefusal : Machine.opcodeRefusal (.int op) = .unknownOpcode (toString op) [op] := by
      simp only [Machine.opcodeRefusal, Opcode.ofValue?, hcode, hplain, hnumbers]
    simp only [Machine.dispatch, hcode]
    rw [exec_unknown hcode, carried, ← hrefusal]
    rfl
  | some c =>
    obtain rfl := Opcode.ofCode?_eq_some_iff.mp hcode
    have hexecute := Machine.execute_sound (sound_machine hp witness script k) c
    have heffect : c.effect rules.limits.itemBound
        (p.machine rules.limits witness script k).mainStack.items
        (p.machine rules.limits witness script k).altStack.items = _ :=
      effect_exec rules.itemSize p c
    simp only [Machine.dispatch, hcode]
    rw [hexecute, heffect]
    cases p.exec rules.itemSize c.code with
    | error r => rfl
    | ok q => exact congrArg (EStateM.Result.ok ()) (arrange_machine _ p q witness script k)

/-! ## Steps and runs -/

/-- A step is one operation of the plain machine, with the number of operations counted so far. -/
theorem step_machine (hp : p.Fits rules) (op : Int) (witness : List Item) (script : List Value)
    (k : Nat) :
    Machine.step (.int op) (p.machine rules.limits witness script k) =
      p.carried rules.limits witness script (k + 1 : Nat) (p.step rules (k + 1) op) := by
  have hsound := sound_machine hp witness script k
  have hbump := Machine.bump_sound hsound 1
  have hcount : (p.machine rules.limits witness script k).counted 1 =
      p.machine rules.limits witness script (k + 1 : Nat) := rfl
  have hops : (p.machine rules.limits witness script k).opCount = k := rfl
  -- Once the operation is counted, the opcode decides alone: no check after it fails.
  have hexec : Machine.bump 1 (p.machine rules.limits witness script k) =
        .ok () (p.machine rules.limits witness script (k + 1 : Nat)) →
      Machine.step (.int op) (p.machine rules.limits witness script k) =
        p.carried rules.limits witness script (k + 1 : Nat) (p.exec rules.itemSize op) := by
    intro hok
    rw [Machine.step_sound hsound hok, hcount, dispatch_machine hp]
    cases hexec : p.exec rules.itemSize op with
    | error r => rfl
    | ok q => simp only [carried, sizeCheck_machine (fits_exec hp hexec)]
  rw [hcount, hops] at hbump
  unfold step
  cases hbudget : rules.opBudget with
  | none =>
    have hlimits : rules.limits.opBudget = none := hbudget
    rw [hlimits] at hbump
    exact hexec hbump
  | some most =>
    have hlimits : rules.limits.opBudget = some most := hbudget
    simp only [hlimits] at hbump
    by_cases hover : most < k + 1
    · rw [if_pos (by omega)] at hbump
      simp only [if_pos hover, carried]
      unfold Machine.step
      rw [Action.bind_apply_error hbump]
    · rw [if_neg (by omega)] at hbump
      simp only [if_neg hover]
      exact hexec hbump

/-- The machine a run of the plain machine leaves, with the refusal that ended it. -/
def Ending.carried (limits : Limits) (witness : List Item) (script : List Value) (e : Ending) :
    EStateM.Result Fault Machine Unit :=
  match e.refusal with
  | some r => .error (.refused r) (e.lists.machine limits witness script e.ops)
  | none => .ok () (e.lists.machine limits witness script e.ops)

theorem steps_machine (hp : p.Fits rules) (ops : List Int) (witness : List Item)
    (script : List Value) (k : Nat) :
    Machine.steps (ops.map .int) (p.machine rules.limits witness script k) =
      (p.run rules k ops).carried rules.limits witness script := by
  induction ops generalizing p k with
  | nil => rfl
  | cons op rest ih =>
    have hstep := step_machine hp op witness script k
    simp only [List.map_cons, Machine.steps, run]
    cases hplain : p.step rules (k + 1) op with
    | error r =>
      rw [hplain] at hstep
      exact Action.bind_apply_error hstep _
    | ok q =>
      rw [hplain] at hstep
      rw [Action.bind_apply_ok hstep]
      exact ih (fits_step hp hplain) (k + 1)

theorem isTrue_machine (limits : Limits) (p : Plain) (witness : List Item) (script : List Value)
    (k : Int) :
    (p.machine limits witness script k).isTrue = true ↔
      ∃ x ∈ p.main, x.bytes ≠ #[] ∧ x.bytes ≠ #[0] := by
  simp [machine, Machine.isTrue, Machine.mainStack, Stack.anyTrue, Stack.bottomUp, Item.anyTrue,
    Item.isTrue]

/-- A verification runs the script and judges what it leaves. -/
theorem verify_machine (hp : p.Fits rules) (ops : List Int) (witness : List Item) :
    Machine.verify (p.machine rules.limits witness (ops.map .int) 0) =
      Ending.carried rules.limits witness (ops.map .int)
        { p.run rules 0 ops with refusal := (p.run rules 0 ops).judged } := by
  have hrun : Machine.run (ops.map .int) (p.machine rules.limits witness (ops.map .int) 0) =
      (p.run rules 0 ops).carried rules.limits witness (ops.map .int) :=
    steps_machine hp ops witness (ops.map .int) 0
  unfold Machine.verify
  rw [Action.get_bind_apply]
  change (Machine.run (ops.map .int) >>= _) _ = _
  generalize p.run rules 0 ops = e at hrun
  cases hrefusal : e.refusal with
  | some r =>
    simp only [Ending.carried, hrefusal] at hrun
    rw [Action.bind_apply_error hrun]
    simp only [Ending.carried, Ending.judged, hrefusal]
  | none =>
    simp only [Ending.carried, hrefusal] at hrun
    have htrue := isTrue_machine rules.limits e.lists witness (ops.map .int) e.ops
    rw [Action.bind_apply_ok hrun, Action.get_bind_apply]
    simp only [Ending.carried, Ending.judged, hrefusal]
    by_cases hjudged : ∃ x ∈ e.lists.main, x.bytes ≠ #[] ∧ x.bytes ≠ #[0]
    · rw [if_pos hjudged, htrue.mpr hjudged]
      rfl
    · have hfalse : (e.lists.machine rules.limits witness (ops.map .int) e.ops).isTrue = false :=
        Bool.eq_false_iff.mpr (fun h => hjudged (htrue.mp h))
      rw [if_neg hjudged, hfalse]
      by_cases hempty : e.lists.main = []
      · simp [hempty, machine, Machine.mainStack, Stack.isEmpty, Action.refuse]
      · simp [hempty, machine, Machine.mainStack, Stack.isEmpty, Action.refuse]

/-! ## Evaluations -/

/-- A witness of items is launched as the main list, if there is room for it. -/
theorem launch_eq_machine (rules : Rules) (items : List Item) (ops : List Value) :
    Machine.launch rules.limits rules.stackMemory items ops =
      if rules.stackElements ≤ items.length then
        .error (.refused (.tooManyItems (rules.stackElements - 1) items.length))
      else if rules.stackMemory < Item.total items then
        .error (.refused (.tooManyBytes rules.stackMemory (Item.total items)))
      else .ok (machine rules.limits items ops ⟨items, []⟩ 0) := by
  rw [Machine.launch, machine_eq_arrange]
  rfl

theorem start_machine (rules : Rules) (script : List Value) (witness : List Item) :
    Machine.start rules.limits (.list (witness.map fun x => .bytes x.bytes)) (.list script) =
      match start rules witness with
      | .ok p => .ok (p.machine rules.limits witness script 0)
      | .error r => .error (.refused r) := by
  have hitems : (witness.map fun x => Value.bytes x.bytes).map Value.heldItem = witness := by
    simp [Value.heldItem, Value.content?, Function.comp_def]
  rw [Machine.start_eq_launch rules.itemSize_limits rules.stackMemory_limits rfl, hitems,
    Value.findSome?_flaw?_bytes, start]
  cases witness.find? fun x => rules.itemSize < x.size with
  | some x => rfl
  | none =>
    refine (launch_eq_machine rules witness script).trans ?_
    by_cases hc : rules.stackElements ≤ witness.length
    · simp only [if_pos hc]
    · by_cases hb : rules.stackMemory < Item.total witness
      · simp only [if_neg hc, if_pos hb]
      · simp only [if_neg hc, if_neg hb]

theorem evaluate_refused {r : Refusal} (h : start rules witness = .error r) (ops : List Int) :
    (evaluate rules.limits (.list (ops.map .int))
        (.list (witness.map fun x => .bytes x.bytes))).outcome = .ok (.failed r.failure) := by
  rw [evaluate_eq, start_machine, h]

/-- An evaluation whose machine starts with two lists ends with the lists that the run leaves, and is judged
by them. -/
theorem outcome_of_start (hp : p.Fits rules) {ops : List Int} {given code : Value}
    (h : Machine.start rules.limits given code =
      .ok (p.machine rules.limits witness (ops.map .int) 0)) :
    (evaluate rules.limits code given).outcome =
      .ok ⟨(p.run rules 0 ops).judged.map Refusal.failure,
        some ((p.run rules 0 ops).lists.machine rules.limits witness (ops.map .int)
          (p.run rules 0 ops).ops)⟩ := by
  rw [evaluate_eq, h]
  simp only [verify_machine hp]
  cases hjudged : (p.run rules 0 ops).judged with
  | none => simp [Ending.carried, Verdict.success]
  | some r => simp [Ending.carried, Verdict.failed]

theorem evaluate_started (h : start rules witness = .ok p) (ops : List Int) :
    (evaluate rules.limits (.list (ops.map .int))
        (.list (witness.map fun x => .bytes x.bytes))).outcome =
      .ok ⟨(p.run rules 0 ops).judged.map Refusal.failure,
        some ((p.run rules 0 ops).lists.machine rules.limits witness (ops.map .int)
          (p.run rules 0 ops).ops)⟩ := by
  obtain ⟨-, hp⟩ := fits_start h
  apply outcome_of_start hp
  rw [start_machine, h]

end Tapscript.Plain
