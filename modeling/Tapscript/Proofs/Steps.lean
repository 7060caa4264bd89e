import Tapscript.Proofs.Handlers

/-!
# A step of a sound machine

A step counts an operation, carries out an opcode, and checks the machine. On a sound machine two of
the checks at the end are void: there is always room, and the bookkeeping of both stacks agrees. What
remains is the size of every item (`Machine.sizeCheck`).

* `dispatch_ending`: all that can come of carrying out an opcode.
* `step_sound`: a step is the count, the opcode and the size check.
-/

namespace Tapscript.Machine

variable {limits : Limits} {memory : Nat} {m : Machine}

/-! ## Checks that always pass -/

/-- The items of both stacks are among those of the family. -/
theorem combinedDepth_le (h : m.Sound limits memory) :
    m.combinedDepth ≤ limits.stackElements - 1 := by
  have hcount : m.family.sum List.length ≤ limits.stackElements - 1 := h.balanced.count_le
  have hsum := sum_arrange List.length h.alt [] []
  simp only [List.length_nil] at hsum
  simp only [combinedDepth, Stack.depth]
  omega

theorem combinedDepth_lt (h : m.Sound limits memory) : m.combinedDepth < limits.stackElements := by
  have hle := combinedDepth_le h
  have hpos := limits.stackElements_pos
  omega

theorem requireRoom_sound (h : m.Sound limits memory) : requireRoom m = .ok () m := by
  have hlt : ¬ m.combinedDepth ≥ limits.stackElements := Nat.not_le.mpr (combinedDepth_lt h)
  unfold requireRoom
  rw [Action.get_bind_apply, heldTo_sound h, Action.bind_apply_ok (Action.check_ok limits m),
    if_neg hlt]
  rfl

/-- The size of every item on both stacks, main stack first. -/
def sizeCheck (limits : Limits) (m : Machine) : Except Fault Unit := do
  m.mainStack.items.forM fun x => limits.itemBound.check x.size fun _ => .broken
  m.altStack.items.forM fun x => limits.itemBound.check x.size fun _ => .broken

theorem exists_of_forM_error {α : Type} {f : α → Except Fault Unit} {xs : List α} {e : Fault}
    (h : xs.forM f = .error e) : ∃ x ∈ xs, f x = .error e := by
  induction xs with
  | nil => cases h
  | cons x xs ih =>
    change (f x >>= fun _ => xs.forM f) = .error e at h
    cases hx : f x with
    | error e' =>
      rw [hx] at h
      cases h
      exact ⟨x, List.mem_cons_self, hx⟩
    | ok u =>
      rw [hx] at h
      obtain ⟨x', hx', he⟩ := ih h
      exact ⟨x', List.mem_cons_of_mem _ hx', he⟩

/-- The size check fails for an item that is too long, or for want of an item size. -/
theorem sizeCheck_error {e : Fault} (h : m.sizeCheck limits = .error e) :
    (e = .mismatch ∧ limits.itemSize = none) ∨
      (e = .broken ∧ ∃ most, limits.itemSize = some most ∧
        ∃ x ∈ m.mainStack.items ++ m.altStack.items, most < x.size) := by
  have hitem : ∃ x ∈ m.mainStack.items ++ m.altStack.items,
      limits.itemBound.check x.size (fun _ => .broken) = .error e := by
    unfold sizeCheck at h
    cases hmain : m.mainStack.items.forM
        fun x => limits.itemBound.check x.size fun _ => .broken with
    | error e' =>
      rw [hmain] at h
      cases h
      obtain ⟨x, hx, he⟩ := exists_of_forM_error hmain
      exact ⟨x, List.mem_append_left _ hx, he⟩
    | ok u =>
      rw [hmain] at h
      obtain ⟨x, hx, he⟩ := exists_of_forM_error h
      exact ⟨x, List.mem_append_right _ hx, he⟩
  obtain ⟨x, hx, he⟩ := hitem
  cases hsize : limits.itemSize with
  | none =>
    simp only [Limits.itemBound, hsize, Option.map_none, Bound.check_none] at he
    cases he
    exact Or.inl ⟨rfl, rfl⟩
  | some most =>
    simp only [Limits.itemBound, hsize, Option.map_some, Bound.check] at he
    split at he
    · cases he
    · rename_i hlong
      cases he
      exact Or.inr ⟨rfl, most, rfl, x, hx, by simpa using hlong⟩

theorem sizeCheck_ok {size : Nat} (hi : limits.itemSize = some size)
    (h : ∀ x ∈ m.mainStack.items ++ m.altStack.items, x.size ≤ size) :
    m.sizeCheck limits = .ok () := by
  cases hcheck : m.sizeCheck limits with
  | ok u => rfl
  | error e =>
    rcases sizeCheck_error hcheck with ⟨-, hnone⟩ | ⟨-, most, hmost, x, hx, hlong⟩
    · rw [hi] at hnone
      cases hnone
    · rw [hi] at hmost
      cases hmost
      exact absurd hlong (Nat.not_lt.mpr (h x hx))

theorem audit_sound (h : m.Sound limits memory) : m.audit = m.sizeCheck limits := by
  have hlt : ¬ m.combinedDepth ≥ limits.stackElements := Nat.not_le.mpr (combinedDepth_lt h)
  have hmain := Family.audit_balanced h.balanced (member_main m)
  have halt := Family.audit_balanced h.balanced (member_alt h.alt)
  unfold audit
  rw [hmain, halt, heldTo_sound h]
  simp only [bind, Except.bind, hlt, if_false]
  rfl

/-! ## Carrying out an opcode -/

/-- What can come of an opcode on a sound machine: it stops and has changed nothing, for a reason
that has nothing to do with room or bookkeeping, or it puts other items on the two stacks that need
no more room. -/
inductive DispatchEnding (limits : Limits) (memory : Nat) (m : Machine) :
    EStateM.Result Fault Machine Unit → Prop
  | mismatched : DispatchEnding limits memory m (.error .mismatch m)
  | refused {r : Refusal} (h : r.kind ≠ .stackOverflow) :
    DispatchEnding limits memory m (.error (.refused r) m)
  | arranged (main alt : List Item) (h : (m.arrange main alt).Sound limits memory) :
    DispatchEnding limits memory m (.ok () (m.arrange main alt))

theorem execute_ending (h : m.Sound limits memory) (op : Opcode) :
    DispatchEnding limits memory m (execute op m) := by
  rw [execute_sound h]
  cases he : op.effect limits.itemBound m.mainStack.items m.altStack.items with
  | error e =>
    rcases Opcode.effect_error he with rfl | ⟨r, rfl, hr⟩
    · exact .mismatched
    · exact .refused (by rcases hr with hr | hr <;> simp [hr])
  | ok effect =>
    obtain ⟨main, alt⟩ := effect
    obtain ⟨hc, hb⟩ := Opcode.effect_ok he
    have hcount := h.balanced.count_le
    have hbytes := h.balanced.bytes_le
    exact .arranged main alt (sound_arrange h (by omega) (by omega))

theorem dispatch_ending (h : m.Sound limits memory) (op : Value) :
    DispatchEnding limits memory m (dispatch op m) := by
  cases op with
  | int n =>
    cases hcode : Opcode.ofCode? n with
    | some c =>
      simp only [dispatch, hcode]
      exact execute_ending h c
    | none =>
      simp only [dispatch, hcode]
      exact .refused (by rw [kind_opcodeRefusal]; decide)
  | _ => exact .mismatched

/-! ## Steps -/

/-- The machine with `n` more operations counted. -/
def counted (m : Machine) (n : Int) : Machine := { m with opCount := m.opCount + n }

theorem sound_counted (h : m.Sound limits memory) (n : Int) : (m.counted n).Sound limits memory :=
  ⟨h.limits_eq, h.balanced, h.alt⟩

theorem bump_sound (h : m.Sound limits memory) (n : Int) :
    bump n m =
      match limits.opBudget with
      | none => .ok () (m.counted n)
      | some most =>
        if m.opCount + n > most then .error (.refused (.overBudget most)) (m.counted n)
        else .ok () (m.counted n) := by
  have hheld := heldTo_sound (sound_counted h n)
  unfold bump
  rw [Action.modify_bind_apply, Action.get_bind_apply]
  change (Action.check (m.counted n).heldTo >>= _) (m.counted n) = _
  rw [hheld, Action.bind_apply_ok (Action.check_ok limits _)]
  cases limits.opBudget with
  | none => rfl
  | some most =>
    by_cases hover : m.opCount + n > most
    · simp only [hover, if_true]
      rfl
    · simp only [hover, if_false]
      rfl

theorem bump_cases (h : m.Sound limits memory) (n : Int) :
    bump n m = .ok () (m.counted n) ∨
      ∃ most, bump n m = .error (.refused (.overBudget most)) (m.counted n) := by
  rw [bump_sound h]
  cases limits.opBudget with
  | none => exact Or.inl rfl
  | some most =>
    by_cases hover : m.opCount + n > most
    · exact Or.inr ⟨most, if_pos hover⟩
    · exact Or.inl (if_neg hover)

/-- A step whose operation was counted within the budget is the opcode followed by the size check. -/
theorem step_sound (h : m.Sound limits memory) (hbump : bump 1 m = .ok () (m.counted 1))
    (op : Value) :
    step op m =
      match dispatch op (m.counted 1) with
      | .error e m' => .error e m'
      | .ok () m' =>
        match m'.sizeCheck limits with
        | .error e => .error e m'
        | .ok () => .ok () m' := by
  have hending := dispatch_ending (sound_counted h 1) op
  unfold step
  rw [Action.bind_apply_ok hbump, Action.bind_apply]
  generalize dispatch op (m.counted 1) = result at hending
  cases hending with
  | mismatched => rfl
  | refused hr => rfl
  | arranged main alt hsound =>
    simp only [Action.bind_apply_ok (requireRoom_sound hsound), Action.get_bind_apply,
      audit_sound hsound]
    cases sizeCheck limits ((m.counted 1).arrange main alt) <;> rfl

/-- A step that is carried out has counted one operation and has the effect of an opcode. -/
theorem effect_of_step (h : m.Sound limits memory) {op : Value} {m' : Machine}
    (hstep : step op m = .ok () m') :
    ∃ (c : Opcode) (main alt : List Item), op = .int c.code ∧
      c.effect limits.itemBound m.mainStack.items m.altStack.items = .ok (main, alt) ∧
      m' = (m.counted 1).arrange main alt := by
  rcases bump_cases h 1 with hbump | ⟨most, hbump⟩
  · rw [step_sound h hbump] at hstep
    cases op with
    | int n =>
      cases hcode : Opcode.ofCode? n with
      | none =>
        simp only [dispatch, hcode] at hstep
        cases hstep
      | some c =>
        obtain rfl := Opcode.ofCode?_eq_some_iff.mp hcode
        simp only [dispatch, hcode, execute_sound (sound_counted h 1)] at hstep
        cases heffect : c.effect limits.itemBound (m.counted 1).mainStack.items
            (m.counted 1).altStack.items with
        | error e =>
          simp only [heffect] at hstep
          cases hstep
        | ok effect =>
          obtain ⟨main, alt⟩ := effect
          simp only [heffect] at hstep
          refine ⟨c, main, alt, rfl, heffect, ?_⟩
          split at hstep
          · cases hstep
          · cases hstep
            rfl
    | _ => cases hstep
  · unfold step at hstep
    rw [Action.bind_apply_error hbump] at hstep
    cases hstep

/-! ## Runs -/

/-- A fault that is no refusal for want of room. -/
def NoOverflow (e : Fault) : Prop := ∀ r, e = .refused r → r.kind ≠ .stackOverflow

theorem bump_safe (n : Int) : (bump n).Safe (Sound limits memory) NoOverflow := by
  intro m h
  rcases bump_cases h n with hbump | ⟨most, hbump⟩
  · rw [hbump]
    exact sound_counted h n
  · rw [hbump]
    refine ⟨sound_counted h n, ?_⟩
    intro r hr
    cases hr
    simp [Refusal.kind]

theorem step_safe (op : Value) : (step op).Safe (Sound limits memory) NoOverflow := by
  refine Action.safe_bind (bump_safe 1) (fun _ => Action.safe_bind ?_ (fun _ =>
    Action.safe_bind ?_ (fun _ => Action.safe_get_bind ?_)))
  · intro m h
    have hending := dispatch_ending h op
    generalize dispatch op m = result at hending
    cases hending with
    | mismatched => exact ⟨h, fun r hr => by cases hr⟩
    | refused hkind =>
      refine ⟨h, ?_⟩
      intro r hr
      cases hr
      exact hkind
    | arranged main alt hsound => exact hsound
  · intro m h
    rw [requireRoom_sound h]
    exact h
  · intro m h
    refine Action.safe_check ?_
    intro e he r hr
    rw [audit_sound h] at he
    rcases sizeCheck_error he with ⟨rfl, -⟩ | ⟨rfl, -⟩ <;> cases hr

theorem steps_safe (script : List Value) : (steps script).Safe (Sound limits memory) NoOverflow := by
  induction script with
  | nil => exact Action.safe_pure ()
  | cons op rest ih => exact Action.safe_bind (step_safe op) (fun _ => ih)

theorem run_safe (script : List Value) : (run script).Safe (Sound limits memory) NoOverflow := by
  refine Action.safe_bind (Action.safe_modify ?_) (fun _ => steps_safe script)
  intro m h
  exact ⟨h.limits_eq, h.balanced, h.alt⟩

theorem runValue_safe (script : Value) :
    (runValue script).Safe (Sound limits memory) NoOverflow := by
  unfold runValue
  split
  · exact Action.safe_get_bind (fun m _ => run_safe m.script)
  · refine Action.safe_bind (Action.safe_modify ?_) (fun _ => Action.safe_bind
      (Action.safe_check ?_) (fun ops => run_safe ops))
    · intro m h
      exact ⟨h.limits_eq, h.balanced, h.alt⟩
    · intro e he r hr
      rw [Value.elements_error he] at hr
      cases hr

theorem verify_safe : verify.Safe (Sound limits memory) NoOverflow := by
  refine Action.safe_get_bind (fun m _ => Action.safe_bind (run_safe m.script) (fun _ =>
    Action.safe_get_bind (fun m' _ => ?_)))
  split
  · refine Action.safe_refuse ?_
    intro r hr
    cases hr
    split <;> simp [Refusal.kind]
  · exact Action.safe_pure ()

end Tapscript.Machine
