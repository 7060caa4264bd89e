import Tapscript.Proofs.Start

/-!
# No step overflows

A machine can be used in many ways after it has started: steps, runs, changes of the operation count,
and calls on its stacks and on further stacks that are made from these. None of them, whether it
returns or stops, brings the machine into a state in which a step finds no room for an item it took
from a stack, or bookkeeping that does not agree.

* `use_safe`: every use keeps a machine sound.
* `no_step_overflows`: what a step on a machine after any history of uses does not do.
-/

namespace Tapscript.Machine

/-- The ways a machine is used from outside. A call is made on a member of the family by its number:
the main stack, the alt stack, or a stack that descends from them. -/
inductive Use where
  | step (op : Value)
  | run (script : Value)
  | verify
  | bump (n : Int)
  | call (member : Nat) (c : Family.Call)

def use : Use → Action Machine Unit
  | .step op => step op
  | .run script => runValue script
  | .verify => verify
  | .bump n => bump n
  | .call i c => do
    let _ ← onFamily (Family.perform i c)

/-- The machine after a history of uses. -/
def history (uses : List Use) (m : Machine) : Machine := Action.replay (uses.map use) m

variable {limits : Limits} {memory : Nat} {m : Machine}

theorem call_safe (i : Nat) (c : Family.Call) :
    (onFamily (Family.perform i c)).Safe (Sound limits memory) (· ≠ .broken) := by
  -- The family is balanced and has an alt stack; no call takes a child away.
  have hperform := Family.perform_safe
    (P := fun f => f.Balanced (limits.stackElements - 1) memory ∧ f.children ≠ [])
    (fun _ hf => hf.1) (fun f j items hf hb => ⟨hb, Family.children_refill hf.2 j items⟩)
    (fun f hf => ⟨Family.balanced_grown hf.1, by simp [Family.grown]⟩) i c
  refine Action.safe_focus hperform (fun m h => ⟨h.balanced, h.alt⟩) ?_
  intro m f h hf
  exact ⟨h.limits_eq, hf.1, hf.2⟩

theorem use_safe (u : Use) : (use u).Safe (Sound limits memory) (fun _ => True) := by
  cases u with
  | step op => exact (step_safe op).mono (fun _ _ => trivial)
  | run script => exact (runValue_safe script).mono (fun _ _ => trivial)
  | verify => exact verify_safe.mono (fun _ _ => trivial)
  | bump n => exact (bump_safe n).mono (fun _ _ => trivial)
  | call i c =>
    exact Action.safe_bind ((call_safe i c).mono (fun _ _ => trivial)) (fun _ => Action.safe_pure ())

theorem sound_history (uses : List Use) (h : m.Sound limits memory) :
    (m.history uses).Sound limits memory := by
  refine Action.Safe.replay (Q := fun _ => True) ?_ h
  intro act hact
  obtain ⟨u, -, rfl⟩ := List.mem_map.mp hact
  exact use_safe u

theorem sound_of_start {witness script : Value} (h : start limits witness script = .ok m) :
    ∃ memory, m.Sound limits memory := by
  obtain ⟨vs, items, ops, memory, -, -, -, hm, hlaunch⟩ := start_ok h
  exact ⟨memory, sound_of_launch hm hlaunch⟩

/-- The bookkeeping of both stacks passes its check. -/
def BookkeepingAgrees (m : Machine) : Prop :=
  m.family.audit m.mainStack = .ok () ∧ m.family.audit m.altStack = .ok ()

theorem bookkeepingAgrees_sound (h : m.Sound limits memory) : m.BookkeepingAgrees :=
  ⟨Family.audit_balanced h.balanced (member_main m),
    Family.audit_balanced h.balanced (member_alt h.alt)⟩

/-- The only bookkeeping a step can find broken is the size of an item. -/
theorem step_broken (h : m.Sound limits memory) {op : Value} {m' : Machine}
    (hstep : step op m = .error .broken m') :
    ∃ most, limits.itemSize = some most ∧
      ∃ x ∈ m'.mainStack.items ++ m'.altStack.items, most < x.size := by
  rcases bump_cases h 1 with hbump | ⟨most, hbump⟩
  · rw [step_sound h hbump] at hstep
    have hending := dispatch_ending (sound_counted h 1) op
    generalize dispatch op (m.counted 1) = result at hending hstep
    cases hending with
    | mismatched => cases hstep
    | refused hr => cases hstep
    | arranged main alt hsound =>
      cases hsize : sizeCheck limits ((m.counted 1).arrange main alt) with
      | ok u =>
        simp only [hsize] at hstep
        cases hstep
      | error e =>
        simp only [hsize] at hstep
        cases hstep
        rcases sizeCheck_error hsize with ⟨he, -⟩ | ⟨-, hlong⟩
        · cases he
        · exact hlong
  · unfold step at hstep
    rw [Action.bind_apply_error hbump] at hstep
    cases hstep

/-- **No step overflows.** After any history of uses of a machine that started, whatever came of each
of them, a further step is never refused for want of room. No opcode makes a total negative. The
bookkeeping of both stacks agrees when the step checks it, and after the step whatever comes of it.
If the step finds anything broken at all, then it is an item longer than the item size. -/
theorem no_step_overflows {limits : Limits} {witness script : Value} {m₀ : Machine}
    (h : start limits witness script = .ok m₀) (uses : List Use) (op : Value) :
    let m := m₀.history uses
    (∀ r m', step op m = .error (.refused r) m' → r.kind ≠ .stackOverflow) ∧
      (∀ m', dispatch op (m.counted 1) ≠ .error .broken m') ∧
      (∀ m', dispatch op (m.counted 1) = .ok () m' →
        requireRoom m' = .ok () m' ∧ m'.BookkeepingAgrees) ∧
      ((step op).after m).BookkeepingAgrees ∧
      ∀ m', step op m = .error .broken m' →
        ∃ most, limits.itemSize = some most ∧
          ∃ x ∈ m'.mainStack.items ++ m'.altStack.items, most < x.size := by
  intro m
  obtain ⟨memory, hstart⟩ := sound_of_start h
  have hm : m.Sound limits memory := sound_history uses hstart
  have hending := dispatch_ending (sound_counted hm 1) op
  refine ⟨?_, ?_, ?_, bookkeepingAgrees_sound ((step_safe op).after hm), ?_⟩
  · intro r m' hstep
    exact (step_safe op).fault hm hstep r rfl
  · intro m' hbroken
    rw [hbroken] at hending
    cases hending
  · intro m' hok
    rw [hok] at hending
    cases hending with
    | arranged main alt hsound => exact ⟨requireRoom_sound hsound, bookkeepingAgrees_sound hsound⟩
  · intro m' hstep
    exact step_broken hm hstep

/-- A full family, an item over the item size on a grandchild of the main stack, and steps that were
refused before. -/
theorem no_step_overflows_when_full :
    let limits : Limits := ⟨some 2, 5, some 6, none, by decide⟩
    let m₀ := (blank limits [⟨#[1]⟩, ⟨#[2]⟩] []).arrange [⟨#[2]⟩, ⟨#[1]⟩] []
    let uses : List Use :=
      [.call altMember .child, .call 2 (.push (.bytes #[3])), .step (.int 0x6b), .step (.int 0x6c),
        .step (.int 0x6c), .call 2 (.push (.item ⟨#[4, 5, 6]⟩)), .call mainMember (.push (.bytes #[]))]
    let m := m₀.history uses
    start limits (.list [.bytes #[1], .bytes #[2]]) (.list []) = .ok m₀ ∧
      m.family.held = ⟨some 4, some 6⟩ ∧
      (∀ r m', step (.int 0x6b) m = .error (.refused r) m' → r.kind ≠ .stackOverflow) ∧
      ((step (.int 0x6b)).after m).BookkeepingAgrees := by
  intro limits m₀ uses m
  have hstart : start limits (.list [.bytes #[1], .bytes #[2]]) (.list []) = .ok m₀ := rfl
  have h := no_step_overflows hstart uses (.int 0x6b)
  exact ⟨hstart, by decide, h.1, h.2.2.2.1⟩

end Tapscript.Machine
