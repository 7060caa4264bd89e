import Tapscript.Proofs.Refinement

/-!
# Looser limits

Limits only refuse. Where a run under some limits ends for another reason than a limit, the run under
looser limits takes the same course and ends in the same way: every comparison that let an operation
pass lets it pass again, and nothing else looks at the limits. So looser limits can turn a refusal for
want of resources into something else, but never the reverse.

* `step_looser`, `run_looser`: one operation, and a script.
* `start_looser`: the admission of a witness.
* `looser_limits_keep_verdict`: an evaluation under two limits.
-/

namespace Tapscript

/-- The kinds of error that only a limit can cause. -/
def ErrorKind.isResource : ErrorKind → Bool
  | oversize | stackOverflow | tooManyOps => true
  | _ => false

/-- Every number of `b` is at least that of `a`, and no op budget is more than any op budget. -/
structure Rules.Within (a b : Rules) : Prop where
  itemSize : a.itemSize ≤ b.itemSize
  stackElements : a.stackElements ≤ b.stackElements
  stackMemory : a.stackMemory ≤ b.stackMemory
  opBudget : ∀ most, b.opBudget = some most → ∃ less, a.opBudget = some less ∧ less ≤ most

theorem Rules.Within.affords {a b : Rules} (h : a.Within b) {i : Nat} (ha : a.Affords i) :
    b.Affords i := by
  intro most hmost
  obtain ⟨less, hless, hle⟩ := h.opBudget most hmost
  exact Nat.le_trans (ha less hless) hle

namespace Plain

variable {rules rules' : Rules} {p : Plain}

/-! ## Operations -/

/-- No limit refuses. -/
def Settled {α : Type} (x : Except Refusal α) : Prop :=
  ∀ r, x = .error r → r.kind.isResource = false

theorem cat_looser {small large : Nat} (hle : small ≤ large) (h : Settled (p.cat small)) :
    p.cat large = p.cat small := by
  unfold cat at h ⊢
  split at h
  · rename_i x y hx hy
    by_cases hsize : x.size + y.size ≤ small
    · have hlarge : x.size + y.size ≤ large := Nat.le_trans hsize hle
      simp only [if_pos hsize, if_pos hlarge]
    · rw [if_neg hsize] at h
      cases h _ rfl
  · rfl

theorem exec_looser {small large : Nat} (hle : small ≤ large) {op : Int}
    (h : Settled (p.exec small op)) : p.exec large op = p.exec small op := by
  by_cases hop : op = 0x7e
  · subst hop
    exact cat_looser hle h
  · unfold exec
    simp only [hop, if_false]

theorem affords_of_settled {i : Nat} {op : Int} (h : Settled (p.step rules i op)) :
    rules.Affords i := by
  intro most hmost
  apply Nat.le_of_not_lt
  intro hover
  have hstep : p.step rules i op = .error (.overBudget most) := by
    simp only [step, hmost, if_pos hover]
  cases h _ hstep

theorem step_looser (hle : rules.Within rules') {i : Nat} {op : Int}
    (h : Settled (p.step rules i op)) : p.step rules' i op = p.step rules i op := by
  have hi := affords_of_settled h
  rw [step_eq_exec hi] at h
  rw [step_eq_exec hi, step_eq_exec (hle.affords hi)]
  exact exec_looser hle.itemSize h

/-! ## Runs -/

theorem run_looser (hle : rules.Within rules') {i : Nat} {ops : List Int}
    (h : ∀ r, (p.run rules i ops).refusal = some r → r.kind.isResource = false) :
    p.run rules' i ops = p.run rules i ops := by
  induction ops generalizing p i with
  | nil => rfl
  | cons op rest ih =>
    simp only [run] at h ⊢
    have hsettled : Settled (p.step rules (i + 1) op) := by
      intro r hr
      apply h r
      rw [hr]
    rw [step_looser hle hsettled]
    cases hstep : p.step rules (i + 1) op with
    | error r => rfl
    | ok q =>
      rw [hstep] at h
      exact ih h

/-! ## Witnesses -/

theorem Fits.looser (hle : rules.Within rules') (h : p.Fits rules) : p.Fits rules' where
  elements := Nat.lt_of_lt_of_le h.elements hle.stackElements
  memory := Nat.le_trans h.memory hle.stackMemory
  items := fun x hx => Nat.le_trans (h.items x hx) hle.itemSize

theorem start_of_fits {witness : List Item} (h : Fits rules ⟨witness, []⟩) :
    start rules witness = .ok ⟨witness, []⟩ := by
  obtain ⟨helements, hmemory, hitems⟩ := h
  simp only [zipper, List.reverse_nil, List.append_nil] at helements hmemory hitems
  have hfind : (witness.find? fun x => decide (rules.itemSize < x.size)) = none := by
    apply List.find?_eq_none.mpr
    intro x hx
    simpa using hitems x hx
  unfold start
  rw [hfind]
  simp only [if_neg (Nat.not_le.mpr helements), if_neg (Nat.not_lt.mpr hmemory)]

theorem start_looser (hle : rules.Within rules') {witness : List Item}
    (h : start rules witness = .ok p) : start rules' witness = .ok p := by
  obtain ⟨rfl, hfits⟩ := fits_start h
  exact start_of_fits (hfits.looser hle)

theorem resource_of_start_error {witness : List Item} {r : Refusal}
    (h : start rules witness = .error r) : r.kind.isResource = true := by
  unfold start at h
  split at h
  · cases h
    rfl
  · split at h
    · cases h
      rfl
    · split at h
      · cases h
        rfl
      · cases h

end Plain

/-! ## Verdicts -/

namespace Verdict

/-- The evaluation failed because of a limit. -/
def IsResourceFailure (v : Verdict) : Prop := ∃ f, v.failure = some f ∧ f.kind.isResource = true

/-- Both evaluations left a machine, and the two hold the same items after as many operations. -/
def SameEnd (a b : Verdict) : Prop :=
  ∃ m m', a.machine = some m ∧ b.machine = some m' ∧
    m'.mainStack.bottomUp = m.mainStack.bottomUp ∧ m'.altStack.bottomUp = m.altStack.bottomUp ∧
    m'.family.held = m.family.held ∧ m'.opCount = m.opCount

end Verdict

namespace Plain

variable {rules rules' : Rules}

theorem exists_verdict (rules : Rules) (script : List Int) (witness : List Item) :
    ∃ v, (evaluate rules.limits (.list (script.map .int))
      (.list (witness.map fun x => .bytes x.bytes))).outcome = .ok v := by
  cases hstart : start rules witness with
  | error r => exact ⟨_, evaluate_refused hstart script⟩
  | ok p => exact ⟨_, evaluate_started hstart script⟩

/-- An evaluation that no limit ended has the same end under looser limits. -/
theorem verdict_looser (hle : rules.Within rules') {script : List Int} {witness : List Item}
    {a b : Verdict}
    (ha : (evaluate rules.limits (.list (script.map .int))
      (.list (witness.map fun x => .bytes x.bytes))).outcome = .ok a)
    (hb : (evaluate rules'.limits (.list (script.map .int))
      (.list (witness.map fun x => .bytes x.bytes))).outcome = .ok b)
    (h : ¬ a.IsResourceFailure) : b.failure = a.failure ∧ a.SameEnd b := by
  cases hstart : start rules witness with
  | error r =>
    rw [evaluate_refused hstart] at ha
    cases ha
    exact absurd ⟨r.failure, rfl, resource_of_start_error hstart⟩ h
  | ok p =>
    rw [evaluate_started hstart] at ha
    rw [evaluate_started (start_looser hle hstart)] at hb
    cases ha
    cases hb
    have hrun : p.run rules' 0 script = p.run rules 0 script := by
      apply run_looser hle
      intro r hr
      have hjudged : (p.run rules 0 script).judged = some r := by
        rw [Ending.judged, hr]
      apply Bool.eq_false_iff.mpr
      intro hresource
      refine h ⟨r.failure, ?_, hresource⟩
      simp only [hjudged, Option.map_some]
    refine ⟨?_, _, _, rfl, rfl, ?_⟩
    · simp only [hrun]
    · simp only [hrun]
      exact ⟨rfl, rfl, rfl, rfl⟩

/-- **Looser limits.** Evaluate a script of numbers against a witness of byte strings under two limits,
the second at least the first. A success stays a success with the same end. A failure for want of items,
by an unknown opcode or by a script that leaves nothing true stays the same failure, with the same
message and the same end. So what fails because of a limit under the looser limits fails because of a
limit under the tighter ones. -/
theorem looser_limits_keep_verdict {rules rules' : Rules} (hle : rules.Within rules')
    (script : List Int) (witness : List Item) :
    ∃ a b : Verdict,
      (evaluate rules.limits (.list (script.map .int))
        (.list (witness.map fun x => .bytes x.bytes))).outcome = .ok a ∧
      (evaluate rules'.limits (.list (script.map .int))
        (.list (witness.map fun x => .bytes x.bytes))).outcome = .ok b ∧
      (a.isSuccess = true → b.isSuccess = true ∧ a.SameEnd b) ∧
      (∀ f, a.failure = some f → f.kind ∈ [.stackUnderflow, .invalidOpcode, .scriptFalse] →
        b.failure = some f ∧ a.SameEnd b) ∧
      (b.IsResourceFailure → a.IsResourceFailure) := by
  obtain ⟨a, ha⟩ := exists_verdict rules script witness
  obtain ⟨b, hb⟩ := exists_verdict rules' script witness
  have hkeep := verdict_looser hle ha hb
  refine ⟨a, b, ha, hb, ?_, ?_, ?_⟩
  · intro hsuccess
    have hnone : a.failure = none := Option.isNone_iff_eq_none.mp hsuccess
    obtain ⟨hfailure, hend⟩ := hkeep (by
      rintro ⟨f, hf, -⟩
      rw [hnone] at hf
      cases hf)
    refine ⟨?_, hend⟩
    rw [Verdict.isSuccess, hfailure, hnone]
    rfl
  · intro f hf hkind
    obtain ⟨hfailure, hend⟩ := hkeep (by
      rintro ⟨g, hg, hresource⟩
      rw [hf] at hg
      cases hg
      simp only [List.mem_cons, List.not_mem_nil, or_false] at hkind
      rcases hkind with hk | hk | hk <;> rw [hk] at hresource <;> cases hresource)
    exact ⟨hfailure.trans hf, hend⟩
  · intro hresource
    apply Classical.byContradiction
    intro hnot
    obtain ⟨hfailure, -⟩ := hkeep hnot
    obtain ⟨f, hf, hkind⟩ := hresource
    exact hnot ⟨f, hfailure ▸ hf, hkind⟩

/-- A script that runs out of items at its third operation, with a budget of three operations and with
none. -/
theorem looser_limits_keep_underflow :
    let tight : Rules := ⟨2, 4, 5, some 3, by decide⟩
    let loose : Rules := ⟨3, 6, 9, none, by decide⟩
    let witness : List Item := [⟨#[1]⟩, ⟨#[2]⟩, ⟨#[3]⟩]
    let script : List Int := [0x7e, 0x6b, 0x7e]
    tight.Within loose ∧ ∃ a b : Verdict,
      (evaluate tight.limits (.list (script.map .int))
        (.list (witness.map fun x => .bytes x.bytes))).outcome = .ok a ∧
      (evaluate loose.limits (.list (script.map .int))
        (.list (witness.map fun x => .bytes x.bytes))).outcome = .ok b ∧
      a.failure = some (Refusal.mainTooShallow 1 2).failure ∧
      b.failure = some (Refusal.mainTooShallow 1 2).failure ∧ a.SameEnd b := by
  intro tight loose witness script
  have hle : tight.Within loose := by
    refine ⟨by decide, by decide, by decide, ?_⟩
    intro most hmost
    cases hmost
  obtain ⟨a, b, ha, hb, -, hkeep, -⟩ := looser_limits_keep_verdict hle script witness
  have hstart : start tight witness = .ok ⟨witness, []⟩ := rfl
  have hjudged : (run tight 0 script ⟨witness, []⟩).judged = some (.mainTooShallow 1 2) := by decide
  have hfailure : a.failure = some (Refusal.mainTooShallow 1 2).failure := by
    rw [evaluate_started hstart, hjudged] at ha
    cases ha
    rfl
  obtain ⟨hsame, hend⟩ := hkeep _ hfailure (by decide)
  exact ⟨hle, a, b, ha, hb, hfailure, hsame, hend⟩

end Plain

end Tapscript
