import Mathlib.Data.List.Forall2
import Tapscript.Proofs.Refinement

/-!
# Bytes flow through unexamined

Two runs of one script are compared, on witnesses whose items have the same lengths and whose bytes are
related one by one, by whatever relation. No operation, limit or counter looks at a byte, so the two
runs take the same course: they stop at the same operation for the same reason, or both go through, and
what they leave on the stacks is again related byte by byte. Only the judgement at the end looks at the
bytes.

* `exec_alike`, `run_alike`: one operation, and a script.
* `start_alike`: the admission of two witnesses.
* `content_decides_only_truth`: two machines, and the verdicts of two evaluations.
-/

namespace Tapscript

variable {R : UInt8 → UInt8 → Prop}

/-! ## Related items -/

namespace Item

/-- Two items of one length, with bytes that are related one by one. -/
def Alike (R : UInt8 → UInt8 → Prop) (x y : Item) : Prop :=
  List.Forall₂ R x.bytes.toList y.bytes.toList

theorem Alike.size_eq {x y : Item} (h : x.Alike R y) : x.size = y.size := by
  have hlength := List.Forall₂.length_eq h
  rwa [Array.length_toList, Array.length_toList] at hlength

theorem Alike.append {x y x' y' : Item} (h : x.Alike R y) (h' : x'.Alike R y') :
    (x ++ x').Alike R (y ++ y') := by
  unfold Alike
  rw [bytes_append, bytes_append, Array.toList_append, Array.toList_append]
  exact List.rel_append h h'

theorem total_eq_of_alike {xs ys : List Item} (h : List.Forall₂ (Alike R) xs ys) :
    total xs = total ys := by
  induction h with
  | nil => rfl
  | cons hxy _ ih => rw [total_cons, total_cons, hxy.size_eq, ih]

end Item

/-- Related lists are both empty, or have related last items and related items before these. -/
theorem nil_or_concat_of_forall₂ {α β : Type} {S : α → β → Prop} {xs : List α} {ys : List β}
    (h : List.Forall₂ S xs ys) :
    (xs = [] ∧ ys = []) ∨ ∃ low x low' y, xs = low ++ [x] ∧ ys = low' ++ [y] ∧
      List.Forall₂ S low low' ∧ S x y := by
  have hreverse := List.rel_reverse h
  generalize hx : xs.reverse = up at hreverse
  generalize hy : ys.reverse = up' at hreverse
  cases hreverse with
  | nil => exact Or.inl ⟨List.reverse_eq_nil_iff.mp hx, List.reverse_eq_nil_iff.mp hy⟩
  | @cons x y rest rest' hxy hrest =>
    rw [List.reverse_eq_cons_iff] at hx hy
    exact Or.inr ⟨_, x, _, y, hx, hy, List.rel_reverse hrest, hxy⟩

/-! ## Operations -/

namespace Plain

variable {p q : Plain}

structure Alike (R : UInt8 → UInt8 → Prop) (p q : Plain) : Prop where
  main : List.Forall₂ (Item.Alike R) p.main q.main
  alt : List.Forall₂ (Item.Alike R) p.alt q.alt

/-- Both give related results, or both are refused for the same reason. -/
inductive Matched {α β : Type} (S : α → β → Prop) : Except Refusal α → Except Refusal β → Prop
  | ok {a : α} {b : β} (h : S a b) : Matched S (.ok a) (.ok b)
  | error (r : Refusal) : Matched S (.error r) (.error r)

theorem toAlt_alike (h : p.Alike R q) : Matched (Alike R) p.toAlt q.toAlt := by
  rcases nil_or_concat_of_forall₂ h.main with ⟨hp, hq⟩ | ⟨low, x, low', y, hp, hq, hlow, hxy⟩
  · simp only [toAlt, hp, hq, List.getLast?_nil]
    exact .error _
  · simp only [toAlt, hp, hq, List.getLast?_concat, List.dropLast_concat]
    exact .ok ⟨hlow, List.rel_append h.alt (.cons hxy .nil)⟩

theorem fromAlt_alike (h : p.Alike R q) : Matched (Alike R) p.fromAlt q.fromAlt := by
  rcases nil_or_concat_of_forall₂ h.alt with ⟨hp, hq⟩ | ⟨low, x, low', y, hp, hq, hlow, hxy⟩
  · simp only [fromAlt, hp, hq, List.getLast?_nil]
    exact .error _
  · simp only [fromAlt, hp, hq, List.getLast?_concat, List.dropLast_concat]
    exact .ok ⟨List.rel_append h.main (.cons hxy .nil), hlow⟩

theorem cat_alike (itemSize : Nat) (h : p.Alike R q) :
    Matched (Alike R) (p.cat itemSize) (q.cat itemSize) := by
  rcases nil_or_concat_of_forall₂ h.main with ⟨hp, hq⟩ | ⟨up, y, up', y', hp, hq, hup, hy⟩
  · simp only [cat, hp, hq, List.dropLast_nil, List.getLast?_nil]
    exact .error _
  · rcases nil_or_concat_of_forall₂ hup with ⟨rfl, rfl⟩ | ⟨low, x, low', x', rfl, rfl, hlow, hx⟩
    · simp only [cat, hp, hq, List.dropLast_concat, List.getLast?_nil]
      exact .error _
    · simp only [cat, hp, hq, List.dropLast_concat, List.getLast?_concat, hx.size_eq, hy.size_eq]
      split
      · exact .ok ⟨List.rel_append hlow (.cons (hx.append hy) .nil), h.alt⟩
      · exact .error _

theorem exec_alike (itemSize : Nat) (op : Int) (h : p.Alike R q) :
    Matched (Alike R) (p.exec itemSize op) (q.exec itemSize op) := by
  unfold exec
  split
  · exact toAlt_alike h
  · split
    · exact fromAlt_alike h
    · split
      · exact cat_alike itemSize h
      · exact .error _

theorem step_alike (rules : Rules) (i : Nat) (op : Int) (h : p.Alike R q) :
    Matched (Alike R) (p.step rules i op) (q.step rules i op) := by
  unfold step
  split
  · split
    · exact .error _
    · exact exec_alike _ op h
  · exact exec_alike _ op h

/-! ## Runs -/

/-- Two runs that took the same course. -/
structure Ending.Alike (R : UInt8 → UInt8 → Prop) (e e' : Ending) : Prop where
  refusal : e.refusal = e'.refusal
  lists : e.lists.Alike R e'.lists
  ops : e.ops = e'.ops

theorem run_alike (rules : Rules) (i : Nat) (ops : List Int) (h : p.Alike R q) :
    (p.run rules i ops).Alike R (q.run rules i ops) := by
  induction ops generalizing p q i with
  | nil => exact ⟨rfl, h, rfl⟩
  | cons op rest ih =>
    have hstep := step_alike rules (i + 1) op h
    simp only [run]
    generalize p.step rules (i + 1) op = x at hstep
    generalize q.step rules (i + 1) op = y at hstep
    cases hstep with
    | ok hlists => exact ih (i + 1) hlists
    | error r => exact ⟨rfl, h, rfl⟩

theorem start_alike (rules : Rules) {w w' : List Item} (h : List.Forall₂ (Item.Alike R) w w') :
    Matched (Alike R) (start rules w) (start rules w') := by
  have hlong : (w.find? fun x => decide (rules.itemSize < x.size)).map Item.size =
      (w'.find? fun x => decide (rules.itemSize < x.size)).map Item.size := by
    induction h with
    | nil => rfl
    | @cons x y xs ys hxy _ ih =>
      rw [List.find?_cons, List.find?_cons, hxy.size_eq]
      split
      · exact congrArg some hxy.size_eq
      · exact ih
  unfold start
  rw [h.length_eq, Item.total_eq_of_alike h]
  cases hw : w.find? fun x => decide (rules.itemSize < x.size) with
  | some x =>
    rw [hw, Option.map_some] at hlong
    obtain ⟨y, hy, hsize⟩ := Option.map_eq_some_iff.mp hlong.symm
    simp only [hy, hsize]
    exact .error _
  | none =>
    rw [hw, Option.map_none] at hlong
    have hw' := Option.map_eq_none_iff.mp hlong.symm
    simp only [hw']
    split
    · exact .error _
    · split
      · exact .error _
      · exact .ok ⟨h, .nil⟩

/-- Two runs that took the same course are judged alike if both leave something true or neither does. -/
theorem judged_alike {e e' : Ending} (h : e.Alike R e')
    (htrue : (∃ x ∈ e.lists.main, x.bytes ≠ #[] ∧ x.bytes ≠ #[0]) ↔
      ∃ x ∈ e'.lists.main, x.bytes ≠ #[] ∧ x.bytes ≠ #[0]) : e.judged = e'.judged := by
  have hempty : e.lists.main = [] ↔ e'.lists.main = [] := by
    rw [← List.length_eq_zero_iff, ← List.length_eq_zero_iff, h.lists.main.length_eq]
  unfold Ending.judged
  simp only [h.refusal, htrue, hempty]

end Plain

/-! ## Machines -/

namespace Machine

/-- Two machines after as many operations, with stacks of the same depths and sizes and the same totals,
and with items that are related byte by byte. -/
structure Alike (R : UInt8 → UInt8 → Prop) (m m' : Machine) : Prop where
  opCount : m.opCount = m'.opCount
  mainDepth : m.mainStack.depth = m'.mainStack.depth
  altDepth : m.altStack.depth = m'.altStack.depth
  mainSize : m.mainStack.size = m'.mainStack.size
  altSize : m.altStack.size = m'.altStack.size
  held : m.family.held = m'.family.held
  main : List.Forall₂ (Item.Alike R) m.mainStack.bottomUp m'.mainStack.bottomUp
  alt : List.Forall₂ (Item.Alike R) m.altStack.bottomUp m'.altStack.bottomUp

/-- Both go through, or both stop with the same fault, and the machines they leave are alike. -/
inductive SameCourse (R : UInt8 → UInt8 → Prop) :
    EStateM.Result Fault Machine Unit → EStateM.Result Fault Machine Unit → Prop
  | completed {m m' : Machine} (h : m.Alike R m') : SameCourse R (.ok () m) (.ok () m')
  | stopped (e : Fault) {m m' : Machine} (h : m.Alike R m') : SameCourse R (.error e m) (.error e m')

end Machine

namespace Plain

variable {rules : Rules} {p q : Plain}

theorem alike_machine (h : p.Alike R q) (limits : Limits) (w w' : List Item) (script : List Value)
    (k : Int) : (p.machine limits w script k).Alike R (q.machine limits w' script k) where
  opCount := rfl
  mainDepth := by simpa [machine, Machine.mainStack, Stack.depth] using h.main.length_eq
  altDepth := by simpa [machine, Machine.altStack, Stack.depth] using h.alt.length_eq
  mainSize := by simp [machine, Machine.mainStack, Item.total_eq_of_alike h.main]
  altSize := by simp [machine, Machine.altStack, Item.total_eq_of_alike h.alt]
  held := by
    simp [machine, h.main.length_eq, h.alt.length_eq, Item.total_eq_of_alike h.main,
      Item.total_eq_of_alike h.alt]
  main := by simpa [machine, Machine.mainStack, Stack.bottomUp] using h.main
  alt := by simpa [machine, Machine.altStack, Stack.bottomUp] using h.alt

theorem runValue_machine (hp : p.Fits rules) (ops : List Int) (w : List Item) :
    Machine.runValue .nothing (p.machine rules.limits w (ops.map .int) 0) =
      (p.run rules 0 ops).carried rules.limits w (ops.map .int) :=
  steps_machine hp ops w (ops.map .int) 0

theorem sameCourse_carried {e e' : Ending} (h : e.Alike R e') (limits : Limits) (w w' : List Item)
    (script : List Value) :
    Machine.SameCourse R (e.carried limits w script) (e'.carried limits w' script) := by
  have hmachine := alike_machine h.lists limits w w' script e.ops
  unfold Ending.carried
  rw [← h.refusal, ← h.ops]
  cases e.refusal with
  | none => exact .completed hmachine
  | some r => exact .stopped _ hmachine

/-- Verdicts of two runs that took the same course differ only when both runs go through and leave
machines of which one is true and the other is not. -/
theorem judged_eq_or_truth_differs {e e' : Ending} (h : e.Alike R e') (limits : Limits)
    (w w' : List Item) (script : List Value) :
    e.judged = e'.judged ∨ ∃ n n', e.carried limits w script = .ok () n ∧
      e'.carried limits w' script = .ok () n' ∧ n.isTrue ≠ n'.isTrue := by
  cases hrefusal : e.refusal with
  | some r =>
    have hrefusal' : e'.refusal = some r := h.refusal.symm.trans hrefusal
    left
    rw [Ending.judged, Ending.judged, hrefusal, hrefusal']
  | none =>
    have hrefusal' : e'.refusal = none := h.refusal.symm.trans hrefusal
    by_cases htrue : (e.lists.machine limits w script e.ops).isTrue =
        (e'.lists.machine limits w' script e'.ops).isTrue
    · left
      apply judged_alike h
      rw [← isTrue_machine limits e.lists w script e.ops,
        ← isTrue_machine limits e'.lists w' script e'.ops, htrue]
    · right
      refine ⟨_, _, ?_, ?_, htrue⟩
      · rw [Ending.carried, hrefusal]
      · rw [Ending.carried, hrefusal']

/-- **Unexamined bytes.** Take one script of numbers and two witnesses of byte strings, with as many
items, of the same lengths and with bytes that are related one by one. Either neither machine starts,
for the same reason, or both start, and their runs go through or stop at the same operation with the
same fault, and leave stacks of the same depths and sizes that are again related byte by byte. The
verdicts of the two evaluations have the same failure, if any, unless both runs go through and only one
of them leaves something true. -/
theorem content_decides_only_truth (rules : Rules) (R : UInt8 → UInt8 → Prop) (script : List Int)
    {w w' : List Item} (h : List.Forall₂ (Item.Alike R) w w') :
    let started := fun w : List Item => Machine.start rules.limits
      (.list (w.map fun x => .bytes x.bytes)) (.list (script.map .int))
    let evaluated := fun w : List Item => (evaluate rules.limits (.list (script.map .int))
      (.list (w.map fun x => .bytes x.bytes))).outcome
    ((∃ r, started w = .error (.refused r) ∧ started w' = .error (.refused r)) ∨
      ∃ m m', started w = .ok m ∧ started w' = .ok m' ∧
        Machine.SameCourse R (Machine.runValue .nothing m) (Machine.runValue .nothing m')) ∧
    ∃ a b, evaluated w = .ok a ∧ evaluated w' = .ok b ∧
      (a.failure = b.failure ∨ ∃ m m' n n', started w = .ok m ∧ started w' = .ok m' ∧
        Machine.runValue .nothing m = .ok () n ∧ Machine.runValue .nothing m' = .ok () n' ∧
        n.isTrue ≠ n'.isTrue) := by
  intro started evaluated
  have hw : started w = _ := start_machine rules (script.map .int) w
  have hw' : started w' = _ := start_machine rules (script.map .int) w'
  have hstart := start_alike rules h
  cases hp : start rules w with
  | error r =>
    rw [hp] at hstart hw
    generalize hq : start rules w' = result at hstart
    cases hstart with
    | error r =>
      rw [hq] at hw'
      exact ⟨Or.inl ⟨r, hw, hw'⟩, _, _, evaluate_refused hp script, evaluate_refused hq script,
        Or.inl rfl⟩
  | ok p =>
    rw [hp] at hstart hw
    generalize hq : start rules w' = result at hstart
    cases hstart with
    | @ok _ q hlists =>
      rw [hq] at hw'
      have hrun := runValue_machine (fits_start hp).2 script w
      have hrun' := runValue_machine (fits_start hq).2 script w'
      have hcourse := run_alike rules 0 script hlists
      refine ⟨Or.inr ⟨_, _, hw, hw', ?_⟩, _, _, evaluate_started hp script,
        evaluate_started hq script, ?_⟩
      · rw [hrun, hrun']
        exact sameCourse_carried hcourse rules.limits w w' (script.map .int)
      · rcases judged_eq_or_truth_differs hcourse rules.limits w w' (script.map .int) with
          hjudged | ⟨n, n', hn, hn', htruth⟩
        · left
          simp only [hjudged]
        · exact Or.inr ⟨_, _, n, n', hw, hw', hrun.trans hn, hrun'.trans hn', htruth⟩

/-- Two witnesses that differ in one byte: the runs take the same course, and one verdict is a success. -/
theorem one_byte_decides_truth :
    let rules : Rules := ⟨1, 3, 2, some 1, by decide⟩
    let R : UInt8 → UInt8 → Prop := fun a b => b ≤ a
    let script : List Int := [0x6b]
    let w : List Item := [⟨#[1]⟩, ⟨#[0]⟩]
    let w' : List Item := [⟨#[0]⟩, ⟨#[0]⟩]
    let started := fun w : List Item => Machine.start rules.limits
      (.list (w.map fun x => .bytes x.bytes)) (.list (script.map .int))
    let evaluated := fun w : List Item => (evaluate rules.limits (.list (script.map .int))
      (.list (w.map fun x => .bytes x.bytes))).outcome
    List.Forall₂ (Item.Alike R) w w' ∧
      (∃ m m', started w = .ok m ∧ started w' = .ok m' ∧
        Machine.SameCourse R (Machine.runValue .nothing m) (Machine.runValue .nothing m')) ∧
      ∃ a b, evaluated w = .ok a ∧ evaluated w' = .ok b ∧ a.failure = none ∧
        b.failure = some Refusal.nothingTrue.failure := by
  intro rules R script w w' started evaluated
  have h : List.Forall₂ (Item.Alike R) w w' := by
    refine .cons (.cons ?_ .nil) (.cons (.cons ?_ .nil) .nil)
    · decide
    · decide
  have hp : start rules w = .ok ⟨w, []⟩ := rfl
  have hq : start rules w' = .ok ⟨w', []⟩ := rfl
  have hjudged : (run rules 0 script ⟨w, []⟩).judged = none := by decide
  have hjudged' : (run rules 0 script ⟨w', []⟩).judged = some .nothingTrue := by decide
  obtain ⟨hcourse, a, b, ha, hb, -⟩ := content_decides_only_truth rules R script h
  refine ⟨h, ?_, a, b, ha, hb, ?_, ?_⟩
  · rcases hcourse with ⟨r, hr, -⟩ | hcourse
    · have hok := (start_machine rules (script.map .int) w).symm.trans hr
      rw [hp] at hok
      cases hok
    · exact hcourse
  · have hend := (evaluate_started hp script).symm.trans ha
    rw [hjudged] at hend
    cases hend
    rfl
  · have hend := (evaluate_started hq script).symm.trans hb
    rw [hjudged'] at hend
    cases hend
    rfl

end Plain

end Tapscript
