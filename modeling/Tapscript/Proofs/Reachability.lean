import Tapscript.Proofs.Conservation

/-!
# Every regrouping is reached

Conservation says that the stacks of a machine always are its witness with neighbours joined and a
boundary somewhere. Here is the converse: without an op budget, every way to join neighbours into items
that are not too long, with the boundary anywhere, is where some script leads.

The script works from the top of the main stack. It joins the last group and moves it to the alt stack,
then the group before it, and so on; at the end the alt stack holds all groups, the first one on top, and
as many are moved back as the boundary asks for.

* `leads_cats`, `leads_gathering`, `leads_returning`: the parts of the script.
* `every_regrouping_reached`: the script, run by a machine that started.
-/

namespace Tapscript

theorem Item.joined_singleton (x : Item) : Item.joined [x] = x := by
  apply Item.eq_of_bytes
  rw [Item.bytes_joined]
  simp

namespace Plain

variable {rules : Rules} {p q r : Plain}

/-! ## Scripts that go through -/

/-- A run goes on from where its first part ended. -/
theorem run_append {s t : List Int} {i j : Nat} (h : p.run rules i s = ⟨none, q, j⟩) :
    p.run rules i (s ++ t) = q.run rules j t := by
  induction s generalizing p i with
  | nil =>
    cases h
    rfl
  | cons op s ih =>
    simp only [List.cons_append, run] at h ⊢
    cases hstep : p.step rules (i + 1) op with
    | error e =>
      rw [hstep] at h
      cases h
    | ok p' =>
      rw [hstep] at h
      exact ih h

/-- The script runs from one pair of lists to another, however many operations were counted before. -/
def Leads (rules : Rules) (ops : List Opcode) (p q : Plain) : Prop :=
  ∀ i, p.run rules i (ops.map fun op => (op.code : Int)) = ⟨none, q, i + ops.length⟩

theorem leads_nil (rules : Rules) (p : Plain) : Leads rules [] p p := fun _ => rfl

theorem Leads.append {s t : List Opcode} (h : Leads rules s p q) (h' : Leads rules t q r) :
    Leads rules (s ++ t) p r := by
  intro i
  rw [List.map_append, run_append (h i), h', List.length_append, Nat.add_assoc]

theorem leads_of_exec (hbudget : rules.opBudget = none) {op : Opcode}
    (h : p.exec rules.itemSize op.code = .ok q) : Leads rules [op] p q := by
  intro i
  have hstep : p.step rules (i + 1) op.code = .ok q := by
    rw [step_eq_exec (Rules.affords_of_unlimited hbudget (i + 1)), h]
  simp only [List.map_cons, List.map_nil, run, hstep, List.length_singleton]

theorem leads_toAlt (hbudget : rules.opBudget = none) (main alt : List Item) (x : Item) :
    Leads rules [.toAlt] ⟨main ++ [x], alt⟩ ⟨main, alt ++ [x]⟩ := by
  apply leads_of_exec hbudget
  simp [exec, Opcode.code, toAlt]

theorem leads_fromAlt (hbudget : rules.opBudget = none) (main alt : List Item) (x : Item) :
    Leads rules [.fromAlt] ⟨main, alt ++ [x]⟩ ⟨main ++ [x], alt⟩ := by
  apply leads_of_exec hbudget
  simp [exec, Opcode.code, fromAlt]

theorem leads_cat (hbudget : rules.opBudget = none) (main alt : List Item) {x y : Item}
    (hsize : x.size + y.size ≤ rules.itemSize) :
    Leads rules [.cat] ⟨main ++ [x] ++ [y], alt⟩ ⟨main ++ [x ++ y], alt⟩ := by
  apply leads_of_exec hbudget
  simp [exec, Opcode.code, cat, hsize]

/-! ## The parts of the script -/

/-- The last items are joined from the right, so that what is joined is at every point a final part of
them and never longer than the whole. -/
theorem leads_cats (hbudget : rules.opBudget = none) {xs : List Item} (hne : xs ≠ [])
    (hsize : Item.total xs ≤ rules.itemSize) (main alt : List Item) :
    Leads rules (List.replicate (xs.length - 1) .cat) ⟨main ++ xs, alt⟩
      ⟨main ++ [Item.joined xs], alt⟩ := by
  induction xs generalizing main with
  | nil => exact absurd rfl hne
  | cons x rest ih =>
    cases rest with
    | nil =>
      rw [Item.joined_singleton]
      exact leads_nil rules _
    | cons y rest =>
      rw [Item.total_cons] at hsize
      have hlater := ih (List.cons_ne_nil y rest) (by omega) (main ++ [x])
      have hlast : Leads rules [.cat] ⟨main ++ [x] ++ [Item.joined (y :: rest)], alt⟩
          ⟨main ++ [Item.joined (x :: y :: rest)], alt⟩ := by
        apply leads_cat hbudget
        rw [Item.size_joined]
        exact hsize
      rw [List.append_assoc, List.singleton_append] at hlater
      have hscript := hlater.append hlast
      rwa [← List.replicate_succ'] at hscript

/-- Joins each group of the main stack, the last one first, and moves it to the alt stack. -/
def gathering : List (List Item) → List Opcode
  | [] => []
  | g :: later => gathering later ++ List.replicate (g.length - 1) .cat ++ [.toAlt]

theorem leads_gathering (hbudget : rules.opBudget = none) {groups : List (List Item)}
    (hne : ∀ g ∈ groups, g ≠ []) (hsize : ∀ g ∈ groups, Item.total g ≤ rules.itemSize)
    (main alt : List Item) :
    Leads rules (gathering groups) ⟨main ++ groups.flatten, alt⟩
      ⟨main, alt ++ (groups.map Item.joined).reverse⟩ := by
  induction groups generalizing main with
  | nil =>
    simp only [gathering, List.flatten_nil, List.map_nil, List.reverse_nil, List.append_nil]
    exact leads_nil rules _
  | cons g later ih =>
    have hlater := ih (fun k hk => hne k (List.mem_cons_of_mem _ hk))
      (fun k hk => hsize k (List.mem_cons_of_mem _ hk)) (main ++ g)
    have hjoin := leads_cats hbudget (hne g List.mem_cons_self) (hsize g List.mem_cons_self) main
      (alt ++ (later.map Item.joined).reverse)
    have hmove := leads_toAlt hbudget main (alt ++ (later.map Item.joined).reverse) (Item.joined g)
    rw [List.append_assoc] at hlater hmove
    rw [List.flatten_cons, List.map_cons, List.reverse_cons]
    exact (hlater.append hjoin).append hmove

/-- Items are moved back in the order in which they stand from the top of the alt stack. -/
theorem leads_returning (hbudget : rules.opBudget = none) {xs : List Item} {n : Nat}
    (hn : n ≤ xs.length) (main : List Item) :
    Leads rules (List.replicate n .fromAlt) ⟨main, xs.reverse⟩
      ⟨main ++ xs.take n, (xs.drop n).reverse⟩ := by
  induction n generalizing xs main with
  | zero =>
    rw [List.take_zero, List.append_nil, List.drop_zero]
    exact leads_nil rules _
  | succ n ih =>
    cases xs with
    | nil => simp at hn
    | cons x rest =>
      have hfirst := leads_fromAlt hbudget main rest.reverse x
      have hlater := ih (Nat.le_of_succ_le_succ hn) (main ++ [x])
      rw [List.append_assoc, List.singleton_append] at hlater
      rw [List.reverse_cons, List.take_succ_cons, List.drop_succ_cons]
      exact hfirst.append hlater

/-- Joins the groups of the main stack, and leaves the first `n` of them there and the others on the alt
stack. -/
def regrouping (groups : List (List Item)) (n : Nat) : List Opcode :=
  gathering groups ++ List.replicate n .fromAlt

theorem leads_regrouping (hbudget : rules.opBudget = none) {groups : List (List Item)}
    {ws xs : List Item} (h : Item.Regroups groups ws xs) (hsize : ∀ x ∈ xs, x.size ≤ rules.itemSize)
    {n : Nat} (hn : n ≤ xs.length) :
    Leads rules (regrouping groups n) ⟨ws, []⟩ ⟨xs.take n, (xs.drop n).reverse⟩ := by
  obtain ⟨hne, rfl, rfl⟩ := h
  have hgroup : ∀ g ∈ groups, Item.total g ≤ rules.itemSize := by
    intro g hg
    rw [← Item.size_joined]
    exact hsize _ (List.mem_map_of_mem hg)
  exact (leads_gathering hbudget hne hgroup [] []).append (leads_returning hbudget hn [])

/-- A script that leads from the lists of a machine to others is run by the machine without fail. -/
theorem runValue_of_leads (hp : p.Fits rules) {ops : List Opcode} (h : Leads rules ops p q)
    (witness : List Item) (script : List Value) (k : Int) :
    Machine.runValue (.list (ops.map fun op => .int op.code)) (p.machine rules.limits witness script k) =
      .ok () (q.machine rules.limits witness script ops.length) := by
  have hsteps := steps_machine hp (ops.map fun op => (op.code : Int)) witness script 0
  rw [h 0, List.map_map] at hsteps
  simp only [Nat.zero_add] at hsteps
  exact hsteps

end Plain

/-- **Reachability.** Let a machine start with an item size and without an op budget. Cut its witness into
non-empty groups of neighbours, each at most as long as the item size, and choose how many groups are to
stay on the main stack. Then some script of the three opcodes is run by the machine without fail, and
leaves the first groups, each joined into one item, on the main stack and the others on the alt stack. -/
theorem Machine.every_regrouping_reached {limits : Limits} {itemSize : Nat} {witness script : Value}
    {m : Machine} (hi : limits.itemSize = some itemSize) (hbudget : limits.opBudget = none)
    (h : start limits witness script = .ok m) :
    (∃ vs, witness.elements = .ok vs ∧
        vs.map Value.content? = m.witness.map fun x => some x.bytes) ∧
      ∀ groups g, Item.Regroups groups m.witness g → (∀ x ∈ g, x.size ≤ itemSize) →
        ∀ c, c ≤ g.length → ∃ (ops : List Opcode) (m' : Machine),
          runValue (.list (ops.map fun op => .int op.code)) m = .ok () m' ∧
          m'.mainStack.bottomUp = g.take c ∧ m'.altStack.bottomUp = (g.drop c).reverse := by
  obtain ⟨rules, rfl, rfl, hfits, hm, hwitness⟩ := Plain.eq_machine_of_start hi h
  refine ⟨hwitness, ?_⟩
  intro groups g hgroups hsize c hc
  have hleads := Plain.leads_regrouping hbudget hgroups hsize hc
  have hrun := Plain.runValue_of_leads hfits hleads m.witness m.script 0
  rw [← hm] at hrun
  refine ⟨_, _, hrun, ?_, ?_⟩
  · simp [Plain.machine, mainStack, Stack.bottomUp]
  · simp [Plain.machine, altStack, Stack.bottomUp]

/-- Three values of different kinds on full stacks, with the first two joined to an item of exactly the
item size. -/
theorem Machine.regrouping_of_three_reached :
    let limits : Limits := ⟨some 2, 4, some 3, none, by decide⟩
    let m := (blank limits [⟨#[1]⟩, ⟨#[2]⟩, ⟨#[3]⟩] []).arrange [⟨#[3]⟩, ⟨#[2]⟩, ⟨#[1]⟩] []
    let groups : List (List Item) := [[⟨#[1]⟩, ⟨#[2]⟩], [⟨#[3]⟩]]
    let g : List Item := [⟨#[1, 2]⟩, ⟨#[3]⟩]
    start limits (.list [.bytes #[1], .growable #[2], .item ⟨#[3]⟩]) (.list []) = .ok m ∧
      Item.Regroups groups m.witness g ∧ ∃ (ops : List Opcode) (m' : Machine),
        runValue (.list (ops.map fun op => .int op.code)) m = .ok () m' ∧
        m'.mainStack.bottomUp = [⟨#[1, 2]⟩] ∧ m'.altStack.bottomUp = [⟨#[3]⟩] := by
  intro limits m groups g
  have hstart : start limits (.list [.bytes #[1], .growable #[2], .item ⟨#[3]⟩]) (.list []) = .ok m :=
    rfl
  have hgroups : Item.Regroups groups m.witness g := ⟨by decide, rfl, by decide⟩
  obtain ⟨-, hreached⟩ := every_regrouping_reached rfl rfl hstart
  exact ⟨hstart, hgroups, hreached groups g hgroups (by decide) 1 (by decide)⟩

end Tapscript
