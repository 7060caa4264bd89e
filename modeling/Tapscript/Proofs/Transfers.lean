import Tapscript.Proofs.Stops

/-!
# Moves between the stacks

The main stack from its bottom to its top, followed by the alt stack from its top to its bottom, is one line
of items with a boundary in it. A script of moves keeps the line and shifts the boundary: down by one item
for a move to the alt stack, up by one for a move back. It goes through exactly when the boundary never
leaves the line, and otherwise it is refused at the first move that would take it out.

* `leads_moves`, `halts_moves`: scripts of moves that go through, and scripts that do not.
* `moves_shift_boundary`: scripts of moves on a machine after any steps.
-/

namespace Tapscript

/-- The moves to the alt stack less the moves back. -/
def Opcode.net (ops : List Opcode) : Int := ops.count .toAlt - ops.count .fromAlt

namespace Opcode

@[simp]
theorem net_nil : net [] = 0 := rfl

@[simp]
theorem net_toAlt_cons (ops : List Opcode) : net (.toAlt :: ops) = net ops + 1 := by
  simp only [net, List.count_cons, beq_self_eq_true, if_true, show (toAlt == fromAlt) = false from rfl,
    Bool.false_eq_true, if_false]
  omega

@[simp]
theorem net_fromAlt_cons (ops : List Opcode) : net (.fromAlt :: ops) = net ops - 1 := by
  simp only [net, List.count_cons, beq_self_eq_true, if_true, show (fromAlt == toAlt) = false from rfl,
    Bool.false_eq_true, if_false]
  omega

theorem net_append (s t : List Opcode) : net (s ++ t) = net s + net t := by
  simp only [net, List.count_append]
  omega

/-- Moves to the alt stack and as many back, cut off anywhere. -/
theorem net_take_forth_and_back (k i : Nat) :
    net ((List.replicate k toAlt ++ List.replicate k fromAlt).take i) =
      (min i k : Nat) - (min (i - k) k : Nat) := by
  simp [net, List.take_append, List.take_replicate, List.count_replicate]

theorem net_take_back_and_forth (k i : Nat) :
    net ((List.replicate k fromAlt ++ List.replicate k toAlt).take i) =
      (min (i - k) k : Nat) - (min i k : Nat) := by
  simp [net, List.take_append, List.take_replicate, List.count_replicate]

end Opcode

/-- Either all initial parts of a list have a property, or there is a first one that has not. -/
theorem forall_prefix_or_first {α : Type} {P : List α → Prop} (hnil : P []) (xs : List α) :
    (∀ p, p <+: xs → P p) ∨
      ∃ p x rest, xs = p ++ x :: rest ∧ (∀ q, q <+: p → P q) ∧ ¬ P (p ++ [x]) := by
  induction xs generalizing P with
  | nil =>
    left
    intro p hp
    rwa [List.prefix_nil.mp hp]
  | cons x xs ih =>
    by_cases hx : P [x]
    · rcases ih (P := fun p => P (x :: p)) hx with hall | ⟨p, y, rest, rfl, hp, hy⟩
      · left
        intro p hp
        rcases List.prefix_cons_iff.mp hp with rfl | ⟨p', rfl, hp'⟩
        · exact hnil
        · exact hall p' hp'
      · right
        refine ⟨x :: p, y, rest, rfl, ?_, hy⟩
        intro q hq
        rcases List.prefix_cons_iff.mp hq with rfl | ⟨q', rfl, hq'⟩
        · exact hnil
        · exact hp q' hq'
    · right
      refine ⟨[], x, xs, rfl, ?_, hx⟩
      intro q hq
      rwa [List.prefix_nil.mp hq]

namespace Plain

open Opcode (net)

variable {rules : Rules} {z : List Item} {n : Nat} {ops : List Opcode}

/-- The two lists that a line of items is cut into after its first `n` items. -/
def cut (z : List Item) (n : Nat) : Plain := ⟨z.take n, (z.drop n).reverse⟩

theorem zipper_cut (z : List Item) (n : Nat) : (cut z n).zipper = z := by
  rw [zipper, cut, List.reverse_reverse, List.take_append_drop]

theorem cut_zipper (p : Plain) : cut p.zipper p.main.length = p := by
  simp [cut, zipper]

/-! ## One move -/

theorem leads_toAlt_cut (hbudget : rules.opBudget = none) (hn : n < z.length) :
    Leads rules [.toAlt] (cut z (n + 1)) (cut z n) := by
  have hmove := leads_toAlt hbudget (z.take n) (z.drop (n + 1)).reverse z[n]
  rwa [List.take_append_getElem hn, ← List.reverse_cons, List.getElem_cons_drop] at hmove

theorem leads_fromAlt_cut (hbudget : rules.opBudget = none) (hn : n < z.length) :
    Leads rules [.fromAlt] (cut z n) (cut z (n + 1)) := by
  have hmove := leads_fromAlt hbudget (z.take n) (z.drop (n + 1)).reverse z[n]
  rwa [List.take_append_getElem hn, ← List.reverse_cons, List.getElem_cons_drop] at hmove

theorem toAlt_cut_zero (z : List Item) (itemSize : Nat) :
    (cut z 0).exec itemSize Opcode.toAlt.code = .error (.mainTooShallow 0 1) := by
  simp [exec, Opcode.code, toAlt, cut]

theorem fromAlt_cut_length (z : List Item) (itemSize : Nat) :
    (cut z z.length).exec itemSize Opcode.fromAlt.code = .error .altEmpty := by
  simp [exec, Opcode.code, fromAlt, cut]

/-! ## Scripts of moves -/

/-- With `n` items before the boundary, the boundary is within the line after the given moves. -/
def Reaches (z : List Item) (n : Nat) (ops : List Opcode) : Prop :=
  0 ≤ n - net ops ∧ n - net ops ≤ z.length

theorem leads_moves (hbudget : rules.opBudget = none) (hcat : .cat ∉ ops)
    (hreaches : ∀ p, p <+: ops → Reaches z n p) :
    Leads rules ops (cut z n) (cut z (n - net ops).toNat) := by
  induction ops generalizing n with
  | nil =>
    rw [Opcode.net_nil, Int.sub_zero, Int.toNat_natCast]
    exact leads_nil rules _
  | cons op rest ih =>
    have hrest : .cat ∉ rest := fun h => hcat (List.mem_cons_of_mem op h)
    obtain ⟨-, hstart⟩ := hreaches [] List.nil_prefix
    obtain ⟨hfirst, hfirst'⟩ := hreaches [op] (List.cons_prefix_cons.mpr ⟨rfl, List.nil_prefix⟩)
    have hlater : ∀ p, p <+: rest → Reaches z n (op :: p) := by
      intro p hp
      exact hreaches (op :: p) (List.cons_prefix_cons.mpr ⟨rfl, hp⟩)
    cases op with
    | toAlt =>
      simp only [Opcode.net_toAlt_cons, Opcode.net_nil] at hstart hfirst
      obtain ⟨k, rfl⟩ : ∃ k, n = k + 1 := ⟨n - 1, by omega⟩
      have hcut : ((k + 1 : Nat) - net (.toAlt :: rest)).toNat = (k - net rest).toNat := by
        rw [Opcode.net_toAlt_cons]
        omega
      rw [hcut]
      refine (leads_toAlt_cut hbudget (by omega)).append (ih hrest ?_)
      intro p hp
      have hp' := hlater p hp
      simp only [Reaches, Opcode.net_toAlt_cons] at hp' ⊢
      omega
    | fromAlt =>
      simp only [Opcode.net_fromAlt_cons, Opcode.net_nil] at hfirst'
      have hcut : (n - net (.fromAlt :: rest)).toNat = ((n + 1 : Nat) - net rest).toNat := by
        rw [Opcode.net_fromAlt_cons]
        omega
      rw [hcut]
      refine (leads_fromAlt_cut hbudget (by omega)).append (ih hrest ?_)
      intro p hp
      have hp' := hlater p hp
      simp only [Reaches, Opcode.net_fromAlt_cons] at hp' ⊢
      omega
    | cat => exact absurd List.mem_cons_self hcat

/-- The first move that would take the boundary out of the line is refused. -/
theorem halts_moves (hbudget : rules.opBudget = none) {p rest : List Opcode} {op : Opcode}
    (hcat : .cat ∉ p ++ op :: rest) (hreaches : ∀ q, q <+: p → Reaches z n q)
    (hout : ¬ Reaches z n (p ++ [op])) :
    ∃ r, r.kind = .stackUnderflow ∧
      Halts rules (p ++ op :: rest) p.length r (cut z n) (cut z (n - net p).toNat) := by
  rw [List.mem_append, List.mem_cons] at hcat
  have hleads := leads_moves hbudget (fun h => hcat (Or.inl h)) hreaches
  obtain ⟨hlow, hhigh⟩ := hreaches p (List.prefix_refl p)
  simp only [Reaches, Opcode.net_append] at hout
  cases op with
  | toAlt =>
    simp only [Opcode.net_toAlt_cons, Opcode.net_nil] at hout
    have hempty : (n - net p).toNat = 0 := by omega
    rw [hempty] at hleads ⊢
    exact ⟨_, rfl, hleads.halts (toAlt_cut_zero z rules.itemSize) rest⟩
  | fromAlt =>
    simp only [Opcode.net_fromAlt_cons, Opcode.net_nil] at hout
    have hfull : (n - net p).toNat = z.length := by omega
    rw [hfull] at hleads ⊢
    exact ⟨_, rfl, hleads.halts (fromAlt_cut_length z rules.itemSize) rest⟩
  | cat => exact absurd (Or.inr (Or.inl rfl)) hcat

/-- Moves that cancel each other leave everything as it was, if they go through. -/
theorem leads_cancelling (hbudget : rules.opBudget = none) (hcat : .cat ∉ ops) (hnet : net ops = 0)
    (hreaches : ∀ i, Reaches z n (ops.take i)) : Leads rules ops (cut z n) (cut z n) := by
  have hleads : Leads rules ops (cut z n) (cut z (n - net ops).toNat) := by
    apply leads_moves hbudget hcat
    intro p hp
    rw [List.prefix_iff_eq_take.mp hp]
    exact hreaches p.length
  rwa [hnet, Int.sub_zero, Int.toNat_natCast] at hleads

end Plain

/-! ## Machines -/

namespace Machine

open Opcode (net)

/-- The items of the main stack from the bottom, and then those of the alt stack from the top. -/
def line (m : Machine) : List Item := m.mainStack.bottomUp ++ m.altStack.bottomUp.reverse

/-- Moves that leave the boundary between the stacks of the machine within its line. -/
def Permits (m : Machine) (ops : List Opcode) : Prop :=
  -(m.altStack.depth : Int) ≤ net ops ∧ net ops ≤ m.mainStack.depth

/-- The line and the totals of `m`, with the boundary `n` items further down. -/
structure Moved (m : Machine) (n : Int) (m' : Machine) : Prop where
  main : m'.mainStack.bottomUp = m.line.take (m.mainStack.depth - n).toNat
  alt : m'.altStack.bottomUp = (m.line.drop (m.mainStack.depth - n).toNat).reverse
  held : m'.family.held = m.family.held

end Machine

namespace Plain

open Opcode (net)

theorem permits_machine_iff (limits : Limits) (p : Plain) (witness : List Item) (script : List Value)
    (k : Int) (ops : List Opcode) :
    (p.machine limits witness script k).Permits ops ↔ Reaches p.zipper p.main.length ops := by
  simp only [Machine.Permits, Reaches, mainDepth_machine, altDepth_machine, zipper, List.length_append,
    List.length_reverse]
  omega

theorem moved_machine (limits : Limits) (p : Plain) (witness : List Item) (script : List Value)
    (k j n : Int) :
    (p.machine limits witness script k).Moved n
      ((cut p.zipper (p.main.length - n).toNat).machine limits witness script j) := by
  have hline : (p.machine limits witness script k).line = p.zipper :=
    stacks_machine limits p witness script k
  refine ⟨?_, ?_, ?_⟩
  · rw [mainDepth_machine, hline, main_machine, cut]
  · rw [mainDepth_machine, hline, alt_machine, cut]
  · rw [held_machine, held_machine, zipper_cut]

variable {rules : Rules} {p : Plain} {ops : List Opcode}

theorem runValue_moves (hp : p.Fits rules) (hbudget : rules.opBudget = none) (hcat : .cat ∉ ops)
    (hreaches : ∀ s, s <+: ops → Reaches p.zipper p.main.length s) (witness : List Item)
    (script : List Value) (k : Int) :
    ∃ m', Machine.runValue (.list (Opcode.elements ops))
        (p.machine rules.limits witness script k) = .ok () m' ∧
      (p.machine rules.limits witness script k).Moved (net ops) m' := by
  have hleads := leads_moves hbudget hcat hreaches
  rw [cut_zipper] at hleads
  exact ⟨_, runValue_of_leads hp hleads witness script k, moved_machine _ p witness script k _ _⟩

theorem stopsAt_moves (hp : p.Fits rules) (hbudget : rules.opBudget = none) (hcat : .cat ∉ ops)
    (hout : ¬ ∀ s, s <+: ops → Reaches p.zipper p.main.length s) (witness : List Item)
    (script : List Value) (k : Int) :
    ∃ s op rest r m', ops = s ++ op :: rest ∧
      (∀ t, t <+: s → Reaches p.zipper p.main.length t) ∧
      ¬ Reaches p.zipper p.main.length (s ++ [op]) ∧
      (p.machine rules.limits witness script k).StopsAt (Opcode.elements ops) s.length (.refused r) m' ∧
      r.kind = .stackUnderflow ∧ (p.machine rules.limits witness script k).Moved (net s) m' := by
  have hnil : Reaches p.zipper p.main.length [] := by
    simp only [Reaches, Opcode.net_nil, zipper, List.length_append]
    omega
  rcases forall_prefix_or_first hnil ops with hall | ⟨s, op, rest, rfl, hs, hop⟩
  · exact absurd hall hout
  · obtain ⟨r, hkind, hhalts⟩ := halts_moves hbudget hcat hs hop
    rw [cut_zipper] at hhalts
    exact ⟨s, op, rest, r, _, rfl, hs, hop, stopsAt_of_halts hp hbudget hhalts witness script k, hkind,
      moved_machine _ p witness script k _ _⟩

/-- A script that leaves the line stops, so what goes through has not left it. -/
theorem reaches_of_runValue_ok (hp : p.Fits rules) (hbudget : rules.opBudget = none)
    (hcat : .cat ∉ ops) {witness : List Item} {script : List Value} {k : Int} {m' : Machine}
    (h : Machine.runValue (.list (Opcode.elements ops)) (p.machine rules.limits witness script k) =
      .ok () m') :
    ∀ s, s <+: ops → Reaches p.zipper p.main.length s := by
  refine Classical.byContradiction fun hout => ?_
  obtain ⟨s, op, rest, r, m'', -, -, -, hstop, -⟩ := stopsAt_moves hp hbudget hcat hout witness script k
  exact hstop.runValue_ne_ok m' h

/-- Moves that cancel each other leave every field of the machine as it was, the count of operations
apart. -/
theorem runValue_cancelling (hp : p.Fits rules) (hbudget : rules.opBudget = none) (hcat : .cat ∉ ops)
    (hnet : net ops = 0) (hreaches : ∀ i, Reaches p.zipper p.main.length (ops.take i))
    (witness : List Item) (script : List Value) (k : Int) :
    Machine.runValue (.list (Opcode.elements ops)) (p.machine rules.limits witness script k) =
      .ok () { p.machine rules.limits witness script k with opCount := ops.length } := by
  have hleads := leads_cancelling hbudget hcat hnet hreaches
  rw [cut_zipper] at hleads
  exact runValue_of_leads hp hleads witness script k

end Plain

namespace Machine

open Opcode (net)

/-- **Moves.** Take a machine that started with an item size and without an op budget, after any steps. A
script of moves goes through exactly when each of its initial parts leaves the boundary between the two
stacks within the line of their items, and then it shifts the boundary by the moves to the alt stack less
the moves back. Otherwise it is refused, for want of items, at the first move whose initial part does
not, and the moves before it have shifted the boundary. So moves one way and as many back restore every
field of the machine but the count of operations. -/
theorem moves_shift_boundary {limits : Limits} {itemSize : Nat} {witness script : Value}
    {m₀ : Machine} (hi : limits.itemSize = some itemSize) (hbudget : limits.opBudget = none)
    (h : start limits witness script = .ok m₀) (before : List Int) :
    let m := m₀.attempt before
    (∀ ops : List Opcode, .cat ∉ ops →
      ((∃ m', runValue (.list (Opcode.elements ops)) m = .ok () m') ↔
        ∀ p, p <+: ops → m.Permits p) ∧
      (∀ m', runValue (.list (Opcode.elements ops)) m = .ok () m' → m.Moved (net ops) m') ∧
      ((¬ ∀ p, p <+: ops → m.Permits p) →
        ∃ p op rest r m', ops = p ++ op :: rest ∧ (∀ q, q <+: p → m.Permits q) ∧
          ¬ m.Permits (p ++ [op]) ∧ m.StopsAt (Opcode.elements ops) p.length (.refused r) m' ∧
          r.kind = .stackUnderflow ∧ m.Moved (net p) m')) ∧
    (∀ k, k ≤ m.mainStack.depth →
      runValue (.list (Opcode.elements (List.replicate k .toAlt ++ List.replicate k .fromAlt))) m =
        .ok () { m with opCount := 2 * k }) ∧
    ∀ k, k ≤ m.altStack.depth →
      runValue (.list (Opcode.elements (List.replicate k .fromAlt ++ List.replicate k .toAlt))) m =
        .ok () { m with opCount := 2 * k } := by
  intro m
  obtain ⟨rules, p, k, rfl, rfl, hp, hm⟩ := Plain.eq_machine_of_attempt hi h before
  change m = _ at hm
  clear_value m
  subst hm
  have hlength : p.zipper.length = p.main.length + p.alt.length := by simp [Plain.zipper]
  have hcount : ∀ (j : Nat) (a b : Opcode),
      ((List.replicate j a ++ List.replicate j b).length : Int) = 2 * j := by
    intro j a b
    rw [List.length_append, List.length_replicate, List.length_replicate]
    omega
  simp only [Plain.permits_machine_iff, Plain.mainDepth_machine, Plain.altDepth_machine]
  refine ⟨?_, ?_, ?_⟩
  · intro ops hcat
    refine ⟨⟨?_, ?_⟩, ?_, ?_⟩
    · rintro ⟨m', hrun⟩
      exact Plain.reaches_of_runValue_ok hp hbudget hcat hrun
    · intro hall
      obtain ⟨m', hrun, -⟩ := Plain.runValue_moves hp hbudget hcat hall m₀.witness m₀.script k
      exact ⟨m', hrun⟩
    · intro m' hrun
      have hall := Plain.reaches_of_runValue_ok hp hbudget hcat hrun
      obtain ⟨m'', hrun', hmoved⟩ := Plain.runValue_moves hp hbudget hcat hall m₀.witness m₀.script k
      rw [hrun'] at hrun
      cases hrun
      exact hmoved
    · intro hout
      exact Plain.stopsAt_moves hp hbudget hcat hout m₀.witness m₀.script k
  · intro j hj
    rw [← hcount j .toAlt .fromAlt]
    refine Plain.runValue_cancelling hp hbudget (by simp) (by simp [net, List.count_replicate]) ?_ _ _ _
    intro i
    rw [Plain.Reaches, Opcode.net_take_forth_and_back, hlength]
    omega
  · intro j hj
    rw [← hcount j .fromAlt .toAlt]
    refine Plain.runValue_cancelling hp hbudget (by simp) (by simp [net, List.count_replicate]) ?_ _ _ _
    intro i
    rw [Plain.Reaches, Opcode.net_take_back_and_forth, hlength]
    omega

/-- Three items, one of them moved to the alt stack. Two moves there, one of them after a move back, go
through; two moves back do not; and two moves there and back restore the machine. -/
theorem moves_shift_boundary_of_three :
    let limits : Limits := ⟨some 2, 5, some 6, none, by decide⟩
    let m₀ := (blank limits [⟨#[1]⟩, ⟨#[2]⟩, ⟨#[3]⟩] []).arrange [⟨#[3]⟩, ⟨#[2]⟩, ⟨#[1]⟩] []
    let m := m₀.attempt [0x6c, 0x6b, 0x99]
    start limits (.list [.bytes #[1], .bytes #[2], .bytes #[3]]) (.list []) = .ok m₀ ∧
      (∃ m', runValue (.list (Opcode.elements [.toAlt, .fromAlt, .toAlt])) m = .ok () m' ∧
        m.Moved 1 m') ∧
      (∃ p op rest r m', [.fromAlt, .fromAlt] = p ++ op :: rest ∧ ¬ m.Permits (p ++ [op]) ∧
        m.StopsAt (Opcode.elements [.fromAlt, .fromAlt]) p.length (.refused r) m' ∧
        r.kind = .stackUnderflow ∧ m.Moved (net p) m') ∧
      runValue (.list (Opcode.elements [.toAlt, .toAlt, .fromAlt, .fromAlt])) m =
        .ok () { m with opCount := 2 * 2 } := by
  intro limits m₀ m
  have hstart : start limits (.list [.bytes #[1], .bytes #[2], .bytes #[3]]) (.list []) = .ok m₀ := rfl
  have hthere : runValue (.list (Opcode.elements [.toAlt, .fromAlt, .toAlt])) m = .ok () _ :=
    Action.apply_of_no_fault (by decide +kernel)
  have hback : runValue (.list (Opcode.elements [.fromAlt, .fromAlt])) m = .error (.refused .altEmpty) _ :=
    Action.apply_of_fault? (by decide +kernel)
  obtain ⟨hmoves, hrestored, -⟩ := moves_shift_boundary rfl rfl hstart [0x6c, 0x6b, 0x99]
  refine ⟨hstart, ⟨_, hthere, (hmoves _ (by decide)).2.1 _ hthere⟩, ?_, hrestored 2 (by decide)⟩
  obtain ⟨hiff, -, hstops⟩ := hmoves [.fromAlt, .fromAlt] (by decide)
  obtain ⟨p, op, rest, r, m', hops, -, hout, hstop, hkind, hmoved⟩ := hstops (by
    intro hall
    obtain ⟨m', hrun⟩ := hiff.mpr hall
    rw [hback] at hrun
    cases hrun)
  exact ⟨p, op, rest, r, m', hops, hout, hstop, hkind, hmoved⟩

end Machine

end Tapscript
