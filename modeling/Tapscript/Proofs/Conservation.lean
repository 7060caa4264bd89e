import Tapscript.Proofs.Refinement

/-!
# Conservation

Nothing is lost, doubled or put out of order. The main stack from its bottom to its top, followed by
the alt stack from its top to its bottom, is the witness with neighbours joined: a move shifts the
boundary between the two stacks, a concatenation joins the two items below it, and a refused step does
nothing.

* `exec_conserved`: what one operation keeps.
* `attempt_conserved`: what steps keep, carried out or refused.
* `stacks_regroup_witness`: the stacks of a machine that started, after any steps.
-/

namespace Tapscript

/-! ## Joined neighbours -/

namespace Item

/-- The bytes of a list of items in one item. -/
def joined (xs : List Item) : Item := xs.foldr (· ++ ·) ⟨#[]⟩

theorem bytes_joined (xs : List Item) : (joined xs).bytes.toList = xs.flatMap (·.bytes.toList) := by
  induction xs with
  | nil => rfl
  | cons x xs ih =>
    rw [List.flatMap_cons, ← ih, joined, List.foldr_cons, bytes_append, Array.toList_append]
    rfl

theorem eq_of_bytes {x y : Item} (h : x.bytes.toList = y.bytes.toList) : x = y := by
  cases x
  cases y
  exact congrArg Item.mk (Array.ext' h)

theorem joined_append (xs ys : List Item) : joined (xs ++ ys) = joined xs ++ joined ys := by
  apply eq_of_bytes
  rw [bytes_append, Array.toList_append, bytes_joined, bytes_joined, bytes_joined,
    List.flatMap_append]

theorem size_joined (xs : List Item) : (joined xs).size = total xs := by
  induction xs with
  | nil => rfl
  | cons x xs ih =>
    rw [total_cons, ← ih]
    exact size_append x (joined xs)

/-- `xs` is `ws` cut into non-empty groups of neighbours, each joined into one item. -/
structure Regroups (groups : List (List Item)) (ws xs : List Item) : Prop where
  nonempty : ∀ g ∈ groups, g ≠ []
  flatten : groups.flatten = ws
  joined : groups.map Item.joined = xs

namespace Regroups

variable {groups : List (List Item)} {ws xs : List Item}

theorem singletons (ws : List Item) : Regroups (ws.map ([·])) ws ws where
  nonempty := by
    intro g hg
    obtain ⟨w, -, rfl⟩ := List.mem_map.mp hg
    exact List.cons_ne_nil w []
  flatten := by
    induction ws with
    | nil => rfl
    | cons w ws ih => rw [List.map_cons, List.flatten_cons, ih, List.singleton_append]
  joined := by
    rw [List.map_map]
    refine (List.map_congr_left ?_).trans (List.map_id ws)
    intro w _
    apply eq_of_bytes
    simp [bytes_joined]

/-- All groups together hold the bytes they came from. -/
theorem joined_eq (h : Regroups groups ws xs) : Item.joined xs = Item.joined ws := by
  obtain ⟨-, rfl, rfl⟩ := h
  induction groups with
  | nil => rfl
  | cons g groups ih =>
    rw [List.flatten_cons, joined_append, ← ih]
    rfl

theorem total_eq (h : Regroups groups ws xs) : total xs = total ws := by
  rw [← size_joined, ← size_joined, h.joined_eq]

/-- Two neighbours become one when their groups do. -/
theorem join {low rest : List Item} {x y : Item} (h : Regroups groups ws (low ++ x :: y :: rest)) :
    ∃ groups', Regroups groups' ws (low ++ (x ++ y) :: rest) ∧
      groups'.length + 1 = groups.length := by
  obtain ⟨hne, hflat, hjoined⟩ := h
  obtain ⟨front, back, rfl, hfront, hback⟩ := List.map_eq_append_iff.mp hjoined
  obtain ⟨g, back', rfl, hg, hback'⟩ := List.map_eq_cons_iff.mp hback
  obtain ⟨g', later, rfl, hg', hlater⟩ := List.map_eq_cons_iff.mp hback'
  refine ⟨front ++ (g ++ g') :: later, ⟨?_, ?_, ?_⟩, ?_⟩
  · intro k hk
    rcases List.mem_append.mp hk with hk | hk
    · exact hne k (List.mem_append_left _ hk)
    · rcases List.mem_cons.mp hk with rfl | hk
      · have hg := hne g (by simp)
        simp [hg]
      · exact hne k (by simp [hk])
  · rw [← hflat]
    simp
  · rw [List.map_append, List.map_cons, hfront, hlater, joined_append, hg, hg']
  · simp only [List.length_append, List.length_cons]
    omega

end Regroups

end Item

/-! ## Steps -/

namespace Machine

/-- The machine after steps with the given codes, each of them carried out or refused. -/
def attempt (ops : List Int) (m : Machine) : Machine :=
  Action.replay (ops.map fun op => step (.int op)) m

/-- The codes that were carried out. -/
def carriedOut : List Int → Machine → List Int
  | [], _ => []
  | op :: rest, m =>
    match step (.int op) m with
    | .ok _ m' => op :: carriedOut rest m'
    | .error _ m' => carriedOut rest m'

end Machine

namespace Plain

variable {rules : Rules} {p q : Plain}

/-- The two lists regroup the witness, and their lengths follow from the codes carried out. -/
def Conserved (witness : List Item) (done : List Int) (p : Plain) : Prop :=
  ∃ groups, Item.Regroups groups witness p.zipper ∧
    groups.length + done.count 0x7e = witness.length ∧
    p.alt.length + done.count 0x6c = done.count 0x6b

theorem exec_conserved {witness : List Item} {done : List Int} {itemSize : Nat} {op : Int}
    (hp : p.Conserved witness done) (h : p.exec itemSize op = .ok q) :
    q.Conserved witness (done ++ [op]) := by
  obtain ⟨groups, hgroups, hcat, halt⟩ := hp
  unfold Conserved
  simp only [List.count_append]
  rcases exec_ok h with ⟨rfl, hz, ha⟩ | ⟨rfl, hz, ha⟩ | ⟨rfl, ⟨low, x, y, rest, -, hpz, hqz⟩, ha⟩
  · have hone : [(0x6b : Int)].count 0x6b = 1 := rfl
    refine ⟨groups, hz ▸ hgroups, hcat, ?_⟩
    change q.alt.length + done.count 0x6c = _
    omega
  · have hone : [(0x6c : Int)].count 0x6c = 1 := rfl
    refine ⟨groups, hz ▸ hgroups, hcat, ?_⟩
    change _ = done.count 0x6b
    omega
  · have hone : [(0x7e : Int)].count 0x7e = 1 := rfl
    rw [hpz] at hgroups
    obtain ⟨groups', hgroups', hlength⟩ := hgroups.join
    refine ⟨groups', hqz ▸ hgroups', ?_, ?_⟩
    · omega
    · rw [ha]
      exact halt

/-- Steps on the machine of two lists leave the machine of two lists. -/
theorem attempt_conserved {items : List Item} {done : List Int} (ops : List Int)
    (witness : List Item) (script : List Value) (k : Nat) (hfits : p.Fits rules)
    (hp : p.Conserved items done) :
    ∃ (q : Plain) (k' : Nat), (p.machine rules.limits witness script k).attempt ops =
        q.machine rules.limits witness script k' ∧
      q.Conserved items (done ++ (p.machine rules.limits witness script k).carriedOut ops) := by
  induction ops generalizing p done k with
  | nil =>
    refine ⟨p, k, rfl, ?_⟩
    simpa [Machine.carriedOut] using hp
  | cons op rest ih =>
    have hstep := step_machine hfits op witness script k
    simp only [Machine.attempt, List.map_cons, Action.replay_cons, Action.after,
      Machine.carriedOut, hstep]
    cases hplain : p.step rules (k + 1) op with
    -- A refused step is counted, but leaves the lists and the codes carried out as they are.
    | error r => exact ih (k + 1) hfits hp
    | ok q =>
      have hq := exec_conserved hp (step_ok hplain)
      obtain ⟨q', k', hattempt, hq'⟩ := ih (k + 1) (fits_step hfits hplain) hq
      refine ⟨q', k', hattempt, ?_⟩
      rw [List.append_assoc] at hq'
      exact hq'

theorem main_machine (limits : Limits) (p : Plain) (witness : List Item) (script : List Value)
    (k : Int) : (p.machine limits witness script k).mainStack.bottomUp = p.main := by
  simp [machine, Machine.mainStack, Stack.bottomUp]

theorem alt_machine (limits : Limits) (p : Plain) (witness : List Item) (script : List Value)
    (k : Int) : (p.machine limits witness script k).altStack.bottomUp = p.alt := by
  simp [machine, Machine.altStack, Stack.bottomUp]

theorem stacks_machine (limits : Limits) (p : Plain) (witness : List Item) (script : List Value)
    (k : Int) :
    (p.machine limits witness script k).mainStack.bottomUp ++
        (p.machine limits witness script k).altStack.bottomUp.reverse = p.zipper := by
  simp [machine, Machine.mainStack, Machine.altStack, Stack.bottomUp, zipper]

theorem held_machine (limits : Limits) (p : Plain) (witness : List Item) (script : List Value)
    (k : Int) :
    (p.machine limits witness script k).family.held =
      ⟨some (p.zipper.length : Int), some (Item.total p.zipper : Int)⟩ := by
  simp [machine, zipper]

theorem mainDepth_machine (limits : Limits) (p : Plain) (witness : List Item) (script : List Value)
    (k : Int) : (p.machine limits witness script k).mainStack.depth = p.main.length := by
  simp [machine, Machine.mainStack, Stack.depth]

theorem altDepth_machine (limits : Limits) (p : Plain) (witness : List Item) (script : List Value)
    (k : Int) : (p.machine limits witness script k).altStack.depth = p.alt.length := by
  simp [machine, Machine.altStack, Stack.depth]

end Plain

/-! ## Machines that started -/

/-- An admitted witness has the bytes of the values it came from, and no item is too long. -/
theorem Limits.mapM_accept_ok {limits : Limits} {itemSize : Nat}
    (hi : limits.itemSize = some itemSize) {vs : List Value} {items : List Item}
    (h : vs.mapM limits.accept = .ok items) :
    vs.map Value.content? = items.map (fun x => some x.bytes) ∧ ∀ x ∈ items, x.size ≤ itemSize := by
  rw [mapM_accept_eq hi, unlessFlaw_eq_ok_iff] at h
  obtain ⟨hflaws, rfl⟩ := h
  have hheld : ∀ v ∈ vs, v.content? = some v.heldItem.bytes ∧ v.heldItem.size ≤ itemSize :=
    fun v hv => Value.content?_eq_of_flaw? (List.findSome?_eq_none_iff.mp hflaws v hv)
  refine ⟨?_, ?_⟩
  · rw [List.map_map]
    exact List.map_congr_left fun v hv => (hheld v hv).1
  · intro x hx
    obtain ⟨v, hv, rfl⟩ := List.mem_map.mp hx
    exact (hheld v hv).2

theorem Rules.exists_limits_eq {limits : Limits} {itemSize memory : Nat}
    (hi : limits.itemSize = some itemSize) (hm : limits.stackMemory = some memory) :
    ∃ rules : Rules, rules.limits = limits ∧ rules.itemSize = itemSize ∧
      rules.stackMemory = memory := by
  refine ⟨⟨itemSize, limits.stackElements, memory, limits.opBudget, limits.stackElements_pos⟩,
    ?_, rfl, rfl⟩
  simp only [Rules.limits, ← hi, ← hm]

/-- A machine that started with an item size holds its witness as the main list, and an empty alt list. -/
theorem Plain.eq_machine_of_start {limits : Limits} {itemSize : Nat} {witness script : Value}
    {m : Machine} (hi : limits.itemSize = some itemSize)
    (h : Machine.start limits witness script = .ok m) :
    ∃ rules : Rules, rules.limits = limits ∧ rules.itemSize = itemSize ∧
      Plain.Fits rules ⟨m.witness, []⟩ ∧
      m = Plain.machine limits m.witness m.script ⟨m.witness, []⟩ 0 ∧
      ∃ vs, witness.elements = .ok vs ∧
        vs.map Value.content? = m.witness.map fun x => some x.bytes := by
  obtain ⟨vs, items, code, memory, hvs, hitems, -, hm, hlaunch⟩ := Machine.start_ok h
  obtain ⟨hcontents, hsizes⟩ := Limits.mapM_accept_ok hi hitems
  obtain ⟨rules, rfl, rfl, rfl⟩ := Rules.exists_limits_eq hi hm
  obtain ⟨hc, hb, rfl⟩ := Machine.launch_ok hlaunch
  have hfits : Plain.Fits rules ⟨items, []⟩ := by
    refine ⟨?_, ?_, ?_⟩
    · simpa [Plain.zipper] using hc
    · simpa [Plain.zipper] using hb
    · simpa [Plain.zipper] using hsizes
  exact ⟨rules, rfl, rfl, hfits,
    (Plain.machine_eq_arrange rules.limits ⟨items, []⟩ items code).symm, vs, hvs, hcontents⟩

namespace Machine

/-- **Conservation.** After any steps of a machine that started, carried out or refused, the main
stack from the bottom and then the alt stack from the top are the witness with neighbours joined. Each
concatenation carried out makes one group fewer, the totals follow, and the alt stack holds what was
moved to it and not moved back. -/
theorem stacks_regroup_witness {limits : Limits} {itemSize : Nat} {witness script : Value}
    {m : Machine} (hi : limits.itemSize = some itemSize)
    (h : start limits witness script = .ok m) (ops : List Int) :
    let m' := m.attempt ops
    let done := m.carriedOut ops
    let line := m'.mainStack.bottomUp ++ m'.altStack.bottomUp.reverse
    (∃ vs, witness.elements = .ok vs ∧
        vs.map Value.content? = m.witness.map fun x => some x.bytes) ∧
      (∃ groups, Item.Regroups groups m.witness line ∧
        groups.length + done.count 0x7e = m.witness.length ∧
        m'.family.held.count = some (groups.length : Int)) ∧
      (line.flatMap fun x => x.bytes.toList) = (m.witness.flatMap fun x => x.bytes.toList) ∧
      m'.family.held.bytes = some (Item.total m.witness : Int) ∧
      m'.altStack.depth + done.count 0x6c = done.count 0x6b := by
  obtain ⟨vs, items, code, memory, hvs, hitems, -, hm, hlaunch⟩ := start_ok h
  obtain ⟨hcontents, hsizes⟩ := Limits.mapM_accept_ok hi hitems
  obtain ⟨rules, rfl, rfl, rfl⟩ := Rules.exists_limits_eq hi hm
  obtain ⟨hc, hb, rfl⟩ := launch_ok hlaunch
  have hmachine : (blank rules.limits items code).arrange items.reverse [] =
      Plain.machine rules.limits items code ⟨items, []⟩ (0 : Nat) :=
    (Plain.machine_eq_arrange rules.limits ⟨items, []⟩ items code).symm
  have hfits : Plain.Fits rules ⟨items, []⟩ :=
    ⟨by simpa [Plain.zipper] using hc, by simpa [Plain.zipper] using hb,
      by simpa [Plain.zipper] using hsizes⟩
  have hstart : Plain.Conserved items [] ⟨items, []⟩ :=
    ⟨_, by simpa [Plain.zipper] using Item.Regroups.singletons items, by simp, rfl⟩
  obtain ⟨q, k, hattempt, hq⟩ := Plain.attempt_conserved ops items code 0 hfits hstart
  rw [← hmachine] at hattempt hq
  obtain ⟨groups, hgroups, hcat, halt⟩ := hq
  have hlength := congrArg List.length hgroups.joined
  rw [List.length_map] at hlength
  intro m' done line
  have hm' : m' = q.machine rules.limits items code k := hattempt
  have hline : line = q.zipper := by
    simp only [line, hm', Plain.stacks_machine]
  refine ⟨⟨vs, hvs, hcontents⟩, ⟨groups, hline ▸ hgroups, hcat, ?_⟩, ?_, ?_, ?_⟩
  · rw [hm', Plain.held_machine, hlength]
  · rw [hline, ← Item.bytes_joined, ← Item.bytes_joined, hgroups.joined_eq]
    rfl
  · rw [hm', Plain.held_machine, hgroups.total_eq]
    rfl
  · rw [hm', Plain.altDepth_machine]
    exact halt

/-- Three values of different kinds, with a concatenation that is too long, an unknown code and moves
that are refused among the steps. -/
theorem stacks_regroup_three :
    let limits : Limits := ⟨some 2, 4, some 3, none, by decide⟩
    let m := (blank limits [⟨#[1]⟩, ⟨#[2]⟩, ⟨#[3]⟩] []).arrange [⟨#[3]⟩, ⟨#[2]⟩, ⟨#[1]⟩] []
    let ops : List Int := [0x6c, 0x6b, 0x7e, 0x6c, 0x7e, 0x99, 0x6b]
    let line := (m.attempt ops).mainStack.bottomUp ++ (m.attempt ops).altStack.bottomUp.reverse
    start limits (.list [.bytes #[1], .growable #[2], .item ⟨#[3]⟩]) (.list []) = .ok m ∧
      m.carriedOut ops = [0x6b, 0x7e, 0x6c, 0x6b] ∧ line = [⟨#[1, 2]⟩, ⟨#[3]⟩] ∧
      (∃ groups, Item.Regroups groups m.witness line ∧
        groups.length + (m.carriedOut ops).count 0x7e = m.witness.length ∧
        (m.attempt ops).family.held.count = some (groups.length : Int)) ∧
      (m.attempt ops).family.held.bytes = some (Item.total m.witness : Int) ∧
      (m.attempt ops).altStack.depth + (m.carriedOut ops).count 0x6c =
        (m.carriedOut ops).count 0x6b := by
  intro limits m ops line
  have hstart : start limits (.list [.bytes #[1], .growable #[2], .item ⟨#[3]⟩]) (.list []) = .ok m :=
    rfl
  obtain ⟨-, hgroups, -, hbytes, halt⟩ := stacks_regroup_witness rfl hstart ops
  refine ⟨hstart, ?_, ?_, hgroups, hbytes, halt⟩
  · decide
  · decide

end Machine

end Tapscript
