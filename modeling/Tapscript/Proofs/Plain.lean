import Tapscript.Verdict
import Tapscript.Proofs.Start

/-!
# The plain machine

A machine on two plain lists, both from the bottom to the top, without counters, families,
reservations or checks after the fact. It is what a script means: the witness is admitted or not, each
operation moves or joins the last items of the lists, and at the end the main list is judged.
`Plain.machine` is the machine whose stacks hold the two lists and whose counters are the sums over
them.
-/

namespace Tapscript

/-- Limits in which every field has a number, the op budget apart. -/
structure Rules where
  itemSize : Nat
  stackElements : Nat
  stackMemory : Nat
  opBudget : Option Nat
  stackElements_pos : 0 < stackElements

def Rules.limits (rules : Rules) : Limits :=
  ⟨some rules.itemSize, rules.stackElements, some rules.stackMemory, rules.opBudget,
    rules.stackElements_pos⟩

@[simp]
theorem Rules.stackElements_limits (rules : Rules) :
    rules.limits.stackElements = rules.stackElements := rfl

theorem Rules.itemSize_limits (rules : Rules) : rules.limits.itemSize = some rules.itemSize := rfl

theorem Rules.stackMemory_limits (rules : Rules) :
    rules.limits.stackMemory = some rules.stackMemory := rfl

/-- The op budget covers `i` operations. -/
def Rules.Affords (rules : Rules) (i : Nat) : Prop := ∀ most, rules.opBudget = some most → i ≤ most

theorem Rules.affords_of_unlimited {rules : Rules} (h : rules.opBudget = none) (i : Nat) :
    rules.Affords i := by
  intro most hmost
  rw [h] at hmost
  cases hmost

/-- The items of the main and the alt stack, both from the bottom to the top. -/
structure Plain where
  main : List Item
  alt : List Item

namespace Plain

/-! ## Operations -/

/-- The last item of the main list moves to the end of the alt list. -/
def toAlt (p : Plain) : Except Refusal Plain :=
  match p.main.getLast? with
  | some x => .ok ⟨p.main.dropLast, p.alt ++ [x]⟩
  | none => .error (.mainTooShallow 0 1)

/-- The last item of the alt list moves to the end of the main list. -/
def fromAlt (p : Plain) : Except Refusal Plain :=
  match p.alt.getLast? with
  | some x => .ok ⟨p.main ++ [x], p.alt.dropLast⟩
  | none => .error .altEmpty

/-- The last two items of the main list become one. -/
def cat (itemSize : Nat) (p : Plain) : Except Refusal Plain :=
  match p.main.dropLast.getLast?, p.main.getLast? with
  | some x, some y =>
    if x.size + y.size ≤ itemSize then .ok ⟨p.main.dropLast.dropLast ++ [x ++ y], p.alt⟩
    else .error (.joinTooLong (x.size + y.size) itemSize)
  | _, _ => .error (.mainTooShallow p.main.length 2)

def exec (itemSize : Nat) (op : Int) (p : Plain) : Except Refusal Plain :=
  if op = 0x6b then p.toAlt
  else if op = 0x6c then p.fromAlt
  else if op = 0x7e then p.cat itemSize
  else .error (.unknownOpcode (toString op) [op])

/-- The operation with number `i`, counted from one, if the budget allows so many. -/
def step (rules : Rules) (i : Nat) (op : Int) (p : Plain) : Except Refusal Plain :=
  match rules.opBudget with
  | some most => if most < i then .error (.overBudget most) else p.exec rules.itemSize op
  | none => p.exec rules.itemSize op

theorem step_eq_exec {rules : Rules} {i : Nat} (h : rules.Affords i) (op : Int) (p : Plain) :
    p.step rules i op = p.exec rules.itemSize op := by
  unfold step
  split
  · rename_i most hmost
    rw [if_neg (Nat.not_lt.mpr (h most hmost))]
  · rfl

/-! ## Runs and verdicts -/

/-- How a run ends: why it was refused, if it was, what it leaves, and how many operations it
counted. -/
structure Ending where
  refusal : Option Refusal
  lists : Plain
  ops : Nat

/-- Runs a script after `i` operations, up to the first one that is refused. -/
def run (rules : Rules) : Nat → List Int → Plain → Ending
  | i, [], p => ⟨none, p, i⟩
  | i, op :: rest, p =>
    match p.step rules (i + 1) op with
    | .error r => ⟨some r, p, i + 1⟩
    | .ok p' => run rules (i + 1) rest p'

/-- The witness as the main list. -/
def start (rules : Rules) (witness : List Item) : Except Refusal Plain :=
  match witness.find? fun x => rules.itemSize < x.size with
  | some x => .error (.itemTooLong x.size rules.itemSize)
  | none =>
    if rules.stackElements ≤ witness.length then
      .error (.tooManyItems (rules.stackElements - 1) witness.length)
    else if rules.stackMemory < Item.total witness then
      .error (.tooManyBytes rules.stackMemory (Item.total witness))
    else .ok ⟨witness, []⟩

/-- A run that was not refused must leave an item on the main list that is neither empty nor a single
zero byte. -/
def Ending.judged (e : Ending) : Option Refusal :=
  match e.refusal with
  | some r => some r
  | none =>
    if ∃ x ∈ e.lists.main, x.bytes ≠ #[] ∧ x.bytes ≠ #[0] then none
    else if e.lists.main = [] then some .nothingLeft
    else some .nothingTrue

/-- The machine whose stacks hold the two lists, and whose counters are the sums over them. -/
def machine (limits : Limits) (witness : List Item) (script : List Value) (p : Plain) (ops : Int) :
    Machine :=
  { limits := some limits, witness, script, opCount := ops
    family :=
      { root :=
          { bounds := (Machine.emptyFamily limits).root.bounds
            size := some (Item.total p.main : Int), items := p.main.reverse }
        children :=
          [{ bounds := Family.childBounds, size := some (Item.total p.alt : Int)
             items := p.alt.reverse }]
        held :=
          ⟨some ((p.main.length + p.alt.length : Nat) : Int),
            some ((Item.total p.main + Item.total p.alt : Nat) : Int)⟩ } }

/-! ## The zipper -/

/-- The main list followed by the alt list from its top down. The boundary between the two is where
the operations work. -/
def zipper (p : Plain) : List Item := p.main ++ p.alt.reverse

variable {rules : Rules} {p q : Plain}

theorem toAlt_ok (h : p.toAlt = .ok q) :
    q.zipper = p.zipper ∧ q.alt.length = p.alt.length + 1 := by
  unfold toAlt at h
  split at h
  · rename_i x hx
    obtain ⟨low, hlow⟩ := List.getLast?_eq_some_iff.mp hx
    cases h
    simp [zipper, hlow]
  · cases h

theorem fromAlt_ok (h : p.fromAlt = .ok q) :
    q.zipper = p.zipper ∧ q.alt.length + 1 = p.alt.length := by
  unfold fromAlt at h
  split at h
  · rename_i x hx
    obtain ⟨low, hlow⟩ := List.getLast?_eq_some_iff.mp hx
    cases h
    simp [zipper, hlow]
  · cases h

theorem cat_ok {itemSize : Nat} (h : p.cat itemSize = .ok q) :
    (∃ low x y rest, x.size + y.size ≤ itemSize ∧ p.zipper = low ++ x :: y :: rest ∧
      q.zipper = low ++ (x ++ y) :: rest) ∧ q.alt.length = p.alt.length := by
  unfold cat at h
  split at h
  · rename_i x y hx hy
    obtain ⟨upper, hupper⟩ := List.getLast?_eq_some_iff.mp hy
    rw [hupper, List.dropLast_concat] at hx
    obtain ⟨low, rfl⟩ := List.getLast?_eq_some_iff.mp hx
    split at h
    · rename_i hsize
      cases h
      refine ⟨⟨low, x, y, p.alt.reverse, hsize, ?_, ?_⟩, rfl⟩
      · simp [zipper, hupper]
      · simp [zipper, hupper]
    · cases h
  · cases h

/-- A move keeps the zipper and shifts its boundary; a concatenation joins two neighbours in it. -/
theorem exec_ok {itemSize : Nat} {op : Int} (h : p.exec itemSize op = .ok q) :
    (op = 0x6b ∧ q.zipper = p.zipper ∧ q.alt.length = p.alt.length + 1) ∨
      (op = 0x6c ∧ q.zipper = p.zipper ∧ q.alt.length + 1 = p.alt.length) ∨
      (op = 0x7e ∧ (∃ low x y rest, x.size + y.size ≤ itemSize ∧ p.zipper = low ++ x :: y :: rest ∧
        q.zipper = low ++ (x ++ y) :: rest) ∧ q.alt.length = p.alt.length) := by
  unfold exec at h
  split at h
  · rename_i hop
    exact Or.inl ⟨hop, toAlt_ok h⟩
  · split at h
    · rename_i hop
      exact Or.inr (Or.inl ⟨hop, fromAlt_ok h⟩)
    · split at h
      · rename_i hop
        exact Or.inr (Or.inr ⟨hop, cat_ok h⟩)
      · cases h

/-- Both lists together are within the rules, and so is every item. -/
structure Fits (rules : Rules) (p : Plain) : Prop where
  elements : p.zipper.length < rules.stackElements
  memory : Item.total p.zipper ≤ rules.stackMemory
  items : ∀ x ∈ p.zipper, x.size ≤ rules.itemSize

theorem fits_exec (hp : p.Fits rules) {op : Int} (h : p.exec rules.itemSize op = .ok q) :
    q.Fits rules := by
  obtain ⟨hc, hb, hi⟩ := hp
  rcases exec_ok h with ⟨-, hz, -⟩ | ⟨-, hz, -⟩ | ⟨-, ⟨low, x, y, rest, hxy, hpz, hqz⟩, -⟩
  · exact ⟨hz ▸ hc, hz ▸ hb, hz ▸ hi⟩
  · exact ⟨hz ▸ hc, hz ▸ hb, hz ▸ hi⟩
  · rw [hpz] at hc hb hi
    simp only [List.length_append, List.length_cons] at hc
    simp only [Item.total_append, Item.total_cons] at hb
    refine ⟨?_, ?_, ?_⟩
    · simp only [hqz, List.length_append, List.length_cons]
      omega
    · simp only [hqz, Item.total_append, Item.total_cons, Item.size_append]
      omega
    · intro z hz
      rw [hqz] at hz
      rcases List.mem_append.mp hz with hz | hz
      · exact hi z (List.mem_append_left _ hz)
      · rcases List.mem_cons.mp hz with rfl | hz
        · rw [Item.size_append]
          exact hxy
        · exact hi z (by simp [hz])

theorem step_ok {i : Nat} {op : Int} (h : p.step rules i op = .ok q) :
    p.exec rules.itemSize op = .ok q := by
  unfold step at h
  split at h
  · split at h
    · cases h
    · exact h
  · exact h

theorem fits_step (hp : p.Fits rules) {i : Nat} {op : Int} (h : p.step rules i op = .ok q) :
    q.Fits rules := fits_exec hp (step_ok h)

theorem fits_start {witness : List Item} (h : start rules witness = .ok p) :
    p = ⟨witness, []⟩ ∧ p.Fits rules := by
  unfold start at h
  split at h
  · cases h
  · rename_i hfind
    split at h
    · cases h
    · split at h
      · cases h
      · rename_i hc hb
        cases h
        refine ⟨rfl, ?_, ?_, ?_⟩
        · simpa [zipper] using hc
        · simpa [zipper] using hb
        · intro x hx
          have hlong := List.find?_eq_none.mp hfind x (by simpa [zipper] using hx)
          simpa using hlong

end Plain

end Tapscript
