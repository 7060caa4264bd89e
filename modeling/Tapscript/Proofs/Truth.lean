import Tapscript.Proofs.Agreement
import Tapscript.Proofs.DepthCheck

/-!
# Truth is kept

A move leaves every item as it is, and a concatenation is true as soon as one of its parts is. So a machine
that holds something true holds something true after every step that is carried out, on one of its two
stacks. Two false items may make a true one, but not when they have a single byte between them.

* `Item.anyTrue_join`, `Item.anyTrue_join_false`: truth and falsity when two neighbours are joined.
* `Plain.true_exec`, `Plain.barren_exec`: what an operation keeps.
* `Plain.true_run`, `Plain.false_run`: what a run keeps.
* `truth_survives_steps`: machines that started, their steps and their verdicts.
-/

namespace Tapscript

/-! ## True items -/

namespace Item

theorem isTrue_eq_false_iff {x : Item} : x.isTrue = false ↔ x.bytes = #[] ∨ x.bytes = #[0] := by
  simp only [isTrue, bne, Bool.and_eq_false_iff, Bool.not_eq_false', beq_iff_eq]

/-- The parts of a false concatenation are false. -/
theorem isTrue_false_of_append {x y : Item} (h : (x ++ y).isTrue = false) :
    x.isTrue = false ∧ y.isTrue = false := by
  simp only [isTrue_eq_false_iff, bytes_append, ← Array.toList_inj, Array.toList_append,
    List.append_eq_nil_iff, List.append_eq_singleton_iff] at h ⊢
  rcases h with ⟨hx, hy⟩ | ⟨hx, hy⟩ | ⟨hx, hy⟩
  · exact ⟨Or.inl hx, Or.inl hy⟩
  · exact ⟨Or.inl hx, Or.inr hy⟩
  · exact ⟨Or.inr hx, Or.inl hy⟩

/-- Two false items with at most one byte between them make a false one: one of them is empty. -/
theorem isTrue_append_of_short {x y : Item} (hx : x.isTrue = false) (hy : y.isTrue = false)
    (hsize : x.size + y.size ≤ 1) : (x ++ y).isTrue = false := by
  rw [isTrue_eq_false_iff] at hx hy ⊢
  rw [bytes_append]
  rcases Nat.eq_zero_or_pos x.size with hempty | hpos
  · rw [Array.eq_empty_of_size_eq_zero hempty, Array.empty_append]
    exact hy
  · have hempty : y.size = 0 := by omega
    rw [Array.eq_empty_of_size_eq_zero hempty, Array.append_empty]
    exact hx

-- With two bytes the parts may be false and the whole true.
example : (⟨#[0]⟩ : Item).isTrue = false ∧ ((⟨#[0]⟩ : Item) ++ ⟨#[0]⟩).isTrue = true := by decide

theorem anyTrue_append (xs ys : List Item) : anyTrue (xs ++ ys) = (anyTrue xs || anyTrue ys) :=
  List.any_append

theorem anyTrue_cons (x : Item) (xs : List Item) : anyTrue (x :: xs) = (x.isTrue || anyTrue xs) :=
  List.any_cons

theorem anyTrue_reverse (xs : List Item) : anyTrue xs.reverse = anyTrue xs := List.any_reverse

theorem anyTrue_join {low rest : List Item} {x y : Item}
    (h : anyTrue (low ++ x :: y :: rest) = true) : anyTrue (low ++ (x ++ y) :: rest) = true := by
  simp only [anyTrue_append, anyTrue_cons, Bool.or_eq_true] at h ⊢
  rcases h with hlow | hx | hy | hrest
  · exact Or.inl hlow
  · exact Or.inr (Or.inl (Bool.of_not_eq_false fun hxy => by simp [isTrue_false_of_append hxy] at hx))
  · exact Or.inr (Or.inl (Bool.of_not_eq_false fun hxy => by simp [isTrue_false_of_append hxy] at hy))
  · exact Or.inr (Or.inr hrest)

theorem anyTrue_join_false {low rest : List Item} {x y : Item} (hsize : x.size + y.size ≤ 1)
    (h : anyTrue (low ++ x :: y :: rest) = false) : anyTrue (low ++ (x ++ y) :: rest) = false := by
  simp only [anyTrue_append, anyTrue_cons, Bool.or_eq_false_iff] at h ⊢
  obtain ⟨hlow, hx, hy, hrest⟩ := h
  exact ⟨hlow, isTrue_append_of_short hx hy hsize, hrest⟩

end Item

/-! ## Operations and runs of the plain machine -/

namespace Plain

variable {rules : Rules} {p q : Plain} {itemSize : Nat} {op : Int}

theorem true_exec (hp : Item.anyTrue p.zipper = true) (h : p.exec itemSize op = .ok q) :
    Item.anyTrue q.zipper = true := by
  rcases exec_ok h with ⟨-, hz, -⟩ | ⟨-, hz, -⟩ | ⟨-, ⟨low, x, y, rest, -, hpz, hqz⟩, -⟩
  · rw [hz]
    exact hp
  · rw [hz]
    exact hp
  · rw [hpz] at hp
    rw [hqz]
    exact Item.anyTrue_join hp

/-- At most one byte in all, and nothing true. -/
def Barren (p : Plain) : Prop := Item.total p.zipper ≤ 1 ∧ Item.anyTrue p.zipper = false

theorem barren_exec (hp : p.Barren) (h : p.exec itemSize op = .ok q) : q.Barren := by
  refine ⟨(total_exec h).symm ▸ hp.1, ?_⟩
  obtain ⟨htotal, hfalse⟩ := hp
  rcases exec_ok h with ⟨-, hz, -⟩ | ⟨-, hz, -⟩ | ⟨-, ⟨low, x, y, rest, -, hpz, hqz⟩, -⟩
  · rw [hz]
    exact hfalse
  · rw [hz]
    exact hfalse
  · rw [hpz] at htotal hfalse
    simp only [Item.total_append, Item.total_cons] at htotal
    rw [hqz]
    exact Item.anyTrue_join_false (by omega) hfalse

/-- A script without a concatenation keeps all items in their order. -/
theorem zipper_run {ops : List Int} (hops : 0x7e ∉ ops) (i : Nat) :
    (p.run rules i ops).lists.zipper = p.zipper := by
  induction ops generalizing p i with
  | nil => rfl
  | cons op rest ih =>
    rw [List.mem_cons, not_or] at hops
    rw [run]
    cases hstep : p.step rules (i + 1) op with
    | error r => rfl
    | ok p' =>
      have hrest : (p'.run rules (i + 1) rest).lists.zipper = p'.zipper := ih hops.2 (i + 1)
      refine hrest.trans ?_
      rcases exec_ok (step_ok hstep) with ⟨-, hz, -⟩ | ⟨-, hz, -⟩ | ⟨hcat, -⟩
      · exact hz
      · exact hz
      · exact absurd hcat.symm hops.1

theorem true_run (hp : Item.anyTrue p.zipper = true) (i : Nat) (ops : List Int) :
    Item.anyTrue (p.run rules i ops).lists.zipper = true :=
  run_keeps (fun hq hexec => true_exec hq hexec) hp i ops

/-- Nothing true comes from nothing true, without a concatenation or with at most one byte. -/
theorem false_run {ops : List Int} (hp : Item.anyTrue p.zipper = false)
    (hcase : 0x7e ∉ ops ∨ Item.total p.zipper ≤ 1) (i : Nat) :
    Item.anyTrue (p.run rules i ops).lists.zipper = false := by
  rcases hcase with hcat | hshort
  · rw [zipper_run hcat]
    exact hp
  · exact (run_keeps (fun hq hexec => barren_exec hq hexec) (show p.Barren from ⟨hshort, hp⟩) i ops).2

/-- A run is never refused as a script that leaves nothing true: that is judged at its end. -/
theorem refusal_ne_scriptFalse {i : Nat} {ops : List Int} {r : Refusal}
    (h : (p.run rules i ops).refusal = some r) : r.kind ≠ .scriptFalse := by
  have hkinds := kind_of_refusal h
  intro hkind
  rw [hkind] at hkinds
  simp at hkinds

/-! ## Verdicts -/

theorem Ending.judged_eq_none_iff {e : Ending} :
    e.judged = none ↔ e.refusal = none ∧ Item.anyTrue e.lists.main = true := by
  have htrue : Item.anyTrue e.lists.main = true ↔
      ∃ x ∈ e.lists.main, x.bytes ≠ #[] ∧ x.bytes ≠ #[0] := by
    simp [Item.anyTrue, Item.isTrue]
  rw [htrue, judged]
  cases e.refusal with
  | some r => simp
  | none =>
    dsimp only
    by_cases hmain : ∃ x ∈ e.lists.main, x.bytes ≠ #[] ∧ x.bytes ≠ #[0]
    · rw [if_pos hmain]
      exact iff_of_true rfl ⟨rfl, hmain⟩
    · rw [if_neg hmain]
      refine iff_of_false ?_ (fun h => hmain h.2)
      split <;> simp

theorem anyTrue_zipper (p : Plain) :
    Item.anyTrue p.zipper = (Item.anyTrue p.main || Item.anyTrue p.alt) := by
  rw [zipper, Item.anyTrue_append, Item.anyTrue_reverse]

/-- A run that leaves nothing true on either list has a failed verdict. -/
theorem Ending.judged_of_false {e : Ending} (h : Item.anyTrue e.lists.zipper = false) :
    ∃ r, e.judged = some r := by
  cases hjudged : e.judged with
  | some r => exact ⟨r, rfl⟩
  | none =>
    have htrue := (judged_eq_none_iff.mp hjudged).2
    rw [anyTrue_zipper, htrue] at h
    cases h

/-- A run that is judged to leave nothing true went through, and its main list has nothing true. -/
theorem main_of_scriptFalse {i : Nat} {ops : List Int} {r : Refusal}
    (h : (p.run rules i ops).judged = some r) (hr : r.kind = .scriptFalse) :
    Item.anyTrue (p.run rules i ops).lists.main = false := by
  cases hrefusal : (p.run rules i ops).refusal with
  | some r' =>
    rw [Ending.judged, hrefusal] at h
    cases h
    exact absurd hr (refusal_ne_scriptFalse hrefusal)
  | none =>
    apply Bool.eq_false_iff.mpr
    intro htrue
    rw [Ending.judged_eq_none_iff.mpr ⟨hrefusal, htrue⟩] at h
    cases h

/-- A run that goes through and leaves the alt list empty leaves what is true on the main list. -/
theorem judged_of_true {i j : Nat} {ops : List Int} (hp : Item.anyTrue p.zipper = true)
    (h : p.run rules i ops = ⟨none, q, j⟩) (halt : q.alt = []) :
    (p.run rules i ops).judged = none := by
  have hkept : Item.anyTrue (p.run rules i ops).lists.zipper = true := true_run hp i ops
  rw [h, anyTrue_zipper, halt] at hkept
  rw [h]
  exact Ending.judged_eq_none_iff.mpr ⟨rfl, by simpa [Item.anyTrue] using hkept⟩

/-- Where nothing true is left on the main list, what is true is on the alt list. -/
theorem alt_of_scriptFalse {i : Nat} {ops : List Int} {r : Refusal} (hp : Item.anyTrue p.zipper = true)
    (h : (p.run rules i ops).judged = some r) (hr : r.kind = .scriptFalse) :
    Item.anyTrue (p.run rules i ops).lists.alt = true := by
  have hkept : Item.anyTrue (p.run rules i ops).lists.zipper = true := true_run hp i ops
  rw [anyTrue_zipper, main_of_scriptFalse h hr, Bool.false_or] at hkept
  exact hkept

end Plain

/-! ## Machines -/

namespace Machine

variable {limits : Limits} {memory itemSize : Nat} {m m' : Machine}

/-- Some item on the main or the alt stack is true. -/
def holdsTrue (m : Machine) : Bool := m.mainStack.anyTrue || m.altStack.anyTrue

theorem items_arrange_main (m : Machine) (main alt : List Item) :
    (m.arrange main alt).mainStack.items = main := rfl

theorem items_arrange_alt (h : m.family.children ≠ []) (main alt : List Item) :
    (m.arrange main alt).altStack.items = alt := by
  have halt : (m.arrange main alt).family.members[altMember]? = some (m.altStack.holding alt) :=
    Family.member_refill_self (member_alt_refill h main) alt
  rw [member_alt (children_arrange h main alt)] at halt
  rw [Option.some.inj halt, Stack.items_holding]

theorem holdsTrue_eq (m : Machine) :
    m.holdsTrue = (Item.anyTrue m.mainStack.items || Item.anyTrue m.altStack.items) := by
  simp only [holdsTrue, Stack.anyTrue, Stack.bottomUp, Item.anyTrue_reverse]

/-- An opcode leaves something true where something true was, by its operation on the lists. -/
theorem true_effect {op : Opcode} {main alt main' alt' : List Item}
    (h : op.effect (some (itemSize : Int)) main alt = .ok (main', alt'))
    (htrue : (Item.anyTrue main || Item.anyTrue alt) = true) :
    (Item.anyTrue main' || Item.anyTrue alt') = true := by
  have hexec := Plain.effect_exec itemSize ⟨main.reverse, alt.reverse⟩ op
  simp only [List.reverse_reverse, h] at hexec
  cases hq : Plain.exec itemSize op.code ⟨main.reverse, alt.reverse⟩ with
  | error r =>
    rw [hq] at hexec
    cases hexec
  | ok q =>
    rw [hq] at hexec
    cases hexec
    have hkept := Plain.true_exec (by simpa [Plain.anyTrue_zipper, Item.anyTrue_reverse] using htrue) hq
    rw [Item.anyTrue_reverse, Item.anyTrue_reverse, ← Plain.anyTrue_zipper]
    exact hkept

theorem true_step (h : m.Sound limits memory) (hi : limits.itemSize = some itemSize) {op : Value}
    (hstep : step op m = .ok () m') (htrue : m.holdsTrue = true) : m'.holdsTrue = true := by
  obtain ⟨c, main, alt, -, heffect, rfl⟩ := effect_of_step h hstep
  have hbound : limits.itemBound = some (itemSize : Int) := by
    rw [Limits.itemBound, hi]
    rfl
  rw [hbound] at heffect
  rw [holdsTrue_eq] at htrue
  rw [holdsTrue_eq, items_arrange_main, items_arrange_alt (sound_counted h 1).alt]
  exact true_effect heffect htrue

theorem runValue_of_elements {v : Value} {ops : List Value} (h : v.elements = .ok ops) (m : Machine) :
    runValue v m = runValue (.list ops) m := by
  have hscript : m.scriptOf v = .ok ops := by
    cases v with
    | nothing => cases h
    | _ => exact h
  rw [runValue_eq_run hscript, runValue_eq_run (show m.scriptOf (.list ops) = .ok ops from rfl)]

/-- **Truth is kept.** Take a machine that started with an item size. After any history of uses, a step that
is carried out leaves something true on the main or the alt stack if something true was there. So a script
that goes through against a witness with a true item succeeds if it leaves the alt stack empty, and if it
fails for want of truth, then a true item is left on the alt stack. Against a witness without a true item no
script without a concatenation succeeds, and with at most one byte in the whole witness no script at all. -/
theorem truth_survives_steps {limits : Limits} {itemSize : Nat} {witness script : Value} {m₀ : Machine}
    {ops : List Int} (hi : limits.itemSize = some itemSize)
    (h : start limits witness script = .ok m₀) (hops : script.elements = .ok (ops.map .int)) :
    let outcome := (evaluate limits script witness).outcome
    (∃ vs, witness.elements = .ok vs ∧
        vs.map Value.content? = m₀.witness.map fun x => some x.bytes) ∧
      (∀ uses op m', (m₀.history uses).holdsTrue = true → step op (m₀.history uses) = .ok () m' →
        m'.holdsTrue = true) ∧
      (Item.anyTrue m₀.witness = true →
        (∀ m', runValue script m₀ = .ok () m' → m'.altStack.items = [] →
          outcome = .ok (.success m')) ∧
        ∀ verdict f, outcome = .ok verdict → verdict.failure = some f → f.kind = .scriptFalse →
          ∃ m', verdict.machine = some m' ∧ m'.altStack.anyTrue = true) ∧
      (Item.anyTrue m₀.witness = false → 0x7e ∉ ops ∨ Item.total m₀.witness ≤ 1 →
        ∃ verdict f, outcome = .ok verdict ∧ verdict.failure = some f) := by
  intro outcome
  obtain ⟨memory, hsound⟩ := sound_of_start h
  have hscript : m₀.script = ops.map .int :=
    Except.ok.inj ((lengths_of_start h).1.symm.trans hops)
  obtain ⟨rules, rfl, rfl, hfits, hm, hvs⟩ := Plain.eq_machine_of_start hi h
  rw [hscript] at hm
  have houtcome : outcome = _ := Plain.outcome_of_start hfits (h.trans (congrArg Except.ok hm))
  have hzipper : Plain.zipper ⟨m₀.witness, []⟩ = m₀.witness := List.append_nil _
  refine ⟨hvs, ?_, ?_, ?_⟩
  · intro uses op m' htrue hstep
    exact true_step (sound_history uses hsound) hi hstep htrue
  · intro htrue
    rw [← hzipper] at htrue
    refine ⟨?_, ?_⟩
    · intro m' hrun hempty
      rw [runValue_of_elements hops, hm, Plain.runValue_ok_iff hfits] at hrun
      obtain ⟨q, j, hq, rfl⟩ := hrun
      have hjudged := Plain.judged_of_true htrue hq (List.reverse_eq_nil_iff.mp hempty)
      rw [hjudged, hq] at houtcome
      exact houtcome
    · intro verdict f hverdict hfailure hkind
      rw [houtcome] at hverdict
      cases hverdict
      obtain ⟨r, hjudged, rfl⟩ := Option.map_eq_some_iff.mp hfailure
      refine ⟨_, rfl, ?_⟩
      rw [Stack.anyTrue, Plain.alt_machine]
      exact Plain.alt_of_scriptFalse htrue hjudged hkind
  · intro hfalse hcase
    rw [← hzipper] at hfalse hcase
    have hkept : Item.anyTrue (Plain.run rules 0 ops ⟨m₀.witness, []⟩).lists.zipper = false :=
      Plain.false_run hfalse hcase 0
    obtain ⟨r, hjudged⟩ := Plain.Ending.judged_of_false hkept
    refine ⟨_, r.failure, houtcome, ?_⟩
    simp only [hjudged, Option.map_some]

/-- A true item that a script leaves on the alt stack, and a zero byte that joining it with an empty item does
not make true. -/
theorem truth_survives_move :
    let limits : Limits := ⟨some 3, 4, some 4, none, by decide⟩
    let moved : Value := .list [.growable #[0], .bytes #[7]]
    let m := (blank limits [⟨#[0]⟩, ⟨#[7]⟩] [.int 0x6b]).arrange [⟨#[7]⟩, ⟨#[0]⟩] []
    let joined : Value := .list [.item ⟨#[0]⟩, .bytes #[]]
    let n := (blank limits [⟨#[0]⟩, ⟨#[]⟩] [.int 0x7e]).arrange [⟨#[]⟩, ⟨#[0]⟩] []
    (start limits moved (.bytes #[0x6b]) = .ok m ∧ Item.anyTrue m.witness = true ∧
        ∃ verdict f m', (evaluate limits (.bytes #[0x6b]) moved).outcome = .ok verdict ∧
          verdict.failure = some f ∧ f.kind = .scriptFalse ∧ verdict.machine = some m' ∧
          m'.altStack.anyTrue = true) ∧
      (start limits joined (.list [.int 0x7e]) = .ok n ∧ Item.anyTrue n.witness = false ∧
        Item.total n.witness = 1 ∧
        ∃ verdict f, (evaluate limits (.list [.int 0x7e]) joined).outcome = .ok verdict ∧
          verdict.failure = some f) := by
  intro limits moved m joined n
  have hm : start limits moved (.bytes #[0x6b]) = .ok m := rfl
  have hn : start limits joined (.list [.int 0x7e]) = .ok n := rfl
  have hmoved : (evaluate limits (.bytes #[0x6b]) moved).outcome =
      .ok (.failed Refusal.nothingTrue.failure _) := rfl
  have hmove : (Value.bytes #[0x6b]).elements = .ok ([0x6b].map .int) := rfl
  have hcat : (Value.list [.int 0x7e]).elements = .ok ([0x7e].map .int) := rfl
  obtain ⟨-, -, htrue, -⟩ := truth_survives_steps rfl hm hmove
  obtain ⟨-, -, -, hfalse⟩ := truth_survives_steps rfl hn hcat
  obtain ⟨m', hm', halt⟩ := (htrue (by decide)).2 _ _ hmoved rfl rfl
  exact ⟨⟨hm, by decide, _, _, m', hmoved, rfl, rfl, hm', halt⟩,
    hn, by decide, by decide, hfalse (by decide) (Or.inr (by decide))⟩

end Machine

end Tapscript
