import Tapscript.Proofs.DepthCheck
import Tapscript.Proofs.LooserLimits

/-!
# Ample memory

Memory is ample when it has room for as many items of the largest size as the element limit allows. Then the
memory limit refuses nothing: a witness whose items are short enough, and few enough, has few enough bytes,
and a run adds none. So an evaluation comes to the same end whatever more memory there is.

* `start_ample`: the admission of a witness, without a memory limit.
* `run_withMemory`: a run does not look at the memory limit.
* `ample_memory_refuses_nothing`: evaluations.
-/

namespace Tapscript

theorem Item.total_le_mul {most : Nat} {xs : List Item} (h : ∀ x ∈ xs, x.size ≤ most) :
    total xs ≤ most * xs.length := by
  induction xs with
  | nil => simp
  | cons x xs ih =>
    have hx : x.size ≤ most := h x List.mem_cons_self
    have hxs : total xs ≤ most * xs.length := ih fun y hy => h y (List.mem_cons_of_mem _ hy)
    rw [total_cons, List.length_cons, Nat.mul_succ]
    omega

namespace Rules

/-- The consensus rules of tapscript. -/
def tapscript : Rules :=
  ⟨maxItemSize, maxStackElements, maxStackMemory, none, Limits.tapscript.stackElements_pos⟩

/-- The rules with another memory limit. -/
def withMemory (rules : Rules) (memory : Nat) : Rules := { rules with stackMemory := memory }

/-- The memory has room for as many items of the largest size as the element limit allows. -/
def HasAmpleMemory (rules : Rules) : Prop :=
  rules.itemSize * (rules.stackElements - 1) ≤ rules.stackMemory

instance (rules : Rules) : Decidable rules.HasAmpleMemory := inferInstanceAs (Decidable (_ ≤ _))

variable {rules : Rules}

theorem HasAmpleMemory.withMemory (h : rules.HasAmpleMemory) {memory : Nat}
    (hle : rules.stackMemory ≤ memory) : (rules.withMemory memory).HasAmpleMemory :=
  Nat.le_trans h hle

/-- A list of items that passes the two other checks passes the check of its bytes. -/
theorem HasAmpleMemory.total_le (h : rules.HasAmpleMemory) {xs : List Item}
    (hsize : ∀ x ∈ xs, x.size ≤ rules.itemSize) (hcount : xs.length < rules.stackElements) :
    Item.total xs ≤ rules.stackMemory := by
  have hlength : xs.length ≤ rules.stackElements - 1 := by omega
  calc
    Item.total xs ≤ rules.itemSize * xs.length := Item.total_le_mul hsize
    _ ≤ rules.itemSize * (rules.stackElements - 1) := Nat.mul_le_mul_left _ hlength
    _ ≤ rules.stackMemory := h

end Rules

/-! ## Refusals for want of memory -/

/-- Texts whose beginnings part at a character are different. -/
theorem append_ne_append {s t : String} {k : Nat} (hs : k < s.toList.length) (ht : k < t.toList.length)
    (hne : s.toList[k]? ≠ t.toList[k]?) (s' t' : String) : s ++ s' ≠ t ++ t' := by
  intro h
  have hchars : (s.toList ++ s'.toList)[k]? = (t.toList ++ t'.toList)[k]? := by
    rw [← String.toList_append, ← String.toList_append, h]
  rw [List.getElem?_append_left hs, List.getElem?_append_left ht] at hchars
  exact hne hchars

/-- Want of memory is reported in other words than want of elements. -/
theorem Refusal.message_tooManyBytes_ne (most adding most' adding' : Int) :
    (tooManyBytes most adding).message ≠ (tooManyItems most' adding').message := by
  delta message
  simp only [String.append_assoc]
  -- The messages part at their seventh character.
  apply append_ne_append (k := 6)
  · decide
  · decide
  · decide

namespace Plain

variable {rules : Rules} {p : Plain} {memory : Nat}

/-! ## Starts and runs -/

theorem start_ample (h : rules.HasAmpleMemory) (witness : List Item) :
    start rules witness =
      match witness.find? fun x => rules.itemSize < x.size with
      | some x => .error (.itemTooLong x.size rules.itemSize)
      | none =>
        if rules.stackElements ≤ witness.length then
          .error (.tooManyItems (rules.stackElements - 1) witness.length)
        else .ok ⟨witness, []⟩ := by
  unfold start
  cases hfind : witness.find? fun x => rules.itemSize < x.size with
  | some x => rfl
  | none =>
    by_cases hcount : rules.stackElements ≤ witness.length
    · simp only [if_pos hcount]
    · have hsize : ∀ x ∈ witness, x.size ≤ rules.itemSize := by
        intro x hx
        simpa using List.find?_eq_none.mp hfind x hx
      have htotal := h.total_le hsize (Nat.lt_of_not_le hcount)
      simp only [if_neg hcount, if_neg (Nat.not_lt.mpr htotal)]

theorem start_withMemory (h : rules.HasAmpleMemory) (hle : rules.stackMemory ≤ memory)
    (witness : List Item) : start (rules.withMemory memory) witness = start rules witness := by
  rw [start_ample h, start_ample (h.withMemory hle)]
  rfl

theorem step_withMemory (rules : Rules) (memory i : Nat) (op : Int) (p : Plain) :
    p.step (rules.withMemory memory) i op = p.step rules i op := rfl

theorem run_withMemory (rules : Rules) (memory i : Nat) (ops : List Int) (p : Plain) :
    p.run (rules.withMemory memory) i ops = p.run rules i ops := by
  induction ops generalizing p i with
  | nil => rfl
  | cons op rest ih =>
    simp only [run, step_withMemory]
    cases p.step rules (i + 1) op with
    | error r => rfl
    | ok q => exact ih (i + 1) q

/-- With ample memory a witness is refused for an item that is too long or for the number of its items. -/
theorem start_error_ample (h : rules.HasAmpleMemory) {witness : List Item} {r : Refusal}
    (hr : start rules witness = .error r) :
    r.kind = .oversize ∨ ∃ most adding, r = .tooManyItems most adding := by
  rw [start_ample h] at hr
  split at hr
  · cases hr
    exact Or.inl rfl
  · split at hr
    · cases hr
      exact Or.inr ⟨_, _, rfl⟩
    · cases hr

/-- Nothing that ends a run, or is judged at its end, is want of room. -/
theorem judged_ne_stackOverflow {i : Nat} {ops : List Int} {r : Refusal}
    (h : (p.run rules i ops).judged = some r) : r.kind ≠ .stackOverflow := by
  unfold Ending.judged at h
  split at h
  · rename_i r' hrefusal
    cases h
    have hkinds := kind_of_refusal hrefusal
    intro hkind
    rw [hkind] at hkinds
    simp at hkinds
  · split at h
    · cases h
    · split at h
      · cases h
        simp [Refusal.kind]
      · cases h
        simp [Refusal.kind]

end Plain

/-! ## Verdicts -/

namespace Verdict

/-- The evaluation failed for want of memory. -/
def IsMemoryFailure (v : Verdict) : Prop :=
  ∃ most adding, v.failure = some (Refusal.tooManyBytes most adding).failure

/-- Two evaluations ended alike: both with the same failure or with none, and both without a machine, or with
machines that hold the same items after as many operations. -/
def EndsLike (a b : Verdict) : Prop :=
  b.failure = a.failure ∧ (a.machine = none ∧ b.machine = none ∨ a.SameEnd b)

end Verdict

theorem Refusal.failure_ne_tooManyBytes {r : Refusal}
    (h : r.kind ≠ .stackOverflow ∨ ∃ most adding, r = .tooManyItems most adding) (most adding : Int) :
    r.failure ≠ (tooManyBytes most adding).failure := by
  intro hsame
  rcases h with hkind | ⟨most', adding', rfl⟩
  · exact hkind (congrArg Failure.kind hsame)
  · exact message_tooManyBytes_ne _ _ _ _ (congrArg Failure.message hsame).symm

namespace Plain

/-- **Ample memory.** The consensus rules have ample memory. Under any rules that have, no evaluation of a
script of numbers against a witness of byte strings fails for want of memory. With more memory it ends alike:
with the same failure and message or with none, with the same items on both stacks, and after as many
operations. -/
theorem ample_memory_refuses_nothing :
    (Rules.tapscript.limits = Limits.tapscript ∧ Rules.tapscript.HasAmpleMemory) ∧
      ∀ rules : Rules, rules.HasAmpleMemory → ∀ (script : List Int) (witness : List Item),
        ∃ a : Verdict,
          (evaluate rules.limits (.list (script.map .int))
            (.list (witness.map fun x => .bytes x.bytes))).outcome = .ok a ∧
          ¬ a.IsMemoryFailure ∧
          ∀ memory, rules.stackMemory ≤ memory → ∃ b : Verdict,
            (evaluate (rules.withMemory memory).limits (.list (script.map .int))
              (.list (witness.map fun x => .bytes x.bytes))).outcome = .ok b ∧
            a.EndsLike b := by
  refine ⟨⟨rfl, by decide⟩, ?_⟩
  intro rules hample script witness
  cases hstart : start rules witness with
  | error r =>
    refine ⟨_, evaluate_refused hstart script, ?_, ?_⟩
    · rintro ⟨most, adding, hfailure⟩
      have hkind : r.kind ≠ .stackOverflow ∨ ∃ most adding, r = .tooManyItems most adding :=
        (start_error_ample hample hstart).imp_left fun hsize => by simp [hsize]
      exact Refusal.failure_ne_tooManyBytes hkind most adding (Option.some.inj hfailure)
    · intro memory hle
      have hmore : start (rules.withMemory memory) witness = .error r := by
        rw [start_withMemory hample hle, hstart]
      exact ⟨_, evaluate_refused hmore script, rfl, Or.inl ⟨rfl, rfl⟩⟩
  | ok p =>
    refine ⟨_, evaluate_started hstart script, ?_, ?_⟩
    · rintro ⟨most, adding, hfailure⟩
      obtain ⟨r, hjudged, hsame⟩ := Option.map_eq_some_iff.mp hfailure
      exact Refusal.failure_ne_tooManyBytes (Or.inl (judged_ne_stackOverflow hjudged)) most adding hsame
    · intro memory hle
      have hmore : start (rules.withMemory memory) witness = .ok p := by
        rw [start_withMemory hample hle, hstart]
      refine ⟨_, evaluate_started hmore script, ?_⟩
      rw [run_withMemory]
      exact ⟨rfl, Or.inr ⟨_, _, rfl, rfl, rfl, rfl, rfl, rfl⟩⟩

/-- Two items of two bytes fill a memory of four, which is ample for them and is not when it is three. With
four bytes, and with a thousand, a script that joins the items is refused for the size of an item. -/
theorem ample_memory_for_two_items :
    let rules : Rules := ⟨2, 3, 4, none, by decide⟩
    let witness : List Item := [⟨#[1, 2]⟩, ⟨#[3, 4]⟩]
    let script : List Int := [0x6b, 0x6c, 0x7e]
    rules.HasAmpleMemory ∧ ¬ (rules.withMemory 3).HasAmpleMemory ∧
      start (rules.withMemory 3) witness = .error (.tooManyBytes 3 4) ∧
      ∃ a b : Verdict,
        (evaluate rules.limits (.list (script.map .int))
          (.list (witness.map fun x => .bytes x.bytes))).outcome = .ok a ∧
        (evaluate (rules.withMemory 1000).limits (.list (script.map .int))
          (.list (witness.map fun x => .bytes x.bytes))).outcome = .ok b ∧
        a.failure = some (Refusal.joinTooLong 4 2).failure ∧ ¬ a.IsMemoryFailure ∧ a.EndsLike b := by
  intro rules witness script
  have hample : rules.HasAmpleMemory := by decide
  obtain ⟨a, ha, hmemory, hmore⟩ := ample_memory_refuses_nothing.2 rules hample script witness
  obtain ⟨b, hb, hlike⟩ := hmore 1000 (by decide)
  have hstart : start rules witness = .ok ⟨witness, []⟩ := rfl
  have hjudged : (run rules 0 script ⟨witness, []⟩).judged = some (.joinTooLong 4 2) := by decide
  have hfailure : a.failure = some (Refusal.joinTooLong 4 2).failure := by
    rw [evaluate_started hstart, hjudged] at ha
    cases ha
    rfl
  exact ⟨hample, by decide, rfl, a, b, ha, hb, hfailure, hmemory, hlike⟩

end Plain

end Tapscript
