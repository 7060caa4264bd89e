import Tapscript.Proofs.Batches

/-!
# Clearing a stack

Clearing takes one item after another, and each of them is taken off the totals of the family and off the
size of its stack. In the end the room the items had is free again, to the item and to the byte, so the same
items can be put back at once, and the family is then what it was.

* `clear_truthful`: what clearing comes to, by the loop that takes the items.
* `held_clear`: the totals that are left.
* `extend_after_clear`: the items go back on, whatever their length.
* `clear_undone_by_extend`: the members of a family after any history of calls.
-/

namespace Tapscript.Family

variable {count bytes : Nat} {f : Family} {i : Nat} {s : Stack}

theorem clear_truthful (h : f.Truthful) (hs : f.members[i]? = some s) :
    clear i f = .ok () (f.refill i []) := by
  have hmember : member i f = .ok s f := by rw [member_apply, hs]
  have hpops := popMany_truthful s.depth h hs (Nat.le_refl _)
  have hempty : s.items.drop s.depth = [] := List.drop_length
  rw [hempty] at hpops
  exact (Action.bind_apply_ok hmember _).trans hpops

theorem itemCount_clear (hs : f.members[i]? = some s) :
    (f.refill i []).itemCount + s.depth = f.itemCount := itemCount_refill hs []

theorem itemBytes_clear (hs : f.members[i]? = some s) :
    (f.refill i []).itemBytes + Item.total s.items = f.itemBytes := itemBytes_refill hs []

/-- The totals go down by the items of the member and by their bytes. -/
theorem held_clear (h : f.Truthful) (hs : f.members[i]? = some s) :
    ∃ c b : Int, f.held = ⟨some c, some b⟩ ∧
      (f.refill i []).held = ⟨some (c - s.depth), some (b - Item.total s.items)⟩ := by
  have hcount := itemCount_clear hs
  have hbytes := itemBytes_clear hs
  have hc : ((f.refill i []).itemCount : Int) = f.itemCount - s.depth := by omega
  have hb : ((f.refill i []).itemBytes : Int) = f.itemBytes - Item.total s.items := by omega
  refine ⟨_, _, h.held, ?_⟩
  rw [held_refill, hc, hb]

/-- The room that clearing a member frees is the room its items need, so they fit again. -/
theorem extend_after_clear (h : f.Balanced count bytes) (hs : f.members[i]? = some s) {v : Value}
    (hv : v.elements = .ok (s.bottomUp.map .item)) : extend i v (f.refill i []) = .ok () f := by
  have hcleared : (f.refill i []).Balanced count bytes :=
    balanced_refill_of_le h hs (Nat.zero_le _) (Nat.zero_le _)
  have hitems : (s.bottomUp.map Value.item).map Value.heldItem = s.bottomUp := by
    simp [Function.comp_def]
  rw [extend_ok_iff hcleared (member_refill_self hs []) hv, hitems]
  refine ⟨⟨?_, ?_, ?_⟩, ?_⟩
  · simp [List.findSome?_eq_none_iff]
  · have hcount := itemCount_clear hs
    have hle := h.count_le
    rw [List.length_map, Stack.bottomUp, List.length_reverse]
    rw [Stack.depth] at hcount
    omega
  · have hbytes := itemBytes_clear hs
    have hle := h.bytes_le
    rw [hitems, Stack.bottomUp, Item.total_reverse]
    omega
  · rw [refill_refill, Stack.items_holding, Stack.bottomUp, List.reverse_reverse, List.append_nil,
      refill_self h.held (h.truthful.size_eq hs) hs]

/-- **Clearing and its undoing.** Clear a member of a family after any history of calls. That never stops. It
leaves the member empty, with size zero, and all other members as they were; the totals of the family go down
by the items of the member and by their bytes. Extend the member by the items it had, which may be longer than
any value is admitted: that never stops either, and the family is what it was. -/
theorem clear_undone_by_extend (count bytes : Nat) (calls : List (Nat × Call)) {i : Nat} {s : Stack}
    (hs : ((ofBounds ⟨some (count : Int), some (bytes : Int)⟩).history calls).members[i]? = some s) :
    let f := (ofBounds ⟨some (count : Int), some (bytes : Int)⟩).history calls
    ∃ f', clear i f = .ok () f' ∧
      f'.members[i]? = some { s with items := [], size := some 0 } ∧
      (∀ j, j ≠ i → f'.members[j]? = f.members[j]?) ∧
      (∃ c b : Int, f.held = ⟨some c, some b⟩ ∧
        f'.held = ⟨some (c - s.depth), some (b - Item.total s.items)⟩) ∧
      ∀ v : Value, v.elements = .ok (s.bottomUp.map .item) → extend i v f' = .ok () f := by
  intro f
  have hf : f.Balanced count bytes := balanced_history calls (balanced_ofBounds count bytes)
  refine ⟨f.refill i [], clear_truthful hf.truthful hs, member_refill_self hs [], ?_,
    held_clear hf.truthful hs, ?_⟩
  · intro j hj
    exact member_refill_other f hj.symm []
  · intro v hv
    exact extend_after_clear hf hs hv

/-- A child of a child that fills its family, both by its items and by their bytes. -/
theorem clear_undone_for_full_grandchild :
    let calls : List (Nat × Call) :=
      [(0, .child), (1, .child), (0, .push (.bytes #[1])),
        (2, .extend (.list [.item ⟨#[2, 3, 4]⟩, .bytes #[5, 6]]))]
    let f := (ofBounds ⟨some 3, some 6⟩).history calls
    f.held = ⟨some 3, some 6⟩ ∧
      ∃ f', clear 2 f = .ok () f' ∧ f'.held = ⟨some 1, some 1⟩ ∧ f'.root = f.root ∧
        extend 2 (.tuple [.item ⟨#[2, 3, 4]⟩, .item ⟨#[5, 6]⟩]) f' = .ok () f := by
  intro calls f
  have hgrandchild : f.members[2]? =
      some { bounds := childBounds, size := some 5, items := [⟨#[5, 6]⟩, ⟨#[2, 3, 4]⟩] } := rfl
  obtain ⟨f', hclear, -, hothers, ⟨c, b, hbefore, hafter⟩, hextend⟩ :=
    clear_undone_by_extend 3 6 calls hgrandchild
  have hheld : f.held = ⟨some 3, some 6⟩ := rfl
  have hroot : f'.root = f.root := Option.some.inj (hothers 0 (by decide))
  refine ⟨hheld, f', hclear, ?_, hroot, hextend _ rfl⟩
  cases hheld.symm.trans hbefore
  exact hafter

end Tapscript.Family
