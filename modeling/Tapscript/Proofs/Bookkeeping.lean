import Tapscript.Proofs.Mirroring

/-!
# The bookkeeping of a family tree

The items of a family lie on stacks that hang together by their parents, and the totals are kept on the
root alone. Whatever is done to the store, the totals of a root are the sums over all stacks that climb to
it: a call moves them at the root, by what it changes on the stack.

* `Accounted`: the totals of a root are the sums over its tree, within its bounds.
* `accounted_history`: every history keeps a root accounted for.
* `accounts_of_tree`: the bookkeeping of a family, from the planting of its root on.
-/

namespace Tapscript.Store

variable {w : Store} {count bytes i r : Nat}

/-- A root with the bounds `count` and `bytes` whose family is balanced. -/
structure Accounted (count bytes r : Nat) (w : Store) : Prop where
  root : w.IsRoot r
  balanced : (w.family r).Balanced count bytes

theorem accounted_planted (w : Store) (count bytes : Nat) :
    (w.planted ⟨some (count : Int), some (bytes : Int)⟩).Accounted count bytes w.nodes.length where
  root := isRoot_planted w _
  balanced := by
    rw [family_planted]
    exact Family.balanced_ofBounds count bytes

theorem accounted_history (h : w.Accounted count bytes r) (deeds : List Deed) :
    (w.history deeds).Accounted count bytes r := by
  obtain ⟨hroot, hbalanced⟩ := family_history (P := Family.Balanced count bytes)
    (fun k c f hf => (Family.balanced_safe k c).after hf) h.root h.balanced deeds
  exact ⟨hroot, hbalanced⟩

namespace Accounted

theorem held (h : w.Accounted count bytes r) :
    w.heldAt r = ⟨some (w.sum r List.length : Int), some (w.sum r Item.total : Int)⟩ := by
  rw [← sum_family h.root, ← sum_family h.root]
  exact h.balanced.held

theorem count_le (h : w.Accounted count bytes r) : w.sum r List.length ≤ count := by
  rw [← sum_family h.root]
  exact h.balanced.count_le

theorem bytes_le (h : w.Accounted count bytes r) : w.sum r Item.total ≤ bytes := by
  rw [← sum_family h.root]
  exact h.balanced.bytes_le

theorem size (h : w.Accounted count bytes r) (hi : i ∈ w.kin r) :
    (w.stackAt i).size = some (Item.total (w.stackAt i).items : Int) := by
  obtain ⟨k, hk⟩ := List.mem_iff_getElem?.mp hi
  exact h.balanced.truthful.size_eq (member_family hk)

theorem audit (h : w.Accounted count bytes r) (hi : i ∈ w.kin r) : Store.audit i w = .ok () w := by
  obtain ⟨k, hk⟩ := List.mem_iff_getElem?.mp hi
  rw [audit_apply hi, Family.audit_balanced h.balanced (member_family hk), Action.check_ok]

/-- No call finds a total that has become negative. -/
theorem outcome_ne_broken (h : w.Accounted count bytes r) (hi : i ∈ w.kin r) (c : Family.Call) :
    (perform i c).outcome w ≠ .error .broken := by
  obtain ⟨k, hk⟩ := List.mem_iff_getElem?.mp hi
  rw [(call_mirrors_family hk c).1]
  intro hbroken
  unfold Action.outcome at hbroken
  split at hbroken
  · cases hbroken
  · rename_i e f' he
    cases hbroken
    exact (Family.balanced_safe k c).fault h.balanced he rfl

end Accounted

/-- **Bookkeeping of a family tree.** Plant a root in any store, and then make any calls on any stacks,
and plant other roots, in any order. The totals on the root are the sums over all stacks that climb to it,
and both are within the bounds it was planted with. The size of each of these stacks is the bytes of its
own items, its bookkeeping passes its check, and no further call on it finds a negative total. A child
made of it has it as parent, and belongs to the family like the others. -/
theorem accounts_of_tree (w₀ : Store) (count bytes : Nat) (deeds : List Deed) :
    let r := w₀.nodes.length
    let w := (w₀.planted ⟨some (count : Int), some (bytes : Int)⟩).history deeds
    (∃ root, w.nodes[r]? = some root ∧ root.parent = none ∧
        root.stack.bounds = ⟨some (count : Int), some (bytes : Int)⟩ ∧
        root.held = ⟨some (w.sum r List.length : Int), some (w.sum r Item.total : Int)⟩) ∧
      w.sum r List.length ≤ count ∧ w.sum r Item.total ≤ bytes ∧
      ∀ i, i < w.nodes.length → w.rootOf i = r →
        (∃ n, w.nodes[i]? = some n ∧ n.stack.size = some (Item.total n.stack.items : Int)) ∧
          audit i w = .ok () w ∧ (∀ c, (perform i c).outcome w ≠ .error .broken) ∧
          ∃ w', perform i .child w = .ok (.bounds Family.childBounds) w' ∧
            w'.parentOf w.nodes.length = some i ∧ w'.kin r = w.kin r ++ [w.nodes.length] := by
  intro r w
  have h : w.Accounted count bytes r := accounted_history (accounted_planted w₀ count bytes) deeds
  refine ⟨⟨w.nodeAt r, getElem?_nodes h.root.lt, ?_, h.balanced.bounds, h.held⟩, h.count_le, h.bytes_le,
    ?_⟩
  · rw [← parentOf_eq]
    exact h.root.parent
  · intro i hlt hroot
    have hi : i ∈ w.kin r := mem_kin.mpr ⟨hlt, hroot⟩
    refine ⟨⟨w.nodeAt i, getElem?_nodes hlt, h.size hi⟩, h.audit hi, h.outcome_ne_broken hi,
      w.withChild i hlt, perform_child hlt, parentOf_withChild hlt, ?_⟩
    rw [← hroot]
    exact kin_withChild hlt

end Tapscript.Store
