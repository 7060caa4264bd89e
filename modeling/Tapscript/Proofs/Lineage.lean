import Mathlib.Data.List.Nodup
import Tapscript.Proofs.Balance
import Tapscript.Store

/-!
# The families of a store

A stack belongs to the family of the root it climbs to. The climb goes from a number to a smaller one, so
it ends, and the proofs about it go by strong induction on the number. Where the climb ends depends on
the parents alone (`rootOf_congr`), so whatever leaves the parents alone leaves the families together.

* `rootOf_le`, `parentOf_rootOf`, `rootOf_rootOf`: the climb ends at a root, below the stack.
* `Store.family`: the stacks that climb to a root, as a family; the root is its first member.
* `kin_withChild`, `family_withChild`: a child joins the family of its parent, however deep the parent
  lies.
* `kin_planted_other`, `family_planted`, `family_withChild_other`: no other family changes.
-/

namespace Tapscript.Store

variable {w v : Store} {i j k p r : Nat}

/-! ## The climb to the root -/

theorem rootOf_of_none (h : w.parentOf i = none) : w.rootOf i = i := by
  rw [rootOf]
  split
  · rfl
  · rename_i hp
    rw [h] at hp
    cases hp

theorem rootOf_of_some (h : w.parentOf i = some p) : w.rootOf i = w.rootOf p := by
  rw [rootOf]
  split
  · rename_i hp
    rw [h] at hp
    cases hp
  · rename_i hp
    rw [h] at hp
    cases hp
    rfl

theorem rootOf_le (w : Store) (i : Nat) : w.rootOf i ≤ i := by
  induction i using Nat.strongRecOn with
  | ind i ih =>
    cases h : w.parentOf i with
    | none => exact Nat.le_of_eq (rootOf_of_none h)
    | some p =>
      have hp := w.parent_lt i p h
      rw [rootOf_of_some h]
      exact Nat.le_trans (ih p hp) (Nat.le_of_lt hp)

theorem parentOf_rootOf (w : Store) (i : Nat) : w.parentOf (w.rootOf i) = none := by
  induction i using Nat.strongRecOn with
  | ind i ih =>
    cases h : w.parentOf i with
    | none => rwa [rootOf_of_none h]
    | some p =>
      rw [rootOf_of_some h]
      exact ih p (w.parent_lt i p h)

theorem rootOf_rootOf (w : Store) (i : Nat) : w.rootOf (w.rootOf i) = w.rootOf i :=
  rootOf_of_none (w.parentOf_rootOf i)

/-- The climb follows the parents and nothing else. -/
theorem rootOf_congr (h : ∀ j, v.parentOf j = w.parentOf j) (i : Nat) : v.rootOf i = w.rootOf i := by
  induction i using Nat.strongRecOn with
  | ind i ih =>
    cases hp : w.parentOf i with
    | none => rw [rootOf_of_none hp, rootOf_of_none ((h i).trans hp)]
    | some p =>
      rw [rootOf_of_some hp, rootOf_of_some ((h i).trans hp)]
      exact ih p (w.parent_lt i p hp)

/-! ## Families -/

structure IsRoot (w : Store) (r : Nat) : Prop where
  lt : r < w.nodes.length
  parent : w.parentOf r = none

/-- The stack with a number, and an empty one where there is none. -/
def nodeAt (w : Store) (i : Nat) : Node := w.nodes[i]?.getD { stack := { bounds := {} } }

def stackAt (w : Store) (i : Nat) : Stack := (w.nodeAt i).stack

def heldAt (w : Store) (i : Nat) : Tally := (w.nodeAt i).held

/-- The stacks that climb to `r`, in the order of their numbers. -/
def kin (w : Store) (r : Nat) : List Nat := (List.range w.nodes.length).filter (w.rootOf · = r)

/-- The stacks that climb to `r`, as a family. -/
def family (w : Store) (r : Nat) : Family where
  root := w.stackAt r
  children := (w.kin r).tail.map w.stackAt
  held := w.heldAt r

/-- A measure of the items of a stack, summed over the stacks that climb to `r`. -/
def sum (w : Store) (r : Nat) (measure : List Item → Nat) : Nat :=
  (w.kin r).foldr (fun i n => measure (w.stackAt i).items + n) 0

theorem getElem?_nodes (h : i < w.nodes.length) : w.nodes[i]? = some (w.nodeAt i) := by
  rw [nodeAt, List.getElem?_eq_getElem h, Option.getD_some]

theorem map_nodeAt (w : Store) : (List.range w.nodes.length).map w.nodeAt = w.nodes := by
  apply List.ext_getElem?
  intro i
  rw [List.getElem?_map]
  by_cases hi : i < w.nodes.length
  · rw [List.getElem?_range hi, getElem?_nodes hi]
    rfl
  · rw [List.getElem?_eq_none (Nat.le_of_not_lt hi),
      List.getElem?_eq_none (List.length_range ▸ Nat.le_of_not_lt hi)]
    rfl

theorem parentOf_eq (w : Store) (i : Nat) : w.parentOf i = (w.nodeAt i).parent := by
  unfold parentOf nodeAt
  cases w.nodes[i]? <;> rfl

theorem mem_kin : i ∈ w.kin r ↔ i < w.nodes.length ∧ w.rootOf i = r := by
  simp [kin]

theorem nodup_kin (w : Store) (r : Nat) : (w.kin r).Nodup := List.nodup_range.filter _

theorem idxOf_kin (h : (w.kin r)[k]? = some i) : (w.kin r).idxOf i = k := by
  obtain ⟨hk, rfl⟩ := List.getElem?_eq_some_iff.mp h
  exact (nodup_kin w r).idxOf_getElem k hk

theorem lt_of_getElem?_kin (h : (w.kin r)[k]? = some i) : i < w.nodes.length :=
  (mem_kin.mp (List.mem_of_getElem? h)).1

theorem isRoot_rootOf (h : i < w.nodes.length) : w.IsRoot (w.rootOf i) :=
  ⟨Nat.lt_of_le_of_lt (w.rootOf_le i) h, w.parentOf_rootOf i⟩

theorem isRoot_of_mem (h : i ∈ w.kin r) : w.IsRoot r := by
  obtain ⟨hi, rfl⟩ := mem_kin.mp h
  exact isRoot_rootOf hi

theorem root_mem_kin (h : w.IsRoot r) : r ∈ w.kin r := mem_kin.mpr ⟨h.lt, rootOf_of_none h.parent⟩

/-- Whatever climbs to a root of the store is a stack of the store. -/
theorem mem_kin_of_rootOf (hr : w.IsRoot r) (h : w.rootOf i = r) : i ∈ w.kin r := by
  refine mem_kin.mpr ⟨?_, h⟩
  by_contra hi
  have hparent : w.parentOf i = none := by
    rw [parentOf, List.getElem?_eq_none (Nat.le_of_not_lt hi)]
    rfl
  rw [rootOf_of_none hparent] at h
  exact hi (h ▸ hr.lt)

/-- A parent belongs to the family of its child. -/
theorem parent_mem_kin (hi : i ∈ w.kin r) (hp : w.parentOf i = some p) : p ∈ w.kin r := by
  obtain ⟨hlt, hroot⟩ := mem_kin.mp hi
  rw [rootOf_of_some hp] at hroot
  exact mem_kin.mpr ⟨Nat.lt_trans (w.parent_lt i p hp) hlt, hroot⟩

/-- A root has the smallest number in its family. -/
theorem kin_eq_cons (h : w.IsRoot r) : w.kin r = r :: (w.kin r).tail := by
  have hfirst : (w.kin r).head? = some r := by
    rw [kin, List.head?_filter, List.find?_range_eq_some]
    refine ⟨decide_eq_true (rootOf_of_none h.parent), List.mem_range.mpr h.lt, ?_⟩
    intro j hj
    have hle := w.rootOf_le j
    simp only [Bool.not_eq_eq_eq_not, Bool.not_true, decide_eq_false_iff_not]
    omega
  obtain ⟨rest, hrest⟩ := List.head?_eq_some_iff.mp hfirst
  rw [hrest, List.tail_cons]

theorem getElem?_kin_zero (h : w.IsRoot r) : (w.kin r)[0]? = some r := by
  rw [kin_eq_cons h]
  rfl

theorem members_family (h : w.IsRoot r) : (w.family r).members = (w.kin r).map w.stackAt := by
  rw [kin_eq_cons h, List.map_cons]
  rfl

theorem member_family (h : (w.kin r)[k]? = some i) : (w.family r).members[k]? = some (w.stackAt i) := by
  rw [members_family (isRoot_of_mem (List.mem_of_getElem? h)), List.getElem?_map, h]
  rfl

theorem sum_family (h : w.IsRoot r) (measure : List Item → Nat) :
    (w.family r).sum measure = w.sum r measure := by
  rw [Family.sum, members_family h, List.foldr_map, sum]

/-- A family is known by the stacks that belong to it and by what they are. -/
theorem family_congr (h : w.IsRoot r) (hkin : v.kin r = w.kin r)
    (hnode : ∀ i ∈ w.kin r, v.nodeAt i = w.nodeAt i) : v.family r = w.family r := by
  have hstack : ∀ i ∈ w.kin r, v.stackAt i = w.stackAt i := by
    intro i hi
    rw [stackAt, stackAt, hnode i hi]
  have hroot := root_mem_kin h
  unfold family
  rw [hstack r hroot, heldAt, heldAt, hnode r hroot, hkin,
    List.map_congr_left fun i hi => hstack i (List.mem_of_mem_tail hi)]

/-- Whatever leaves the parents alone leaves the families together. -/
theorem kin_congr (hp : ∀ j, v.parentOf j = w.parentOf j) (hl : v.nodes.length = w.nodes.length)
    (r : Nat) : v.kin r = w.kin r := by
  unfold kin
  rw [hl]
  exact List.filter_congr fun i _ => by rw [rootOf_congr hp]

/-! ## One more stack -/

section Add

variable {n : Node} {h : ∀ p, n.parent = some p → p < w.nodes.length}

theorem length_add : (w.add n h).nodes.length = w.nodes.length + 1 := List.length_append

theorem nodeAt_add_self : (w.add n h).nodeAt w.nodes.length = n := by
  rw [nodeAt, add, List.getElem?_concat_length, Option.getD_some]

theorem nodeAt_add (hj : j < w.nodes.length) : (w.add n h).nodeAt j = w.nodeAt j := by
  rw [nodeAt, add, List.getElem?_append_left hj, nodeAt]

/-- A stack climbs to where it climbed before the new one was made. -/
theorem rootOf_add (hj : j < w.nodes.length) : (w.add n h).rootOf j = w.rootOf j := by
  induction j using Nat.strongRecOn with
  | ind j ih =>
    have hparent : (w.add n h).parentOf j = w.parentOf j := by
      rw [parentOf_eq, nodeAt_add hj, parentOf_eq]
    cases hp : w.parentOf j with
    | none => rw [rootOf_of_none hp, rootOf_of_none (hparent.trans hp)]
    | some p =>
      have hlt := w.parent_lt j p hp
      rw [rootOf_of_some hp, rootOf_of_some (hparent.trans hp)]
      exact ih p hlt (Nat.lt_trans hlt hj)

theorem kin_add (r : Nat) :
    (w.add n h).kin r =
      w.kin r ++ if (w.add n h).rootOf w.nodes.length = r then [w.nodes.length] else [] := by
  unfold kin
  rw [length_add, List.range_succ, List.filter_append]
  congr 1
  · apply List.filter_congr
    intro j hj
    rw [rootOf_add (List.mem_range.mp hj)]
  · simp only [List.filter_cons, List.filter_nil, decide_eq_true_eq]

theorem kin_add_joined (hroot : (w.add n h).rootOf w.nodes.length = r) :
    (w.add n h).kin r = w.kin r ++ [w.nodes.length] := by
  rw [kin_add, if_pos hroot]

theorem kin_add_other (hroot : (w.add n h).rootOf w.nodes.length ≠ r) :
    (w.add n h).kin r = w.kin r := by
  rw [kin_add, if_neg hroot, List.append_nil]

theorem isRoot_add (hr : w.IsRoot r) : (w.add n h).IsRoot r where
  lt := by
    rw [length_add]
    exact Nat.lt_succ_of_lt hr.lt
  parent := by
    rw [parentOf_eq, nodeAt_add hr.lt, ← parentOf_eq]
    exact hr.parent

/-- The families to which the new stack does not climb do not change. -/
theorem family_add (hr : w.IsRoot r) (hroot : (w.add n h).rootOf w.nodes.length ≠ r) :
    (w.add n h).family r = w.family r :=
  family_congr hr (kin_add_other hroot) fun _ hi => nodeAt_add (mem_kin.mp hi).1

end Add

/-! ## New roots and new children -/

theorem nodeAt_planted (w : Store) (bounds : Bounds) :
    (w.planted bounds).nodeAt w.nodes.length = { stack := { bounds } } := nodeAt_add_self

theorem nodeAt_planted_other (bounds : Bounds) (hi : i < w.nodes.length) :
    (w.planted bounds).nodeAt i = w.nodeAt i := nodeAt_add hi

theorem rootOf_planted (w : Store) (bounds : Bounds) :
    (w.planted bounds).rootOf w.nodes.length = w.nodes.length := by
  apply rootOf_of_none
  rw [parentOf_eq, nodeAt_planted]

theorem kin_self_eq_nil (w : Store) : w.kin w.nodes.length = [] := by
  rw [List.eq_nil_iff_forall_not_mem]
  intro i hi
  obtain ⟨hlt, hroot⟩ := mem_kin.mp hi
  have hle := w.rootOf_le i
  omega

theorem kin_planted (w : Store) (bounds : Bounds) :
    (w.planted bounds).kin w.nodes.length = [w.nodes.length] := by
  have hkin : (w.planted bounds).kin w.nodes.length = w.kin w.nodes.length ++ [w.nodes.length] :=
    kin_add_joined (w.rootOf_planted bounds)
  rw [hkin, kin_self_eq_nil, List.nil_append]

theorem isRoot_planted (w : Store) (bounds : Bounds) :
    (w.planted bounds).IsRoot w.nodes.length where
  lt := by
    rw [planted, length_add]
    exact Nat.lt_succ_self _
  parent := by rw [parentOf_eq, nodeAt_planted]

theorem family_planted (w : Store) (bounds : Bounds) :
    (w.planted bounds).family w.nodes.length = Family.ofBounds bounds := by
  unfold family
  rw [kin_planted, stackAt, heldAt, nodeAt_planted]
  rfl

theorem isRoot_planted_other (bounds : Bounds) (hr : w.IsRoot r) :
    (w.planted bounds).IsRoot r := isRoot_add hr

theorem rootOf_planted_ne (bounds : Bounds) (hr : w.IsRoot r) :
    (w.planted bounds).rootOf w.nodes.length ≠ r := by
  rw [rootOf_planted]
  exact Nat.ne_of_gt hr.lt

theorem kin_planted_other (bounds : Bounds) (hr : w.IsRoot r) :
    (w.planted bounds).kin r = w.kin r := kin_add_other (rootOf_planted_ne bounds hr)

theorem family_planted_other (bounds : Bounds) (hr : w.IsRoot r) :
    (w.planted bounds).family r = w.family r := family_add hr (rootOf_planted_ne bounds hr)

theorem makeChild_apply (hi : i < w.nodes.length) :
    makeChild i w = .ok { bounds := Family.childBounds } (w.withChild i hi) := dif_pos hi

theorem nodeAt_withChild (hi : i < w.nodes.length) :
    (w.withChild i hi).nodeAt w.nodes.length =
      { parent := some i, stack := { bounds := Family.childBounds } } := nodeAt_add_self

theorem parentOf_withChild (hi : i < w.nodes.length) :
    (w.withChild i hi).parentOf w.nodes.length = some i := by
  rw [parentOf_eq, nodeAt_withChild]

/-- A child climbs to where its parent climbs. -/
theorem rootOf_withChild (hi : i < w.nodes.length) :
    (w.withChild i hi).rootOf w.nodes.length = w.rootOf i := by
  rw [rootOf_of_some (parentOf_withChild hi)]
  exact rootOf_add hi

theorem rootOf_withChild_ne (hi : i < w.nodes.length) (hne : w.rootOf i ≠ r) :
    (w.withChild i hi).rootOf w.nodes.length ≠ r := by
  rw [rootOf_withChild hi]
  exact hne

theorem kin_withChild (hi : i < w.nodes.length) :
    (w.withChild i hi).kin (w.rootOf i) = w.kin (w.rootOf i) ++ [w.nodes.length] :=
  kin_add_joined (rootOf_withChild hi)

theorem kin_withChild_other (hi : i < w.nodes.length) (hne : w.rootOf i ≠ r) :
    (w.withChild i hi).kin r = w.kin r := kin_add_other (rootOf_withChild_ne hi hne)

theorem family_withChild (hi : i < w.nodes.length) :
    (w.withChild i hi).family (w.rootOf i) = (w.family (w.rootOf i)).grown := by
  have hroot := isRoot_rootOf hi
  have hroot' : (w.withChild i hi).IsRoot (w.rootOf i) := isRoot_add hroot
  have hnode : ∀ j, j < w.nodes.length → (w.withChild i hi).nodeAt j = w.nodeAt j :=
    fun j hj => nodeAt_add hj
  apply Family.ext_members
  · rw [members_family hroot', kin_withChild, List.map_append, Family.members_grown,
      members_family hroot, List.map_singleton, stackAt, nodeAt_withChild]
    congr 1
    apply List.map_congr_left
    intro j hj
    rw [stackAt, hnode j (mem_kin.mp hj).1, stackAt]
  · exact congrArg Node.held (hnode _ hroot.lt)

theorem family_withChild_other (hi : i < w.nodes.length) (hr : w.IsRoot r) (hne : w.rootOf i ≠ r) :
    (w.withChild i hi).family r = w.family r := family_add hr (rootOf_withChild_ne hi hne)

end Tapscript.Store
