import Tapscript.Forest
import Tapscript.Proofs.Mirroring

/-!
# The forest of a store

A forest lists the families one by one, and knows for each stack the family and the place in it. That is
how a store looks when every stack has climbed to its root (`Store.forest`). What is done to the store
has the same outcomes on its forest, and leaves the forest of what it leaves of the store; and the root
that a forest names for a stack is the one that the stack climbs to.

* `perform_call_child`, `perform_call`: a call on a forest, by the call on the family of the stack.
* `addresses_add`, `families_within`: how the forest of a store changes with the store.
* `deed_forest`, `history_forest`: deeds on a store and on its forest.
* `check_forest`, `root_forest`: the check of a stack, and its root.
-/

namespace Tapscript

/-! ## Calls on a forest -/

namespace Forest

def address? (w : Forest) (number : Int) : Option Address :=
  (position? w.addresses.length number).bind (w.addresses[·]?)

def stack? (w : Forest) (a : Address) : Option Stack :=
  w.families[a.family]?.bind (·.members[a.member]?)

variable {w : Forest} {number : Int} {a : Address} {f : Family} {c : Family.Call}

theorem locate_apply (number : Int) (w : Forest) :
    locate number w =
      match w.address? number with
      | some a => .ok a w
      | none => .error .outOfRange w := rfl

theorem perform_call_none (h : w.address? number = none) (c : Family.Call) :
    perform number (.call c) w = .error .outOfRange w := by
  have hlocate : locate number w = .error .outOfRange w := by rw [locate_apply, h]
  exact Action.bind_apply_error hlocate _

theorem perform_call_child (ha : w.address? number = some a) (hf : w.families[a.family]? = some f)
    (hm : a.member < f.members.length) :
    perform number (.call .child) w =
      .ok (.bounds Family.childBounds)
        ⟨w.families.set a.family f.grown, w.addresses ++ [⟨a.family, f.members.length⟩]⟩ := by
  have hlocate : locate number w = .ok a w := by rw [locate_apply, ha]
  have hfamily : onFamily a.family (Family.perform a.member .child) w =
      .ok (.bounds Family.childBounds) { w with families := w.families.set a.family f.grown } := by
    simp only [onFamily, hf, Family.perform_child hm]
  have hk : a.family < w.families.length := (List.getElem?_eq_some_iff.mp hf).1
  -- The new stack is the last member of the family as it is now.
  have hlast : ((w.families.set a.family f.grown)[a.family]?.map (·.members.length)).getD 0 - 1 =
      f.members.length := by
    simp [hk, Family.members_grown]
  refine (Action.bind_apply_ok hlocate _).trans ((Action.bind_apply_ok hfamily _).trans ?_)
  simp only [Action.modify_bind_apply, hlast]
  rfl

theorem perform_call (ha : w.address? number = some a) (hc : c ≠ .child) :
    perform number (.call c) w = onFamily a.family (Family.perform a.member c) w := by
  have hlocate : locate number w = .ok a w := by rw [locate_apply, ha]
  refine (Action.bind_apply_ok hlocate _).trans ((Action.bind_apply _ _ _).trans ?_)
  cases onFamily a.family (Family.perform a.member c) w with
  | error e w' => rfl
  | ok reply w' =>
    cases c with
    | child => exact absurd rfl hc
    | _ => rfl

end Forest

/-! ## The forest of a store -/

namespace Store

variable {w w' : Store} {i j r : Nat}

def roots (w : Store) : List Nat :=
  (List.range w.nodes.length).filter fun i => (w.parentOf i).isNone

/-- Where a stack stands in the forest: its root among the roots, and the stack among those that climb
there. -/
def address (w : Store) (i : Nat) : Address :=
  ⟨w.roots.idxOf (w.rootOf i), (w.kin (w.rootOf i)).idxOf i⟩

def forest (w : Store) : Forest where
  families := w.roots.map w.family
  addresses := (List.range w.nodes.length).map w.address

theorem families_forest (w : Store) : w.forest.families = w.roots.map w.family := rfl

theorem addresses_forest (w : Store) :
    w.forest.addresses = (List.range w.nodes.length).map w.address := rfl

theorem mem_roots : r ∈ w.roots ↔ w.IsRoot r := by
  rw [roots, List.mem_filter, List.mem_range, Option.isNone_iff_eq_none]
  exact ⟨fun h => ⟨h.1, h.2⟩, fun h => ⟨h.lt, h.parent⟩⟩

theorem nodup_roots (w : Store) : w.roots.Nodup := List.nodup_range.filter _

theorem rootOf_mem_roots (hi : i < w.nodes.length) : w.rootOf i ∈ w.roots :=
  mem_roots.mpr (isRoot_rootOf hi)

theorem position?_natCast (n i : Nat) : position? n (i : Int) = if i < n then some i else none := by
  unfold position?
  rw [if_neg (by omega)]
  by_cases hi : i < n
  · rw [if_pos (by omega), if_pos hi, Int.toNat_natCast]
  · rw [if_neg (by omega), if_neg hi]

theorem address?_forest (hi : i < w.nodes.length) : w.forest.address? i = some (w.address i) := by
  unfold Forest.address? forest
  rw [List.length_map, List.length_range, position?_natCast, if_pos hi, Option.bind_some,
    List.getElem?_map, List.getElem?_range hi]
  rfl

theorem address?_forest_missing (hi : ¬ i < w.nodes.length) : w.forest.address? i = none := by
  unfold Forest.address? forest
  rw [List.length_map, List.length_range, position?_natCast, if_neg hi]
  rfl

theorem locate_forest (hi : i < w.nodes.length) :
    Forest.locate i w.forest = .ok (w.address i) w.forest := by
  rw [Forest.locate_apply, address?_forest hi]

theorem family_address (hi : i < w.nodes.length) :
    w.forest.families[(w.address i).family]? = some (w.family (w.rootOf i)) := by
  rw [families_forest, List.getElem?_map, address, List.getElem?_idxOf (rootOf_mem_roots hi)]
  rfl

theorem place_address (hi : i < w.nodes.length) :
    (w.kin (w.rootOf i))[(w.address i).member]? = some i :=
  List.getElem?_idxOf (mem_kin.mpr ⟨hi, rfl⟩)

/-! ## Changes -/

/-- When one family changes, the list of families changes at its place. -/
theorem families_within (hr : w.IsRoot r) (hroots : w'.roots = w.roots)
    (hother : ∀ r', w.IsRoot r' → r' ≠ r → w'.family r' = w.family r') :
    w'.forest.families = w.forest.families.set (w.roots.idxOf r) (w'.family r) := by
  have hfamily : ∀ r' ∈ w.roots, w'.family r' = Function.update w.family r (w'.family r) r' := by
    intro r' hr'
    by_cases heq : r' = r
    · rw [heq, Function.update_self]
    · rw [Function.update_of_ne heq, hother r' (mem_roots.mp hr') heq]
  rw [forest, hroots, List.map_congr_left hfamily, (nodup_roots w).map_update,
    if_pos (mem_roots.mpr hr)]
  rfl

theorem Within.roots (h : Within r w w') : w'.roots = w.roots := by
  unfold Store.roots
  rw [h.length]
  exact List.filter_congr fun i _ => by rw [h.parents]

theorem Within.addresses (h : Within r w w') : w'.forest.addresses = w.forest.addresses := by
  rw [addresses_forest, addresses_forest, h.length]
  apply List.map_congr_left
  intro i _
  rw [address, h.roots, h.rootOf, h.kin, address]

section Add

variable {n : Node} {h : ∀ p, n.parent = some p → p < w.nodes.length}

theorem roots_add :
    (w.add n h).roots = w.roots ++ if n.parent = none then [w.nodes.length] else [] := by
  unfold roots
  rw [length_add, List.range_succ, List.filter_append]
  congr 1
  · apply List.filter_congr
    intro i hi
    rw [parentOf_eq, nodeAt_add (List.mem_range.mp hi), parentOf_eq]
  · rw [List.filter_cons, parentOf_eq, nodeAt_add_self]
    simp only [Option.isNone_iff_eq_none, List.filter_nil]

/-- A stack that was there before has the address it had. -/
theorem address_add (hi : i < w.nodes.length) : (w.add n h).address i = w.address i := by
  unfold address
  rw [rootOf_add hi, roots_add, kin_add, List.idxOf_append_of_mem (rootOf_mem_roots hi),
    List.idxOf_append_of_mem (mem_kin.mpr ⟨hi, rfl⟩)]

theorem addresses_add :
    (w.add n h).forest.addresses = w.forest.addresses ++ [(w.add n h).address w.nodes.length] := by
  rw [addresses_forest, addresses_forest, length_add, List.range_succ, List.map_append,
    List.map_singleton]
  congr 1
  apply List.map_congr_left
  intro i hi
  exact address_add (List.mem_range.mp hi)

end Add

theorem idxOf_concat {xs : List Nat} {x : Nat} (h : x ∉ xs) : (xs ++ [x]).idxOf x = xs.length := by
  rw [List.idxOf_append_of_notMem h, List.idxOf_cons_self, Nat.add_zero]

theorem length_notMem_kin (w : Store) (r : Nat) : w.nodes.length ∉ w.kin r := by
  intro h
  exact Nat.lt_irrefl _ (mem_kin.mp h).1

theorem length_notMem_roots (w : Store) : w.nodes.length ∉ w.roots := by
  intro h
  exact Nat.lt_irrefl _ (mem_roots.mp h).lt

theorem forest_planted (w : Store) (bounds : Bounds) :
    (w.planted bounds).forest =
      ⟨w.forest.families ++ [Family.ofBounds bounds],
        w.forest.addresses ++ [⟨w.forest.families.length, 0⟩]⟩ := by
  have hroots : (w.planted bounds).roots = w.roots ++ [w.nodes.length] := roots_add
  have hfamilies : (w.planted bounds).forest.families =
      w.forest.families ++ [Family.ofBounds bounds] := by
    rw [families_forest, families_forest, hroots, List.map_append, List.map_singleton, family_planted]
    congr 1
    apply List.map_congr_left
    intro r hr
    exact family_planted_other bounds (mem_roots.mp hr)
  have haddress : (w.planted bounds).address w.nodes.length = ⟨w.forest.families.length, 0⟩ := by
    rw [address, rootOf_planted, kin_planted, hroots, idxOf_concat (length_notMem_roots w),
      List.idxOf_cons_self, families_forest, List.length_map]
  have haddresses : (w.planted bounds).forest.addresses =
      w.forest.addresses ++ [⟨w.forest.families.length, 0⟩] := by
    rw [← haddress]
    exact addresses_add
  rw [← hfamilies, ← haddresses]

theorem forest_withChild (hi : i < w.nodes.length) :
    (w.withChild i hi).forest =
      ⟨w.forest.families.set (w.address i).family (w.family (w.rootOf i)).grown,
        w.forest.addresses ++ [⟨(w.address i).family, (w.family (w.rootOf i)).members.length⟩]⟩ := by
  have hroot := isRoot_rootOf hi
  have hroots : (w.withChild i hi).roots = w.roots := by
    rw [withChild, roots_add]
    exact List.append_nil _
  have hfamilies : (w.withChild i hi).forest.families =
      w.forest.families.set (w.address i).family (w.family (w.rootOf i)).grown := by
    rw [families_within hroot hroots, family_withChild hi]
    · rfl
    · intro r' hr' hne
      exact family_withChild_other hi hr' hne.symm
  have haddress : (w.withChild i hi).address w.nodes.length =
      ⟨(w.address i).family, (w.family (w.rootOf i)).members.length⟩ := by
    rw [address, rootOf_withChild, hroots, kin_withChild, idxOf_concat (length_notMem_kin w _),
      members_family hroot, List.length_map, address]
  have haddresses : (w.withChild i hi).forest.addresses =
      w.forest.addresses ++ [⟨(w.address i).family, (w.family (w.rootOf i)).members.length⟩] := by
    rw [← haddress]
    exact addresses_add
  rw [← hfamilies, ← haddresses]

/-! ## Deeds on the forest -/

/-- A deed on a store, as it is done to a forest. -/
def Deed.onForest : Deed → Action Forest Reply
  | .plant bounds => Forest.perform 0 (.plant bounds)
  | .call i c => Forest.perform i (.call c)

/-- A result on a store, with the forest of the store it leaves. -/
def withForest {α : Type} : EStateM.Result Fault Store α → EStateM.Result Fault Forest α
  | .ok a w => .ok a w.forest
  | .error e w => .error e w.forest

/-- A deed on the forest of a store comes to the same as the deed on the store. -/
theorem deed_forest (w : Store) (d : Deed) : d.onForest w.forest = withForest (deed d w) := by
  cases d with
  | plant bounds =>
    have hdeed : deed (.plant bounds) w = .ok (.bounds bounds) (w.planted bounds) := rfl
    rw [hdeed, withForest, forest_planted]
    rfl
  | call i c =>
    have honForest : (Deed.call i c).onForest w.forest = Forest.perform i (.call c) w.forest := rfl
    rw [honForest]
    by_cases hi : i < w.nodes.length
    · have hroot := isRoot_rootOf hi
      have haddress := address?_forest hi
      have hfamily := family_address hi
      have hplace := place_address hi
      rw [deed_call hi]
      by_cases hc : c = .child
      · subst hc
        have hmember : (w.address i).member < (w.family (w.rootOf i)).members.length :=
          (List.getElem?_eq_some_iff.mp (member_family hplace)).1
        rw [Forest.perform_call_child haddress hfamily hmember, perform_child hi, withForest,
          forest_withChild hi]
      · have h := perform_mirrors hplace hc
        have hforest : ∀ w', Within (w.rootOf i) w w' →
            ⟨w.forest.families.set (w.address i).family (w'.family (w.rootOf i)),
              w.forest.addresses⟩ = w'.forest := by
          intro w' hw'
          have hfamilies := families_within hroot hw'.roots fun r' hr' hne => hw'.family_other hr' hne
          rw [← hw'.addresses]
          exact congrArg (Forest.mk · _) hfamilies.symm
        rw [Forest.perform_call haddress hc]
        simp only [Forest.onFamily, hfamily]
        generalize perform i c w = x,
          Family.perform (w.address i).member c (w.family (w.rootOf i)) = y at h
        cases h with
        | ok a hw' => exact congrArg (EStateM.Result.ok a) (hforest _ hw')
        | error e hw' => exact congrArg (EStateM.Result.error e) (hforest _ hw')
    · rw [deed_missing hi, Forest.perform_call_none (address?_forest_missing hi)]
      rfl

/-- **A forest follows its store.** Whatever is done to a store, one deed after another, the same deeds on
its forest lead to the forest of the store in the end. -/
theorem history_forest (w : Store) (deeds : List Deed) :
    Action.replay (deeds.map Deed.onForest) w.forest = (w.history deeds).forest := by
  induction deeds generalizing w with
  | nil => rfl
  | cons d rest ih =>
    have hafter : d.onForest.after w.forest = ((deed d).after w).forest := by
      unfold Action.after
      rw [deed_forest]
      cases deed d w <;> rfl
    rw [List.map_cons, Action.replay_cons, hafter, ih]
    rfl

/-- The check of a stack on the forest is the check of the stack against the root it climbs to. -/
theorem check_forest (hi : i < w.nodes.length) :
    Forest.perform i .check w.forest = withForest ((audit i >>= fun _ => pure .done) w) := by
  have hmem : i ∈ w.kin (w.rootOf i) := mem_kin.mpr ⟨hi, rfl⟩
  have hfamily := family_address hi
  have hmember : Family.member (w.address i).member (w.family (w.rootOf i)) =
      .ok (w.stackAt i) (w.family (w.rootOf i)) := by
    rw [Family.member_apply, member_family (place_address hi)]
  have hset : w.forest.families.set (w.address i).family (w.family (w.rootOf i)) =
      w.forest.families := by
    obtain ⟨hlt, hget⟩ := List.getElem?_eq_some_iff.mp hfamily
    rw [← hget]
    exact List.set_getElem_self hlt
  refine (Action.bind_apply_ok (locate_forest hi) _).trans ?_
  rw [Action.bind_apply, Action.bind_apply, audit_apply hmem]
  simp only [Forest.onFamily, hfamily, Action.bind_apply_ok hmember, Action.get_bind_apply]
  cases (w.family (w.rootOf i)).audit (w.stackAt i) with
  | error e => exact congrArg (fun fs => EStateM.Result.error e (Forest.mk fs _)) hset
  | ok u => exact congrArg (fun fs => EStateM.Result.ok Reply.done (Forest.mk fs _)) hset

theorem address_inj (hi : i < w.nodes.length) (h : w.address i = w.address j) : i = j := by
  have hroot : w.rootOf i = w.rootOf j :=
    (List.idxOf_inj (rootOf_mem_roots hi)).mp (congrArg Address.family h)
  have hplace : (w.kin (w.rootOf i)).idxOf i = (w.kin (w.rootOf i)).idxOf j := by
    have hmember := congrArg Address.member h
    rwa [address, address, ← hroot] at hmember
  exact (List.idxOf_inj (mem_kin.mpr ⟨hi, rfl⟩)).mp hplace

/-- The root that a forest names for a stack is the root that the stack climbs to. -/
theorem root_forest (hi : i < w.nodes.length) :
    Forest.perform i .root w.forest = .ok (.number (w.rootOf i)) w.forest := by
  have hroot := isRoot_rootOf hi
  have haddress : w.address (w.rootOf i) = ⟨(w.address i).family, 0⟩ := by
    rw [address, rootOf_rootOf, idxOf_kin (getElem?_kin_zero hroot), address]
  have hnodup : w.forest.addresses.Nodup := by
    rw [addresses_forest]
    refine List.Nodup.map_on ?_ List.nodup_range
    intro j hj l _ hjl
    exact address_inj (List.mem_range.mp hj) hjl
  have hlt : w.rootOf i < w.forest.addresses.length := by
    rw [addresses_forest, List.length_map, List.length_range]
    exact hroot.lt
  have hget : w.forest.addresses[w.rootOf i] = ⟨(w.address i).family, 0⟩ := by
    rw [← haddress]
    simp [addresses_forest]
  have hnumber := hnodup.idxOf_getElem (w.rootOf i) hlt
  rw [hget] at hnumber
  refine (Action.bind_apply_ok (locate_forest hi) _).trans ?_
  exact congrArg (fun n => EStateM.Result.ok (Reply.number n) w.forest) hnumber

end Store

end Tapscript
