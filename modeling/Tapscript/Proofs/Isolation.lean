import Tapscript.Proofs.Mirroring

/-!
# Families do not interfere

All stacks stand in one store, with their numbers running across the families, and every call finds the
counters it moves by climbing from parent to parent. Still each family goes through the calls on its own
stacks as if there were no other: with the same outcomes, and to the same stacks, totals and parents.
The family alone lives in a store of its own, where its stacks have other numbers, so what is compared is
the family cut out of the store (`Store.cutOut`), with its stacks and their parents renumbered.

* `Copies`: a store that holds one family of another, renumbered.
* `rootOf_copy`, `family_copy`: in the copy all stacks climb to the first, and the family is the same.
* `copies_call`, `copies_elsewhere`: a call on the family is made on the copy as well; whatever else is done
  leaves the copy as it is.
* `copies_history`: any deeds, and the calls on the family among them.
* `node_after_call`, `failed_call`: what a call leaves alone within the family.
-/

namespace Tapscript.Store

variable {w v w' v' : Store} {i j k r : Nat}

/-! ## A family on its own -/

/-- A stack of the family of `r`, with the place of its parent in the family. -/
def renumbered (w : Store) (r i : Nat) : Node :=
  { w.nodeAt i with parent := (w.parentOf i).map (w.kin r).idxOf }

/-- The stacks of the family of `r`, cut out of the store. -/
def cutOut (w : Store) (r : Nat) : List Node := (w.kin r).map (w.renumbered r)

/-- The store `v` holds the family of the root `r` of `w`, and nothing else. -/
structure Copies (w : Store) (r : Nat) (v : Store) : Prop where
  root : w.IsRoot r
  nodes : v.nodes = w.cutOut r

theorem Copies.length (h : Copies w r v) : v.nodes.length = (w.kin r).length := by
  rw [h.nodes, cutOut, List.length_map]

theorem Copies.nodeAt (h : Copies w r v) (hk : (w.kin r)[k]? = some i) :
    v.nodeAt k = w.renumbered r i := by
  rw [Store.nodeAt, h.nodes, cutOut, List.getElem?_map, hk]
  rfl

theorem Copies.parentOf (h : Copies w r v) (hk : (w.kin r)[k]? = some i) :
    v.parentOf k = (w.parentOf i).map (w.kin r).idxOf := by
  rw [parentOf_eq, h.nodeAt hk]
  rfl

theorem Copies.heldAt (h : Copies w r v) (hk : (w.kin r)[k]? = some i) :
    v.heldAt k = w.heldAt i := by
  rw [Store.heldAt, h.nodeAt hk]
  rfl

theorem Copies.exists_original (h : Copies w r v) (hk : k < v.nodes.length) :
    ∃ i, (w.kin r)[k]? = some i := by
  rw [h.length] at hk
  exact ⟨_, List.getElem?_eq_getElem hk⟩

/-- The parents lead down in the copy as they do in the store, so every climb ends at the first stack. -/
theorem rootOf_copy (h : Copies w r v) (hk : k < v.nodes.length) : v.rootOf k = 0 := by
  induction k using Nat.strongRecOn with
  | ind k ih =>
    obtain ⟨i, hi⟩ := h.exists_original hk
    have hmem := List.mem_of_getElem? hi
    cases hp : w.parentOf i with
    | none =>
      have hroot : i = r := (rootOf_of_none hp).symm.trans (mem_kin.mp hmem).2
      obtain rfl : 0 = k := by rw [← idxOf_kin hi, hroot, idxOf_kin (getElem?_kin_zero h.root)]
      apply rootOf_of_none
      rw [h.parentOf hi, hp]
      rfl
    | some p =>
      have hparent : v.parentOf k = some ((w.kin r).idxOf p) := by
        rw [h.parentOf hi, hp]
        rfl
      have hlt := v.parent_lt k _ hparent
      rw [rootOf_of_some hparent]
      exact ih _ hlt (Nat.lt_trans hlt hk)

theorem kin_copy (h : Copies w r v) : v.kin 0 = List.range v.nodes.length := by
  unfold kin
  rw [List.filter_eq_self]
  intro k hk
  exact decide_eq_true (rootOf_copy h (List.mem_range.mp hk))

theorem getElem?_kin_copy (h : Copies w r v) (hk : (w.kin r)[k]? = some i) :
    (v.kin 0)[k]? = some k := by
  have hlt : k < v.nodes.length := by
    rw [h.length]
    exact (List.getElem?_eq_some_iff.mp hk).1
  rw [kin_copy h, List.getElem?_range hlt]

theorem isRoot_copy (h : Copies w r v) : v.IsRoot 0 :=
  isRoot_of_mem (List.mem_of_getElem? (getElem?_kin_copy h (getElem?_kin_zero h.root)))

theorem family_copy (h : Copies w r v) : v.family 0 = w.family r := by
  have hstacks : (v.kin 0).map v.stackAt = (w.kin r).map w.stackAt := by
    have hnodes : (v.kin 0).map v.nodeAt = (w.kin r).map (w.renumbered r) := by
      rw [kin_copy h, map_nodeAt]
      exact h.nodes
    have hstack := congrArg (List.map Node.stack) hnodes
    rw [List.map_map, List.map_map] at hstack
    exact hstack
  apply Family.ext_members
  · rw [members_family (isRoot_copy h), members_family h.root, hstacks]
  · exact h.heldAt (getElem?_kin_zero h.root)

/-- A store is a copy as soon as its stacks are those of the family, one by one. -/
theorem copies_of_nodeAt (hr : w.IsRoot r) (hlength : v.nodes.length = (w.kin r).length)
    (hnode : ∀ k i, (w.kin r)[k]? = some i → v.nodeAt k = w.renumbered r i) : Copies w r v where
  root := hr
  nodes := by
    rw [← map_nodeAt, cutOut, hlength]
    apply List.ext_getElem?
    intro k
    rw [List.getElem?_map, List.getElem?_map]
    cases hk : (w.kin r)[k]? with
    | none =>
      rw [List.getElem?_eq_none (List.length_range ▸ List.getElem?_eq_none_iff.mp hk)]
      rfl
    | some i =>
      rw [List.getElem?_range (List.getElem?_eq_some_iff.mp hk).1]
      exact congrArg some (hnode k i hk)

theorem copies_planted (w : Store) (bounds : Bounds) :
    Copies (w.planted bounds) w.nodes.length (empty.planted bounds) where
  root := isRoot_planted w bounds
  nodes := by
    have hnode : (w.planted bounds).renumbered w.nodes.length w.nodes.length =
        { stack := { bounds } } := by
      rw [renumbered, parentOf_eq, nodeAt_planted]
      rfl
    rw [cutOut, kin_planted, List.map_singleton, hnode]
    rfl

/-! ## Calls on the family -/

/-- Changes within the family and within its copy that leave the same family. -/
theorem copies_of_within (h : Copies w r v) (hw : Within r w w') (hv : Within 0 v v')
    (hf : v'.family 0 = w'.family r) : Copies w' r v' := by
  refine copies_of_nodeAt (hw.isRoot h.root) ?_ ?_
  · rw [hv.length, hw.kin, h.length]
  · intro k i hk
    have hk₀ : (w.kin r)[k]? = some i := by rwa [hw.kin] at hk
    have hkv : (v'.kin 0)[k]? = some k := by rw [hv.kin, getElem?_kin_copy h hk₀]
    ext1
    · show (v'.nodeAt k).parent = (w'.parentOf i).map (w'.kin r).idxOf
      rw [← parentOf_eq, hv.parents, h.parentOf hk₀, hw.parents, hw.kin]
    · have hstack : some (v'.stackAt k) = some (w'.stackAt i) := by
        rw [← member_family hkv, ← member_family hk, hf]
      exact Option.some.inj hstack
    · show v'.heldAt k = w'.heldAt i
      by_cases hi : i = r
      · subst hi
        obtain rfl : 0 = k := by rw [← idxOf_kin hk, idxOf_kin (getElem?_kin_zero (hw.isRoot h.root))]
        exact congrArg Family.held hf
      · have hk0 : k ≠ 0 := by
          rintro rfl
          rw [getElem?_kin_zero h.root] at hk₀
          exact hi (Option.some.inj hk₀).symm
        rw [hv.totals k hk0, hw.totals i hi, h.heldAt hk₀]

/-- A stack that was there before has the place it had, and so has its parent. -/
theorem renumbered_withChild (hi : i < w.nodes.length) (hj : j ∈ w.kin (w.rootOf i)) :
    (w.withChild i hi).renumbered (w.rootOf i) j = w.renumbered (w.rootOf i) j := by
  have hnode : (w.withChild i hi).nodeAt j = w.nodeAt j := nodeAt_add (mem_kin.mp hj).1
  have hparent : (w.withChild i hi).parentOf j = w.parentOf j := by
    rw [parentOf_eq, hnode, parentOf_eq]
  unfold renumbered
  rw [hnode, hparent, kin_withChild]
  cases hp : w.parentOf j with
  | none => rfl
  | some p => rw [Option.map_some, Option.map_some, List.idxOf_append_of_mem (parent_mem_kin hj hp)]

/-- The new child goes to the end of the copy, under the copy of its parent. -/
theorem copies_child (h : Copies w r v) (hk : (w.kin r)[k]? = some i) (hi : i < w.nodes.length)
    (hkv : k < v.nodes.length) : Copies (w.withChild i hi) r (v.withChild k hkv) where
  root := isRoot_add h.root
  nodes := by
    have hmem := List.mem_of_getElem? hk
    obtain ⟨-, rfl⟩ := mem_kin.mp hmem
    have hnew : (w.withChild i hi).renumbered (w.rootOf i) w.nodes.length =
        { parent := some k, stack := { bounds := Family.childBounds } } := by
      rw [renumbered, parentOf_withChild, nodeAt_withChild, kin_withChild, Option.map_some,
        List.idxOf_append_of_mem hmem, idxOf_kin hk]
    rw [cutOut, kin_withChild, List.map_append, List.map_singleton, hnew,
      List.map_congr_left fun j hj => renumbered_withChild hi hj]
    exact congrArg (· ++ _) h.nodes

/-- A call on the family is made on the copy, with the same outcome. -/
theorem copies_call (h : Copies w r v) (hk : (w.kin r)[k]? = some i) (c : Family.Call) :
    (deed (.call i c)).outcome w = (deed (.call k c)).outcome v ∧
      Copies ((deed (.call i c)).after w) r ((deed (.call k c)).after v) := by
  have hkv := getElem?_kin_copy h hk
  have hi := lt_of_getElem?_kin hk
  have hlt := lt_of_getElem?_kin hkv
  rw [outcome_deed_call hi, outcome_deed_call hlt, after_deed_call hi, after_deed_call hlt]
  by_cases hc : c = .child
  · subst hc
    unfold Action.outcome Action.after
    rw [perform_child hi, perform_child hlt]
    exact ⟨rfl, copies_child h hk hi hlt⟩
  · have hw := perform_mirrors hk hc
    have hv := perform_mirrors hkv hc
    refine ⟨?_, copies_of_within h hw.within hv.within ?_⟩
    · rw [hw.outcome, hv.outcome, family_copy h]
    · rw [hv.family_after, hw.family_after, family_copy h]

/-! ## Whatever else is done -/

/-- A deed that is no call on the family. -/
def Elsewhere (r : Nat) (w : Store) : Deed → Prop
  | .plant _ => True
  | .call i _ => i ∉ w.kin r

theorem copies_of_same (h : Copies w r v) (hr : w'.IsRoot r) (hkin : w'.kin r = w.kin r)
    (hnode : ∀ i ∈ w.kin r, w'.nodeAt i = w.nodeAt i) : Copies w' r v where
  root := hr
  nodes := by
    have hsame : ∀ i ∈ w.kin r, w'.renumbered r i = w.renumbered r i := by
      intro i hi
      unfold renumbered
      rw [parentOf_eq, parentOf_eq, hnode i hi, hkin]
    rw [h.nodes, cutOut, cutOut, hkin, List.map_congr_left hsame]

theorem copies_elsewhere (h : Copies w r v) {d : Deed} (hd : Elsewhere r w d) :
    Copies ((deed d).after w) r v := by
  cases d with
  | plant bounds =>
    exact copies_of_same h (isRoot_planted_other bounds h.root) (kin_planted_other bounds h.root)
      fun i hi => nodeAt_planted_other bounds (mem_kin.mp hi).1
  | call i c =>
    unfold Action.after
    by_cases hi : i < w.nodes.length
    · have hroot : w.rootOf i ≠ r := fun hroot => hd (mem_kin.mpr ⟨hi, hroot⟩)
      rw [deed_call hi]
      by_cases hc : c = .child
      · subst hc
        rw [perform_child hi]
        exact copies_of_same h (isRoot_add h.root) (kin_withChild_other hi hroot)
          fun j hj => nodeAt_add (mem_kin.mp hj).1
      · obtain ⟨k, hk⟩ := List.mem_iff_getElem?.mp (mem_kin.mpr ⟨hi, rfl⟩ : i ∈ w.kin (w.rootOf i))
        have hwithin := (perform_mirrors hk hc).within
        refine copies_of_same h (hwithin.isRoot h.root) (hwithin.kin r) ?_
        intro j hj
        apply hwithin.others
        rw [(mem_kin.mp hj).2]
        exact hroot.symm
    · rw [deed_missing hi]
      exact h

/-! ## Histories -/

/-- A call on a stack of a family, by the place of the stack in the family, with what came of it. -/
structure Entry where
  place : Nat
  call : Family.Call
  outcome : Except Fault Reply

/-- The call as it is made on the family alone. -/
def Entry.alone (e : Entry) : Deed := .call e.place e.call

/-- The calls on the family of `r` among some deeds. -/
def record (r : Nat) : List Deed → Store → List Entry
  | [], _ => []
  | .plant bounds :: rest, w => record r rest ((deed (.plant bounds)).after w)
  | .call i c :: rest, w =>
    let later := record r rest ((deed (.call i c)).after w)
    if i ∈ w.kin r then ⟨(w.kin r).idxOf i, c, (deed (.call i c)).outcome w⟩ :: later else later

def outcomes : List Deed → Store → List (Except Fault Reply)
  | [], _ => []
  | d :: rest, w => (deed d).outcome w :: outcomes rest ((deed d).after w)

/-- The copy goes through the calls on the family, and stays the copy of the family in the store. -/
theorem copies_history (h : Copies w r v) (deeds : List Deed) :
    Copies (w.history deeds) r (v.history ((record r deeds w).map Entry.alone)) ∧
      (record r deeds w).map Entry.outcome = outcomes ((record r deeds w).map Entry.alone) v := by
  induction deeds generalizing w v with
  | nil => exact ⟨h, rfl⟩
  | cons d rest ih =>
    have hcons : ∀ u : Store, u.history (d :: rest) = ((deed d).after u).history rest := fun _ => rfl
    cases d with
    | plant bounds => exact ih (copies_elsewhere h trivial)
    | call i c =>
      rw [hcons]
      by_cases hi : i ∈ w.kin r
      · obtain ⟨houtcome, hcopies⟩ := copies_call h (List.getElem?_idxOf hi) c
        obtain ⟨hend, hrest⟩ := ih hcopies
        have hrecord : record r (.call i c :: rest) w =
            ⟨(w.kin r).idxOf i, c, (deed (.call i c)).outcome w⟩ ::
              record r rest ((deed (.call i c)).after w) := if_pos hi
        rw [hrecord, List.map_cons, List.map_cons, hrest, houtcome]
        exact ⟨hend, rfl⟩
      · have hrecord : record r (.call i c :: rest) w =
            record r rest ((deed (.call i c)).after w) := if_neg hi
        rw [hrecord]
        exact ih (copies_elsewhere h hi)

/-! ## One more call -/

/-- A call leaves the contents of every other stack alone, also within the family, and moves no totals but
those of the root. -/
theorem node_after_call (hf : (w.family r).Truthful) (hi : i ∈ w.kin r) (c : Family.Call)
    (hj : j < w.nodes.length) (hji : j ≠ i) :
    ((perform i c).after w).parentOf j = w.parentOf j ∧
      ((perform i c).after w).stackAt j = w.stackAt j ∧
      (j ≠ r → ((perform i c).after w).heldAt j = w.heldAt j) := by
  have hlt := (mem_kin.mp hi).1
  by_cases hc : c = .child
  · subst hc
    have hnode : ((perform i .child).after w).nodeAt j = w.nodeAt j := by
      rw [Action.after, perform_child hlt]
      exact nodeAt_add hj
    rw [parentOf_eq, parentOf_eq, stackAt, stackAt, heldAt, heldAt, hnode]
    exact ⟨rfl, rfl, fun _ => rfl⟩
  · obtain ⟨k, hk⟩ := List.mem_iff_getElem?.mp hi
    have h := perform_mirrors hk hc
    refine ⟨h.within.parents j, ?_, h.within.totals j⟩
    by_cases hkin : j ∈ w.kin r
    · obtain ⟨l, hl⟩ := List.mem_iff_getElem?.mp hkin
      have hkl : k ≠ l := by
        rintro rfl
        rw [hk] at hl
        exact hji (Option.some.inj hl).symm
      have hl' : (((perform i c).after w).kin r)[l]? = some j := by rw [h.within.kin, hl]
      have hmember : l < (w.family r).members.length :=
        (List.getElem?_eq_some_iff.mp (member_family hl)).1
      have hothers := Family.perform_others hf hkl hmember c
      rw [← h.family_after, member_family hl', member_family hl] at hothers
      exact Option.some.inj hothers
    · have hroot : w.rootOf j ≠ r := fun hroot => hkin (mem_kin.mpr ⟨hj, hroot⟩)
      rw [stackAt, h.within.others j hroot, stackAt]

theorem failed_call (hf : (w.family r).Truthful) (hi : i ∈ w.kin r) {c : Family.Call} {e : Fault}
    (he : perform i c w = .error e w') : w' = w := by
  by_cases hc : c = .child
  · subst hc
    rw [perform_child (mem_kin.mp hi).1] at he
    cases he
  · obtain ⟨k, hk⟩ := List.mem_iff_getElem?.mp hi
    have h := perform_mirrors hk hc
    rw [he] at h
    generalize hresult : Family.perform k c (w.family r) = result at h
    cases h with
    | error _ hwithin =>
      exact hwithin.eq (isRoot_of_mem hi) (.refl r w) (Family.perform_failed hf hresult)

/-- **Families do not interfere.** Plant a root in any store, with whatever families it holds, and then
make any calls on any stacks, and plant any other roots, in any order. The family of the root ends as it
does when it is planted in an empty store and only the calls on its own stacks are made: its stacks with
their sizes, its totals and its parents are the same, in the order in which they were made. Each of these
calls has the outcome it has there. A further call on the family leaves every other stack of the store as
it was, and all totals but those of the root; and if it fails it leaves everything as it was. -/
theorem families_do_not_interfere (w₀ : Store) (bounds : Bounds) (deeds : List Deed) :
    let r := w₀.nodes.length
    let w := (w₀.planted bounds).history deeds
    let entries := record r deeds (w₀.planted bounds)
    let calls := entries.map Entry.alone
    ((empty.planted bounds).history calls).nodes = w.cutOut r ∧
      entries.map Entry.outcome = outcomes calls (empty.planted bounds) ∧
      ∀ i c, i < w.nodes.length → w.rootOf i = r →
        (∀ j, j < w.nodes.length → j ≠ i →
          ((perform i c).after w).parentOf j = w.parentOf j ∧
            ((perform i c).after w).stackAt j = w.stackAt j ∧
            (j ≠ r → ((perform i c).after w).heldAt j = w.heldAt j)) ∧
          ∀ e w', perform i c w = .error e w' → w' = w := by
  intro r w entries calls
  obtain ⟨hcopies, houtcomes⟩ := copies_history (copies_planted w₀ bounds) deeds
  have hfamily : ((w₀.planted bounds).family r).Truthful := by
    rw [family_planted]
    exact Family.truthful_ofBounds bounds
  obtain ⟨-, htruthful⟩ := family_history (P := Family.Truthful)
    (fun k c f hf => Family.truthful_after hf k c) (isRoot_planted w₀ bounds) hfamily deeds
  refine ⟨hcopies.nodes, houtcomes, ?_⟩
  intro i c hlt hroot
  have hi : i ∈ w.kin r := mem_kin.mpr ⟨hlt, hroot⟩
  exact ⟨fun j hj hji => node_after_call htruthful hi c hj hji,
    fun e w' he => failed_call htruthful hi he⟩

-- A child and a grandchild of the first root stand behind a second root in the store. Cut out, they move up.
example :
    ((empty.planted ⟨some 2, some 4⟩).history
        [.plant ⟨some 1, some 1⟩, .call 0 .child, .call 2 .child, .call 1 (.push (.bytes #[9])),
          .call 3 (.push (.bytes #[1, 2]))]).cutOut 0 =
      [{ stack := { bounds := ⟨some 2, some 4⟩ }, held := ⟨some 1, some 2⟩ },
        { parent := some 0, stack := { bounds := ⟨some 0, some 0⟩ } },
        { parent := some 1,
          stack := { bounds := ⟨some 0, some 0⟩, size := some 2, items := [⟨#[1, 2]⟩] } }] := by
  decide +kernel

end Tapscript.Store
