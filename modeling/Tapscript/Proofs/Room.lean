import Tapscript.Proofs.Batches
import Tapscript.Proofs.Bookkeeping

/-!
# Room in a family

Whether an item can be put on a stack depends on what all stacks of its family hold and on the bounds of the
root, and on nothing else: not on the stack or on how far it has to climb, not on how the items are spread
over the family, and not on the bounds that are written on the children. So an item that was taken from one
stack always fits on any other of the family, and moving it back undoes the move.

* `Family.push_item_iff`, `Store.push_item_iff`: the room an item needs.
* `Family.moveTop_undone`, `Store.moveTop_undone`: a move inside a family and the move back.
* `accounted_afterUses`: deeds, and new bounds written on children, keep a root accounted for.
* `room_depends_on_tree`: the stacks of a family after any uses.
-/

namespace Tapscript.Family

variable {count bytes : Nat} {f f' : Family} {i j : Nat} {s t : Stack}

/-! ## New bounds on a child -/

theorem sum_eq_of_items {measure : List Item → Nat} {f g : Family}
    (h : f.members.map Stack.items = g.members.map Stack.items) : f.sum measure = g.sum measure := by
  have hsum : ∀ f : Family,
      f.sum measure = (f.members.map Stack.items).foldr (fun xs n => measure xs + n) 0 := by
    intro f
    rw [sum, List.foldr_map]
  rw [hsum, hsum, h]

theorem balanced_put_bounds (h : f.Balanced count bytes) {k : Nat} (hs : f.members[k + 1]? = some s)
    (bounds : Bounds) : (f.put (k + 1) { s with bounds }).Balanced count bytes := by
  have hitems : (f.put (k + 1) { s with bounds }).members.map Stack.items =
      f.members.map Stack.items := by
    obtain ⟨hk, rfl⟩ := List.getElem?_eq_some_iff.mp hs
    rw [members_put, List.map_set, ← List.getElem_map Stack.items (h := by simpa using hk)]
    exact List.set_getElem_self _
  have hcount : (f.put (k + 1) { s with bounds }).itemCount = f.itemCount := sum_eq_of_items hitems
  have hbytes : (f.put (k + 1) { s with bounds }).itemBytes = f.itemBytes := sum_eq_of_items hitems
  refine ⟨h.bounds, ?_, ?_, hcount ▸ h.count_le, hbytes ▸ h.bytes_le⟩
  · rw [held_put, hcount, hbytes]
    exact h.held
  · intro t ht
    rw [members_put] at ht
    rcases List.mem_or_eq_of_mem_set ht with hold | rfl
    · exact h.sizes t hold
    · exact h.sizes s (List.mem_of_getElem? hs)

/-! ## Room for an item -/

theorem push_item_iff (h : f.Balanced count bytes) (hs : f.members[i]? = some s) (x : Item) :
    (∃ f', push i (.item x) f = .ok () f') ↔
      f.itemCount + 1 ≤ count ∧ f.itemBytes + x.size ≤ bytes := by
  have hadmits : f.Admits count bytes [.item x] ↔
      f.itemCount + 1 ≤ count ∧ f.itemBytes + x.size ≤ bytes := by
    simp [Admits]
  simp only [push_ok_iff h hs, hadmits, exists_and_left, exists_eq, and_true]

/-! ## Moves -/

/-- Takes the top item of member `i` and puts it on member `j`. -/
def moveTop (i j : Nat) : Action Family Unit := do
  push j (.item (← pop i))

/-- After the item has gone from `i` to `j`, the family is the one without the item, with `j` filled up; so
the way back takes the item from there and fills up `i`. -/
theorem moveTop_undone (h : f.Balanced count bytes) (hs : f.members[i]? = some s)
    (ht : f.members[j]? = some t) (hne : s.items ≠ []) :
    ∃ f', moveTop i j f = .ok () f' ∧ f'.held = f.held ∧ moveTop j i f' = .ok () f := by
  obtain ⟨x, rest, hitems⟩ := List.exists_cons_of_ne_nil hne
  let lacking := f.refill i rest
  have hlacking : lacking.Truthful := truthful_refill h.truthful i rest
  have hi : lacking.members[i]? = some (s.holding rest) := member_refill_self hs rest
  obtain ⟨u, hj⟩ : ∃ u, lacking.members[j]? = some u := by
    by_cases hij : i = j
    · exact ⟨_, hij ▸ hi⟩
    · exact ⟨t, (member_refill_other f hij rest).trans ht⟩
  have hrestored : lacking.refill i (x :: rest) = f := by
    rw [refill_refill, ← hitems, refill_self h.held (h.truthful.size_eq hs) hs]
  let moved := lacking.refill j (x :: u.items)
  have hmove : moveTop i j f = .ok () moved := move_balanced h hs hitems hj
  -- The totals are those of the family without the item, and the item.
  have hcount : moved.itemCount = f.itemCount := by
    rw [itemCount_put hj, ← hrestored, ← Stack.items_holding s rest, itemCount_put hi]
  have hbytes : moved.itemBytes = f.itemBytes := by
    rw [itemBytes_put hj, ← hrestored, ← Stack.items_holding s rest, itemBytes_put hi]
  have hheld : moved.held = f.held := by
    rw [held_refill, h.held, hcount, hbytes]
  have hmoved : moved.Balanced count bytes :=
    balanced_refill ((bounds_refill f i rest).trans h.bounds) hlacking.sizes (hcount ▸ h.count_le)
      (hbytes ▸ h.bytes_le)
  have hback : moved.refill j u.items = lacking := by
    rw [refill_refill, refill_self hlacking.held (hlacking.size_eq hj) hj]
  have hundo := move_balanced hmoved (member_refill_self hj _) rfl (hback ▸ hi)
  rw [hback, Stack.items_holding, hrestored] at hundo
  exact ⟨moved, hmove, hheld, hundo⟩

end Tapscript.Family

namespace Tapscript.Store

variable {w : Store} {count bytes i j k l r : Nat}

/-! ## New bounds on a child of a store -/

/-- What is done to a store: a deed, or new bounds written on a stack that has a parent. -/
inductive Use where
  | deed (d : Deed)
  | rebound (child : Nat) (bounds : Bounds)

/-- Writes bounds on a stack that has a parent. The bounds of a root stay. -/
def rebounded (w : Store) (i : Nat) (bounds : Bounds) : Store :=
  match w.parentOf i with
  | some _ => w.restack i ({ · with bounds })
  | none => w

def use : Use → Action Store Unit
  | .deed d => do
    let _ ← deed d
  | .rebound i bounds => modify (·.rebounded i bounds)

/-- The store after uses, whatever came of each of them. -/
def afterUses (w : Store) (uses : List Use) : Store := Action.replay (uses.map use) w

theorem after_use_deed (w : Store) (d : Deed) : (use (.deed d)).after w = w.history [d] := by
  have happly : use (.deed d) w = (deed d >>= fun _ => pure ()) w := rfl
  have hafter : w.history [d] = (deed d).after w := rfl
  rw [hafter, Action.after, happly, Action.bind_apply, Action.after]
  cases deed d w <;> rfl

/-- The bounds of a child are not consulted, so the family of its root stays balanced with any. -/
theorem accounted_rebounded (h : w.Accounted count bytes r) (i : Nat) (bounds : Bounds) :
    (w.rebounded i bounds).Accounted count bytes r := by
  unfold rebounded
  cases hp : w.parentOf i with
  | none => exact h
  | some p =>
    have hwithin := within_restack (w := w) (i := i) rfl ({ · with bounds })
    refine ⟨hwithin.isRoot h.root, ?_⟩
    by_cases hroot : r = w.rootOf i
    · obtain ⟨k, hk⟩ := List.mem_iff_getElem?.mp (mem_kin_of_rootOf h.root hroot.symm)
      rw [family_restack hk]
      cases k with
      | zero =>
        -- The first of the family is its root, which has no parent.
        rw [kin_eq_cons h.root, List.getElem?_cons_zero] at hk
        obtain rfl := Option.some.inj hk
        rw [h.root.parent] at hp
        cases hp
      | succ k => exact Family.balanced_put_bounds h.balanced (member_family hk) bounds
    · dsimp only
      rw [hwithin.family_other h.root hroot]
      exact h.balanced

theorem accounted_afterUses (h : w.Accounted count bytes r) (uses : List Use) :
    (w.afterUses uses).Accounted count bytes r := by
  induction uses generalizing w with
  | nil => exact h
  | cons u rest ih =>
    have hcons : w.afterUses (u :: rest) = ((use u).after w).afterUses rest := rfl
    rw [hcons]
    apply ih
    cases u with
    | deed d =>
      rw [after_use_deed]
      exact accounted_history h [d]
    | rebound i bounds => exact accounted_rebounded h i bounds

/-! ## Room in a tree -/

theorem push_ok_iff (hk : (w.kin r)[k]? = some i) (v : Value) :
    (∃ w', push i v w = .ok () w') ↔ ∃ f', Family.push k v (w.family r) = .ok () f' := by
  have h := push_mirrors hk v
  generalize push i v w = x, Family.push k v (w.family r) = y at h
  cases h with
  | ok a h => exact ⟨fun _ => ⟨_, rfl⟩, fun _ => ⟨_, rfl⟩⟩
  | error e h =>
    constructor
    · rintro ⟨w', hw'⟩
      cases hw'
    · rintro ⟨f', hf'⟩
      cases hf'

theorem push_item_iff (h : w.Accounted count bytes r) (hi : i ∈ w.kin r) (x : Item) :
    (∃ w', push i (.item x) w = .ok () w') ↔
      w.sum r List.length + 1 ≤ count ∧ w.sum r Item.total + x.size ≤ bytes := by
  obtain ⟨k, hk⟩ := List.mem_iff_getElem?.mp hi
  rw [push_ok_iff hk, Family.push_item_iff h.balanced (member_family hk), Family.itemCount,
    Family.itemBytes, sum_family h.root, sum_family h.root]

/-- Takes the top item of stack `i` and puts it on stack `j`. -/
def moveTop (i j : Nat) : Action Store Unit := do
  push j (.item (← pop i))

theorem moveTop_mirrors (hk : (w.kin r)[k]? = some i) (hl : (w.kin r)[l]? = some j) :
    Mirrors r w (moveTop i j w) (Family.moveTop k l (w.family r)) := by
  refine (pop_mirrors hk).bind ?_
  intro x w' hw'
  exact push_mirrors (hw'.kin r ▸ hl) (.item x)

/-- A move within a family and the move back. The store is the same again, since the family is and nothing
else has changed. -/
theorem moveTop_undone (h : w.Accounted count bytes r) (hi : i ∈ w.kin r) (hj : j ∈ w.kin r)
    (hne : (w.stackAt i).items ≠ []) :
    ∃ w', moveTop i j w = .ok () w' ∧ w'.heldAt r = w.heldAt r ∧ moveTop j i w' = .ok () w := by
  obtain ⟨k, hk⟩ := List.mem_iff_getElem?.mp hi
  obtain ⟨l, hl⟩ := List.mem_iff_getElem?.mp hj
  obtain ⟨f', hmove, hheld, hback⟩ :=
    Family.moveTop_undone h.balanced (member_family hk) (member_family hl) hne
  have hthere := moveTop_mirrors hk hl
  rw [hmove] at hthere
  generalize hx : moveTop i j w = x at hthere
  cases hthere with
  | ok _ hw' =>
    rename_i w'
    refine ⟨w', rfl, hheld, ?_⟩
    have hreturn := moveTop_mirrors (hw'.kin r ▸ hl) (hw'.kin r ▸ hk)
    rw [hback] at hreturn
    generalize moveTop j i w' = y, hf : w.family r = f at hreturn
    cases hreturn with
    | ok _ hw'' => rw [(hw'.trans hw'').eq h.root (.refl r w) hf.symm]

/-- **Room depends on the contents of the whole family.** Plant a root in any store, and then make any calls
on any stacks, plant other roots, and write any bounds on stacks that have a parent. Take two stacks that
climb to the root, or one twice. The bounds of the root are still what they were. An item can be pushed on
a stack exactly when the items of all stacks that climb to the root, and their bytes, leave room for it
under these bounds; so it can be pushed on the one stack when it can be pushed on the other. The top item
of the one stack can always be moved to the other; the totals of the root stay then, and moving the item
back restores the store. -/
theorem room_depends_on_tree (w₀ : Store) (count bytes : Nat) (uses : List Use) {i j : Nat}
    (hi : i ∈ ((w₀.planted ⟨some (count : Int), some (bytes : Int)⟩).afterUses uses).kin
      w₀.nodes.length)
    (hj : j ∈ ((w₀.planted ⟨some (count : Int), some (bytes : Int)⟩).afterUses uses).kin
      w₀.nodes.length) :
    let r := w₀.nodes.length
    let w := (w₀.planted ⟨some (count : Int), some (bytes : Int)⟩).afterUses uses
    (∃ root, w.nodes[r]? = some root ∧ root.parent = none ∧
        root.stack.bounds = ⟨some (count : Int), some (bytes : Int)⟩) ∧
      (∀ x : Item,
        ((∃ w', push i (.item x) w = .ok () w') ↔
          w.sum r List.length + 1 ≤ count ∧ w.sum r Item.total + x.size ≤ bytes) ∧
        ((∃ w', push i (.item x) w = .ok () w') ↔ ∃ w', push j (.item x) w = .ok () w')) ∧
      ((w.stackAt i).items ≠ [] →
        ∃ w', moveTop i j w = .ok () w' ∧ w'.heldAt r = w.heldAt r ∧ moveTop j i w' = .ok () w) := by
  intro r w
  have h : w.Accounted count bytes r := accounted_afterUses (accounted_planted w₀ count bytes) uses
  refine ⟨⟨w.nodeAt r, getElem?_nodes h.root.lt, ?_, h.balanced.bounds⟩, ?_, moveTop_undone h hi hj⟩
  · rw [← parentOf_eq]
    exact h.root.parent
  · intro x
    refine ⟨push_item_iff h hi x, ?_⟩
    rw [push_item_iff h hi x, push_item_iff h hj x]

/-- A root with an item of two bytes and a child of its child with an item of one byte, two items and four
bytes allowed. The grandchild has bounds with more room, but no third item can be pushed on it, since none
can be pushed on the root. The item of the root still moves there and back. -/
theorem room_of_full_tree :
    let uses : List Use :=
      [.deed (.call 0 (.push (.bytes #[1, 2]))), .deed (.call 0 .child), .deed (.call 1 .child),
        .deed (.call 2 (.push (.item ⟨#[3]⟩))), .rebound 2 ⟨some 9, some 9⟩]
    let w := (empty.planted ⟨some 2, some 4⟩).afterUses uses
    w.parentOf 2 = some 1 ∧ w.parentOf 1 = some 0 ∧
      w.stackAt 2 = { bounds := ⟨some 9, some 9⟩, size := some 1, items := [⟨#[3]⟩] } ∧
      (¬ ∃ w', push 2 (.item ⟨#[4]⟩) w = .ok () w') ∧ (¬ ∃ w', push 0 (.item ⟨#[4]⟩) w = .ok () w') ∧
      ∃ w', moveTop 0 2 w = .ok () w' ∧ w'.heldAt 0 = w.heldAt 0 ∧ moveTop 2 0 w' = .ok () w := by
  intro uses w
  have hroot : 0 ∈ w.kin 0 := by decide +kernel
  have hgrandchild : 2 ∈ w.kin 0 := by decide +kernel
  obtain ⟨-, hroom, hmove⟩ := room_depends_on_tree empty 2 4 uses hroot hgrandchild
  have hcount : w.sum 0 List.length = 2 := by decide +kernel
  have hfull : ¬ ∃ w', push 0 (.item ⟨#[4]⟩) w = .ok () w' := by
    intro hfits
    obtain ⟨hc, -⟩ := (hroom _).1.mp hfits
    exact absurd (hcount ▸ hc) (by decide)
  refine ⟨by decide +kernel, by decide +kernel, by decide +kernel, ?_, hfull,
    hmove (by decide +kernel)⟩
  exact fun hfits => hfull ((hroom _).2.mpr hfits)

end Tapscript.Store
