import Tapscript.Family.Equations

/-!
# Balanced families

The bookkeeping of a family is truthful when the totals are the sums over all members and the size of
every member is the bytes of its own items. The family is balanced when the sums also stay within the
bounds of the root. Every operation on a truthful family has a plain description: it either changes
nothing, or gives one member other items and counts the totals afresh (`Family.refill`).

* `settle_truthful`: the running counters of a truthful family arrive where counting afresh arrives.
* `pushItems_truthful`, `pop_truthful`, `popMany_truthful`: the operations by `refill`.
* `balanced_refill`: the family stays balanced when the new items fit.
* `audit_balanced`: the bookkeeping of a balanced family passes its own check.
-/

namespace Tapscript

/-- The stack with other items, and with the size they have. -/
def Stack.holding (s : Stack) (items : List Item) : Stack :=
  { s with items, size := some (Item.total items : Int) }

@[simp]
theorem Stack.items_holding (s : Stack) (items : List Item) : (s.holding items).items = items := rfl

namespace Family

/-! ## Sums over the members -/

/-- A measure of the items of a stack, summed over all members. -/
def sum (measure : List Item → Nat) (f : Family) : Nat :=
  f.members.foldr (fun s n => measure s.items + n) 0

/-- The number of items on all members. -/
def itemCount (f : Family) : Nat := f.sum List.length

/-- The number of bytes of all items on all members. -/
def itemBytes (f : Family) : Nat := f.sum Item.total

/-- The family with its totals counted afresh. -/
def tallied (f : Family) : Family := { f with held := ⟨some f.itemCount, some f.itemBytes⟩ }

/-- The family in which member `i` holds other items, with its totals counted afresh. -/
def refill (f : Family) : Nat → List Item → Family
  | 0, items => tallied { f with root := f.root.holding items }
  | i + 1, items => tallied { f with children := f.children.modify i (·.holding items) }

/-- The bookkeeping of a family agrees with its members, whatever the bounds are. -/
structure Truthful (f : Family) : Prop where
  held : f.held = ⟨some (f.itemCount : Int), some (f.itemBytes : Int)⟩
  sizes : ∀ s ∈ f.members, s.size = some (Item.total s.items : Int)

/-- The bookkeeping of a family agrees with its members, and the members stay within the bounds
`count` and `bytes` of the root. -/
structure Balanced (count bytes : Nat) (f : Family) : Prop where
  bounds : f.root.bounds = ⟨some (count : Int), some (bytes : Int)⟩
  held : f.held = ⟨some (f.itemCount : Int), some (f.itemBytes : Int)⟩
  sizes : ∀ s ∈ f.members, s.size = some (Item.total s.items : Int)
  count_le : f.itemCount ≤ count
  bytes_le : f.itemBytes ≤ bytes

/-- A family is known by its members and its totals. -/
theorem ext_members {f g : Family} (hm : f.members = g.members) (hh : f.held = g.held) : f = g := by
  obtain ⟨hr, hc⟩ := List.cons.inj hm
  cases f
  cases g
  simp_all

theorem sum_eq_of_members {measure : List Item → Nat} {f g : Family} (h : f.members = g.members) :
    f.sum measure = g.sum measure := by
  unfold sum
  rw [h]

/-! ## Refilling a member -/

theorem members_refill (f : Family) (i : Nat) (items : List Item) :
    (f.refill i items).members = f.members.modify i (·.holding items) := by
  cases i <;> rfl

theorem members_refill_eq_set {f : Family} {i : Nat} {s : Stack} (hs : f.members[i]? = some s)
    (items : List Item) : (f.refill i items).members = f.members.set i (s.holding items) := by
  have : Inhabited Stack := ⟨s⟩
  rw [members_refill, List.modify_eq_set, hs]
  rfl

@[simp]
theorem bounds_refill (f : Family) (i : Nat) (items : List Item) :
    (f.refill i items).root.bounds = f.root.bounds := by
  cases i <;> rfl

theorem children_refill {f : Family} (h : f.children ≠ []) (i : Nat) (items : List Item) :
    (f.refill i items).children ≠ [] := by
  cases i with
  | zero => exact h
  | succ i => simpa [refill, tallied] using h

theorem held_refill (f : Family) (i : Nat) (items : List Item) :
    (f.refill i items).held =
      ⟨some ((f.refill i items).itemCount : Int), some ((f.refill i items).itemBytes : Int)⟩ := by
  cases i <;> rfl

theorem member_refill_self {f : Family} {i : Nat} {s : Stack} (hs : f.members[i]? = some s)
    (items : List Item) : (f.refill i items).members[i]? = some (s.holding items) := by
  rw [members_refill, List.getElem?_modify_eq, hs]
  rfl

theorem member_refill_other (f : Family) {i j : Nat} (h : i ≠ j) (items : List Item) :
    (f.refill i items).members[j]? = f.members[j]? := by
  rw [members_refill, List.getElem?_modify_ne _ _ h]

/-- Changing one element of a list changes a sum over the list by the difference. -/
theorem foldr_modify {α : Type} (measure : α → Nat) (change : α → α) {xs : List α} {i : Nat} {x : α}
    (h : xs[i]? = some x) :
    (xs.modify i change).foldr (fun y n => measure y + n) 0 + measure x =
      xs.foldr (fun y n => measure y + n) 0 + measure (change x) := by
  induction xs generalizing i with
  | nil => simp at h
  | cons y ys ih =>
    cases i with
    | zero =>
      obtain rfl : y = x := by simpa using h
      simp only [List.modify_zero_cons, List.foldr_cons]
      omega
    | succ i =>
      have hrest := ih (i := i) (by simpa using h)
      simp only [List.modify_succ_cons, List.foldr_cons]
      omega

theorem sum_refill (measure : List Item → Nat) {f : Family} {i : Nat} {s : Stack}
    (hs : f.members[i]? = some s) (items : List Item) :
    (f.refill i items).sum measure + measure s.items = f.sum measure + measure items := by
  unfold sum
  rw [members_refill]
  exact foldr_modify (fun s => measure s.items) (·.holding items) hs

theorem itemCount_refill {f : Family} {i : Nat} {s : Stack} (hs : f.members[i]? = some s)
    (items : List Item) :
    (f.refill i items).itemCount + s.items.length = f.itemCount + items.length :=
  sum_refill List.length hs items

theorem itemBytes_refill {f : Family} {i : Nat} {s : Stack} (hs : f.members[i]? = some s)
    (items : List Item) :
    (f.refill i items).itemBytes + Item.total s.items = f.itemBytes + Item.total items :=
  sum_refill Item.total hs items

/-- Families that agree on their members have the same totals when these are counted afresh. -/
theorem refill_ext {f g : Family} {i j : Nat} {xs ys : List Item}
    (h : (f.refill i xs).members = (g.refill j ys).members) : f.refill i xs = g.refill j ys := by
  refine ext_members h ?_
  rw [held_refill, held_refill, itemCount, itemBytes, sum_eq_of_members h, sum_eq_of_members h]
  rfl

@[simp]
theorem refill_refill (f : Family) (i : Nat) (xs ys : List Item) :
    (f.refill i xs).refill i ys = f.refill i ys := by
  apply refill_ext
  rw [members_refill, members_refill, members_refill, List.modify_modify_eq]
  rfl

theorem refill_comm (f : Family) {i j : Nat} (h : i ≠ j) (xs ys : List Item) :
    (f.refill i xs).refill j ys = (f.refill j ys).refill i xs := by
  apply refill_ext
  rw [members_refill, members_refill, members_refill, members_refill, List.modify_modify_ne _ _ _ h]

/-! ## Truthful and balanced families -/

variable {count bytes : Nat} {f : Family} {i : Nat} {s : Stack}

theorem Balanced.truthful (h : f.Balanced count bytes) : f.Truthful := ⟨h.held, h.sizes⟩

theorem Truthful.size_eq (h : f.Truthful) (hs : f.members[i]? = some s) :
    s.size = some (Item.total s.items : Int) := h.sizes s (List.mem_of_getElem? hs)

/-- Giving a member the items it has changes nothing. -/
theorem refill_self (hheld : f.held = ⟨some (f.itemCount : Int), some (f.itemBytes : Int)⟩)
    (hsize : s.size = some (Item.total s.items : Int)) (hs : f.members[i]? = some s) :
    f.refill i s.items = f := by
  have hsame : s.holding s.items = s := by
    rw [Stack.holding, ← hsize]
  have hm : (f.refill i s.items).members = f.members := by
    rw [members_refill_eq_set hs, hsame]
    obtain ⟨hi, rfl⟩ := List.getElem?_eq_some_iff.mp hs
    exact List.set_getElem_self hi
  refine ext_members hm ?_
  rw [held_refill, hheld, itemCount, itemBytes, sum_eq_of_members hm, sum_eq_of_members hm]
  rfl

/-- What holds of every member, and of every stack that holds the new items, holds of every member after
a refill. -/
theorem forall_members_refill {P : Stack → Prop} (h : ∀ t ∈ f.members, P t) {items : List Item}
    (hitems : ∀ t : Stack, P (t.holding items)) : ∀ t ∈ (f.refill i items).members, P t := by
  intro t ht
  obtain ⟨j, hj⟩ := List.mem_iff_getElem?.mp ht
  rw [members_refill, List.getElem?_modify] at hj
  obtain ⟨u, hu, rfl⟩ := Option.map_eq_some_iff.mp hj
  split
  · exact hitems u
  · exact h u (List.mem_of_getElem? hu)

theorem sizes_refill (h : ∀ t ∈ f.members, t.size = some (Item.total t.items : Int))
    (items : List Item) :
    ∀ t ∈ (f.refill i items).members, t.size = some (Item.total t.items : Int) :=
  forall_members_refill h fun _ => rfl

theorem truthful_refill (h : f.Truthful) (i : Nat) (items : List Item) :
    (f.refill i items).Truthful := ⟨held_refill f i items, sizes_refill h.sizes items⟩

/-- A family whose sizes are right is balanced as soon as its totals are counted afresh and fit. -/
theorem balanced_refill (hbounds : f.root.bounds = ⟨some (count : Int), some (bytes : Int)⟩)
    (hsizes : ∀ t ∈ f.members, t.size = some (Item.total t.items : Int)) {items : List Item}
    (hc : (f.refill i items).itemCount ≤ count) (hb : (f.refill i items).itemBytes ≤ bytes) :
    (f.refill i items).Balanced count bytes where
  bounds := (bounds_refill f i items).trans hbounds
  held := held_refill f i items
  sizes := sizes_refill hsizes items
  count_le := hc
  bytes_le := hb

/-- Fewer items always fit. -/
theorem balanced_refill_of_le (h : f.Balanced count bytes) (hs : f.members[i]? = some s)
    {items : List Item} (hc : items.length ≤ s.items.length)
    (hb : Item.total items ≤ Item.total s.items) : (f.refill i items).Balanced count bytes := by
  have hcount := itemCount_refill hs items
  have hbytes := itemBytes_refill hs items
  have hcount_le := h.count_le
  have hbytes_le := h.bytes_le
  exact balanced_refill h.bounds h.sizes (by omega) (by omega)

theorem length_le_itemCount (hs : f.members[i]? = some s) : s.items.length ≤ f.itemCount := by
  have hcount := itemCount_refill hs []
  rw [List.length_nil] at hcount
  omega

theorem total_le_itemBytes (hs : f.members[i]? = some s) : Item.total s.items ≤ f.itemBytes := by
  have hbytes := itemBytes_refill hs []
  rw [Item.total_nil] at hbytes
  omega

/-! ## Operations on truthful families -/

/-- The counters move by the change in the items, so they arrive at the sums of the new items; in
particular no total becomes negative. -/
theorem settle_truthful (h : f.Truthful) (hs : f.members[i]? = some s)
    {items : List Item} {dc db : Int} (hc : dc + s.items.length = items.length)
    (hb : db + Item.total s.items = Item.total items) :
    settle i s items dc db f = .ok () (f.refill i items) := by
  have hcount := itemCount_refill hs items
  have hbytes := itemBytes_refill hs items
  have hsize : (Item.total s.items : Int) + db = Item.total items := by omega
  have hheldCount : (f.itemCount : Int) + dc = (f.refill i items).itemCount := by omega
  have hheldBytes : (f.itemBytes : Int) + db = (f.refill i items).itemBytes := by omega
  rw [settle_eq_ok h.held (h.size_eq hs) (by omega) (by omega)]
  congr 1
  refine ext_members ?_ ?_
  · have hset : (f.settled i s items f.itemCount f.itemBytes (Item.total s.items) dc db).members =
        f.members.set i (s.holding items) := by
      rw [settled, hsize]
      exact members_put f i _
    rw [hset, members_refill_eq_set hs]
  · rw [held_refill, ← hheldCount, ← hheldBytes]
    rfl

/-- Room is refused for the items first, and then for their bytes. -/
theorem reserve_balanced (h : f.Balanced count bytes) (n k : Nat) :
    f.reserve n k =
      if count < f.itemCount + n then .error (.refused (.tooManyItems count n))
      else if bytes < f.itemBytes + k then .error (.refused (.tooManyBytes bytes k))
      else .ok () := by
  simp only [reserve, Tally.reserve, h.held, h.bounds, Counter.number_some, Bound.check, bind, Except.bind]
  by_cases hc : count < f.itemCount + n
  · rw [if_neg (by omega), if_pos hc]
  · rw [if_pos (by omega), if_neg hc]
    by_cases hb : bytes < f.itemBytes + k
    · simp only
      rw [if_neg (by omega), if_pos hb]
    · simp only
      rw [if_pos (by omega), if_neg hb]

theorem pushItems_truthful (h : f.Truthful) (hs : f.members[i]? = some s) (xs : List Item) :
    pushItems i xs f =
      match f.reserve xs.length (Item.total xs) with
      | .error e => .error e f
      | .ok () => .ok () (f.refill i (xs.reverse ++ s.items)) := by
  have hsettle : settle i s (xs.reverse ++ s.items) xs.length (Item.total xs) f =
      .ok () (f.refill i (xs.reverse ++ s.items)) :=
    settle_truthful h hs (by simp) (by simp)
  cases hr : f.reserve xs.length (Item.total xs) with
  | error e => simp only [pushItems_apply, hs, hr]
  | ok u => simp only [pushItems_apply, hs, hr, hsettle]

/-- One item is put on as a batch of one. -/
theorem pushItem_eq_pushItems (i : Nat) (x : Item) (f : Family) :
    pushItem i x f = pushItems i [x] f := by
  rw [pushItem_apply, pushItems_apply]
  simp

theorem pushItem_balanced (h : f.Balanced count bytes) (hs : f.members[i]? = some s) {x : Item}
    (hc : f.itemCount + 1 ≤ count) (hb : f.itemBytes + x.size ≤ bytes) :
    pushItem i x f = .ok () (f.refill i (x :: s.items)) := by
  have hr : f.reserve [x].length (Item.total [x]) = .ok () := by
    have hlength : [x].length = 1 := rfl
    have htotal : Item.total [x] = x.size := by simp
    rw [reserve_balanced h, if_neg (by omega), if_neg (by omega)]
  rw [pushItem_eq_pushItems, pushItems_truthful h.truthful hs, hr]
  rfl

theorem pop_truthful (h : f.Truthful) (hs : f.members[i]? = some s) :
    pop i f =
      match s.items with
      | [] => .error (.refused .popEmpty) f
      | x :: rest => .ok x (f.refill i rest) := by
  cases hitems : s.items with
  | nil => simp only [pop_apply, hs, hitems]
  | cons x rest =>
    have hsettle : settle i s rest (-1) (-x.size) f = .ok () (f.refill i rest) :=
      settle_truthful h hs (by rw [hitems, List.length_cons]; omega)
        (by rw [hitems, Item.total_cons]; omega)
    simp only [pop_apply, hs, hitems, hsettle]

/-- An item that was taken from one member fits on every member, so a move inside a balanced family
is never refused. -/
theorem move_balanced {j : Nat} {t : Stack} {x : Item} {rest : List Item}
    (h : f.Balanced count bytes) (hs : f.members[i]? = some s) (hitems : s.items = x :: rest)
    (ht : (f.refill i rest).members[j]? = some t) :
    (pop i >>= pushItem j) f = .ok () ((f.refill i rest).refill j (x :: t.items)) := by
  have hpop : pop i f = .ok x (f.refill i rest) := by rw [pop_truthful h.truthful hs, hitems]
  have hc := itemCount_refill hs rest
  have hb := itemBytes_refill hs rest
  have hcount := h.count_le
  have hbytes := h.bytes_le
  simp only [hitems, List.length_cons, Item.total_cons] at hc hb
  have hrest : (f.refill i rest).Balanced count bytes :=
    balanced_refill h.bounds h.sizes (by omega) (by omega)
  rw [Action.bind_apply_ok hpop]
  exact pushItem_balanced hrest ht (by omega) (by omega)

/-- An item with the bytes of two others fits where these were taken away. -/
theorem merge_balanced {x y z : Item} {rest : List Item} (h : f.Balanced count bytes)
    (hs : f.members[i]? = some s) (hitems : s.items = y :: x :: rest)
    (hz : z.size = x.size + y.size) :
    (pop i >>= fun _ => pop i >>= fun _ => pushItem i z) f = .ok () (f.refill i (z :: rest)) := by
  have hpop : pop i f = .ok y (f.refill i (x :: rest)) := by rw [pop_truthful h.truthful hs, hitems]
  have hbalanced : (f.refill i (x :: rest)).Balanced count bytes :=
    balanced_refill_of_le h hs (by simp [hitems]) (by simp [hitems])
  have hpop' : pop i (f.refill i (x :: rest)) = .ok x (f.refill i rest) := by
    rw [pop_truthful hbalanced.truthful (member_refill_self hs _)]
    simp
  have hc := itemCount_refill hs rest
  have hb := itemBytes_refill hs rest
  have hcount := h.count_le
  have hbytes := h.bytes_le
  simp only [hitems, List.length_cons, Item.total_cons] at hc hb
  have hrest : (f.refill i rest).Balanced count bytes :=
    balanced_refill h.bounds h.sizes (by omega) (by omega)
  rw [Action.bind_apply_ok hpop, Action.bind_apply_ok hpop',
    pushItem_balanced hrest (member_refill_self hs _) (by omega) (by omega)]
  simp

/-- Taking items one after another comes to taking them all at once. -/
theorem popMany_truthful (n : Nat) (h : f.Truthful) (hs : f.members[i]? = some s)
    (hn : n ≤ s.items.length) : popMany i n f = .ok () (f.refill i (s.items.drop n)) := by
  induction n generalizing f s with
  | zero =>
    rw [List.drop_zero, refill_self h.held (h.size_eq hs) hs]
    rfl
  | succ n ih =>
    cases hitems : s.items with
    | nil => simp [hitems] at hn
    | cons x rest =>
      have hpop : pop i f = .ok x (f.refill i rest) := by rw [pop_truthful h hs, hitems]
      have ih' := ih (truthful_refill h i rest) (member_refill_self hs rest)
        (by simpa [hitems] using hn)
      simp only [popMany, Action.bind_apply_ok hpop, ih', Stack.items_holding, refill_refill,
        List.drop_succ_cons]

/-- The family with one more child. -/
def grown (f : Family) : Family := { f with children := f.children ++ [{ bounds := childBounds }] }

theorem members_grown (f : Family) :
    f.grown.members = f.members ++ [{ bounds := childBounds }] := rfl

theorem sum_grown {measure : List Item → Nat} (hm : measure [] = 0) (f : Family) :
    f.grown.sum measure = f.sum measure := by
  rw [sum, members_grown, List.foldr_append]
  simp [hm, sum]

theorem truthful_grown (h : f.Truthful) : f.grown.Truthful where
  held := by
    rw [itemCount, itemBytes, sum_grown rfl, sum_grown rfl]
    exact h.held
  sizes := by
    intro t ht
    rw [members_grown] at ht
    rcases List.mem_append.mp ht with hf | hchild
    · exact h.sizes t hf
    · rw [List.mem_singleton.mp hchild]
      rfl

theorem balanced_grown (h : f.Balanced count bytes) : f.grown.Balanced count bytes where
  bounds := h.bounds
  held := (truthful_grown h.truthful).held
  sizes := (truthful_grown h.truthful).sizes
  count_le := by
    rw [itemCount, sum_grown rfl]
    exact h.count_le
  bytes_le := by
    rw [itemBytes, sum_grown rfl]
    exact h.bytes_le

/-- The bookkeeping of an empty root is truthful. -/
theorem truthful_ofBounds (bounds : Bounds) : (ofBounds bounds).Truthful where
  held := rfl
  sizes := by
    intro s hs
    rw [List.mem_singleton.mp hs]
    rfl

theorem balanced_ofBounds (count bytes : Nat) :
    (ofBounds ⟨some (count : Int), some (bytes : Int)⟩).Balanced count bytes where
  bounds := rfl
  held := rfl
  sizes := (truthful_ofBounds _).sizes
  count_le := Nat.zero_le _
  bytes_le := Nat.zero_le _

theorem audit_balanced (h : f.Balanced count bytes) (hs : f.members[i]? = some s) :
    f.audit s = .ok () := by
  have hc := length_le_itemCount hs
  have hb := total_le_itemBytes hs
  have hcount := h.count_le
  have hbytes := h.bytes_le
  have hd : (s.depth : Int) ≤ count := by
    rw [Stack.depth]
    omega
  simp only [audit, Tally.audit, h.truthful.size_eq hs, h.held, h.bounds, Counter.number_some, Bound.check, bind,
    Except.bind, ne_eq, not_true_eq_false, if_false]
  rw [if_pos hd, if_pos (by omega)]
  simp only
  rw [if_pos (by omega)]
  simp only
  rw [if_pos (by omega)]

end Family

end Tapscript
