import Tapscript.Proofs.Atomicity
import Tapscript.Proofs.Conservation

/-!
# Where the item size holds

The witness and every concatenation are held to the item size of the limits. Bytes that are put on a
stack directly are held to the consensus size instead. So under an item size below the consensus size an
item can be put on a stack that is too long for the machine, whose check then fails, unless the other
limits have no room for such an item.

* `step_fitting`, `call_fitting`: what keeps a machine without an item that is too long.
* `item_size_holds_iff`: the limits under which no item is ever too long.
-/

namespace Tapscript

/-- Opcodes keep to a size that concatenation is held to. -/
theorem Opcode.sizes_effect {size : Nat} {op : Opcode} {main alt main' alt' : List Item}
    (h : op.effect (some (size : Int)) main alt = .ok (main', alt'))
    (hmain : ∀ x ∈ main, x.size ≤ size) (halt : ∀ x ∈ alt, x.size ≤ size) :
    (∀ x ∈ main', x.size ≤ size) ∧ ∀ x ∈ alt', x.size ≤ size := by
  unfold effect at h
  split at h
  · cases h
    rw [List.forall_mem_cons] at hmain
    exact ⟨hmain.2, List.forall_mem_cons.mpr ⟨hmain.1, halt⟩⟩
  · cases h
  · cases h
    rw [List.forall_mem_cons] at halt
    exact ⟨List.forall_mem_cons.mpr ⟨halt.1, hmain⟩, halt.2⟩
  · cases h
  · rename_i y x main
    simp only [bind, Except.bind] at h
    split at h
    · cases h
    · rename_i hcheck
      cases h
      obtain ⟨most, hmost, hsize⟩ := Bound.check_eq_ok_iff.mp hcheck
      cases hmost
      have hjoined : (x ++ y).size ≤ size := by
        rw [Item.size_append]
        omega
      rw [List.forall_mem_cons, List.forall_mem_cons] at hmain
      exact ⟨List.forall_mem_cons.mpr ⟨hjoined, hmain.2.2⟩, halt⟩
  · cases h

/-! ## Families -/

namespace Family

variable {size i : Nat} {f : Family} {c : Call}

/-- No item on any member has more than `size` bytes. -/
def ItemsWithin (size : Nat) (f : Family) : Prop :=
  ∀ s ∈ f.members, ∀ x ∈ s.items, x.size ≤ size

theorem itemsWithin_refill (h : f.ItemsWithin size) (i : Nat) {items : List Item}
    (hitems : ∀ x ∈ items, x.size ≤ size) : (f.refill i items).ItemsWithin size :=
  forall_members_refill h fun _ => hitems

theorem itemsWithin_grown (h : f.ItemsWithin size) : f.grown.ItemsWithin size := by
  intro s hs
  rw [members_grown, List.mem_append, List.mem_singleton] at hs
  rcases hs with hs | rfl
  · exact h s hs
  · intro x hx
    cases hx

theorem perform_itemsWithin (hf : f.Truthful) (h : f.ItemsWithin size)
    (hc : ∀ xs, c.Brings xs → ∀ x ∈ xs, x.size ≤ size) :
    ((perform i c).after f).ItemsWithin size := by
  have hending := perform_ending hf i c
  unfold Action.after
  generalize perform i c f = result at hending
  cases hending with
  | stopped _ => exact h
  | looked a => exact h
  | taken a hs n =>
    exact itemsWithin_refill h i fun x hx =>
      h _ (List.mem_of_getElem? hs) x (List.mem_of_mem_drop hx)
  | put a hs hxs _ =>
    refine itemsWithin_refill h i fun x hx => ?_
    rcases List.mem_append.mp hx with hx | hx
    · exact hc _ hxs x (List.mem_reverse.mp hx)
    · exact h _ (List.mem_of_getElem? hs) x hx
  | grown a _ => exact itemsWithin_grown h

theorem itemsWithin_itemBytes (f : Family) : f.ItemsWithin f.itemBytes := by
  intro s hs x hx
  obtain ⟨i, hi⟩ := List.mem_iff_getElem?.mp hs
  have htotal := total_le_itemBytes hi
  have hitem : x.size ≤ Item.total s.items := Item.size_le_total hx
  omega

end Family

/-! ## Machines -/

namespace Machine

variable {limits : Limits} {memory size : Nat} {m m' : Machine}

/-- A sound machine without an item of more than `size` bytes. -/
structure Fitting (limits : Limits) (memory size : Nat) (m : Machine) : Prop where
  sound : m.Sound limits memory
  within : m.family.ItemsWithin size

theorem Fitting.items_le (h : m.Fitting limits memory size) :
    ∀ x ∈ m.mainStack.items ++ m.altStack.items, x.size ≤ size := by
  intro x hx
  rcases List.mem_append.mp hx with hx | hx
  · exact h.within _ (List.mem_of_getElem? (member_main m)) x hx
  · exact h.within _ (List.mem_of_getElem? (member_alt h.sound.alt)) x hx

theorem audit_fitting (hi : limits.itemSize = some size) (h : m.Fitting limits memory size) :
    m.audit = .ok () := by
  rw [audit_sound h.sound, sizeCheck_ok hi h.items_le]

theorem execute_fitting (hi : limits.itemSize = some size) (op : Opcode) :
    (execute op).Safe (Fitting limits memory size) (· ≠ .broken) := by
  intro m h
  have hbound : limits.itemBound = some (size : Int) := by
    rw [Limits.itemBound, hi]
    rfl
  rw [execute_sound h.sound, hbound]
  cases heffect : op.effect (some (size : Int)) m.mainStack.items m.altStack.items with
  | error e =>
    rcases Opcode.effect_error heffect with rfl | ⟨r, rfl, -⟩ <;> exact ⟨h, by simp⟩
  | ok effect =>
    obtain ⟨main, alt⟩ := effect
    have hle := List.forall_mem_append.mp h.items_le
    obtain ⟨hmain, halt⟩ := Opcode.sizes_effect heffect hle.1 hle.2
    have hroom := Opcode.effect_ok heffect
    have hcount := h.sound.balanced.count_le
    have hbytes := h.sound.balanced.bytes_le
    exact ⟨sound_arrange h.sound (by omega) (by omega),
      Family.itemsWithin_refill (Family.itemsWithin_refill h.within mainMember hmain) altMember halt⟩

theorem dispatch_fitting (hi : limits.itemSize = some size) (op : Value) :
    (dispatch op).Safe (Fitting limits memory size) (· ≠ .broken) := by
  intro m h
  cases op with
  | int code =>
    cases hcode : Opcode.ofCode? code with
    | none =>
      simp only [dispatch, hcode]
      exact ⟨h, by simp⟩
    | some c =>
      simp only [dispatch, hcode]
      exact execute_fitting hi c m h
  | _ => exact ⟨h, by simp⟩

/-- A step keeps a machine without an item that is too long, so its last check passes. -/
theorem step_fitting (hi : limits.itemSize = some size) (op : Value) :
    (step op).Safe (Fitting limits memory size) (· ≠ .broken) := by
  refine Action.safe_bind ?_ (fun _ => Action.safe_bind (dispatch_fitting hi op) (fun _ =>
    Action.safe_bind ?_ (fun _ => Action.safe_get_bind ?_)))
  · intro m h
    have hcounted : (m.counted 1).Fitting limits memory size := ⟨sound_counted h.sound 1, h.within⟩
    rcases bump_cases h.sound 1 with hbump | ⟨most, hbump⟩
    · rw [hbump]
      exact hcounted
    · rw [hbump]
      exact ⟨hcounted, nofun⟩
  · intro m h
    rw [requireRoom_sound h.sound]
    exact h
  · intro m h
    rw [audit_fitting hi h]
    exact Action.safe_check nofun

theorem call_ok {i : Nat} {c : Family.Call} (h : use (.call i c) m = .ok () m') :
    m' = { m with family := (Family.perform i c).after m.family } := by
  simp only [use, Action.bind_apply, onFamily, Action.focus] at h
  unfold Action.after
  cases hperform : Family.perform i c m.family with
  | error e f =>
    rw [hperform] at h
    cases h
  | ok reply f =>
    rw [hperform] at h
    cases h
    rfl

/-- So does a call that brings in no such item. -/
theorem call_fitting {i : Nat} {c : Family.Call} (hc : ∀ xs, c.Brings xs → ∀ x ∈ xs, x.size ≤ size)
    (h : m.Fitting limits memory size) (hcall : use (.call i c) m = .ok () m') :
    m'.Fitting limits memory size := by
  refine ⟨(use_safe _).returned h.sound hcall, ?_⟩
  rw [call_ok hcall]
  exact Family.perform_itemsWithin h.sound.balanced.truthful h.within hc

theorem fitting_of_start (hi : limits.itemSize = some size) (hm : limits.stackMemory = some memory)
    {witness script : Value} (h : start limits witness script = .ok m) :
    m.Fitting limits memory size := by
  obtain ⟨vs, items, ops, memory', -, hitems, -, hm', hlaunch⟩ := start_ok h
  obtain rfl : memory' = memory := Option.some.inj (hm'.symm.trans hm)
  refine ⟨sound_of_launch hm hlaunch, ?_⟩
  obtain ⟨-, -, rfl⟩ := launch_ok hlaunch
  have hsizes := (Limits.mapM_accept_ok hi hitems).2
  have hblank : (blank limits items ops).family.ItemsWithin size := by
    intro s hs
    simp only [blank, emptyFamily, Family.members, List.mem_cons, List.not_mem_nil, or_false] at hs
    rcases hs with rfl | rfl <;> exact List.forall_mem_nil _
  refine Family.itemsWithin_refill (Family.itemsWithin_refill hblank mainMember ?_) altMember
    (List.forall_mem_nil _)
  intro x hx
  exact hsizes x (List.mem_reverse.mp hx)

/-- Without room for a long item a sound machine holds none. -/
theorem fitting_of_room (h : m.Sound limits memory)
    (hroom : limits.stackElements = 1 ∨ memory ≤ size) : m.Fitting limits memory size := by
  refine ⟨h, ?_⟩
  intro s hs x hx
  rcases hroom with hone | hmemory
  · obtain ⟨i, hi⟩ := List.mem_iff_getElem?.mp hs
    have hlength := Family.length_le_itemCount hi
    have hpos := List.length_pos_of_mem hx
    have hcount := h.balanced.count_le
    omega
  · have hbytes := h.balanced.bytes_le
    have hitem := Family.itemsWithin_itemBytes m.family s hs x hx
    omega

/-! ## Bytes put on the stacks directly -/

/-- Steps, and pushing, extending and popping the main or the alt stack with items given as bytes. -/
inductive Use.Direct : Use → Prop
  | step (op : Int) : Direct (.step (.int op))
  | push {i : Nat} (hi : i = mainMember ∨ i = altMember) (content : Array UInt8) :
    Direct (.call i (.push (.bytes content)))
  | extend {i : Nat} (hi : i = mainMember ∨ i = altMember) {v : Value} {contents : List (Array UInt8)}
    (hv : v.elements = .ok (contents.map .bytes)) : Direct (.call i (.extend v))
  | pop {i : Nat} (hi : i = mainMember ∨ i = altMember) : Direct (.call i .pop)

/-- The machines that a start and then direct uses lead to, each of which returned. -/
inductive DirectlyReached (limits : Limits) : Machine → Prop
  | started {witness script : Value} {m : Machine} (h : start limits witness script = .ok m) :
    DirectlyReached limits m
  | used {u : Use} {m m' : Machine} (h : DirectlyReached limits m) (hu : u.Direct)
    (huse : use u m = .ok () m') : DirectlyReached limits m'

theorem size_le_of_asItem_bytes {content : Array UInt8} {x : Item}
    (h : (Value.bytes content).asItem = .ok x) : x.size ≤ maxItemSize := by
  rw [Value.asItem_eq, unlessFlaw_eq_ok_iff] at h
  obtain ⟨hflaw, rfl⟩ := h
  have hshort : (Value.bytes content).flaw? maxItemSize = none := hflaw
  exact (Value.content?_eq_of_flaw? hshort).2

theorem Use.Direct.brings_le {i : Nat} {c : Family.Call} (h : (Use.call i c).Direct) :
    ∀ xs, c.Brings xs → ∀ x ∈ xs, x.size ≤ maxItemSize := by
  intro xs hxs x hx
  cases h with
  | push _ content =>
    obtain ⟨y, hy, rfl⟩ := hxs
    obtain rfl := List.mem_singleton.mp hx
    exact size_le_of_asItem_bytes hy
  | extend _ hv =>
    obtain ⟨vs, hvs, hitems⟩ := hxs
    obtain rfl := Except.ok.inj (hv.symm.trans hvs)
    have hmem : Except.ok x ∈ xs.map (Except.ok (ε := Fault)) := List.mem_map_of_mem hx
    rw [← map_eq_of_mapM_ok hitems, List.map_map] at hmem
    obtain ⟨content, -, hcontent⟩ := List.mem_map.mp hmem
    exact size_le_of_asItem_bytes hcontent
  | pop _ => cases hxs

theorem fitting_of_directlyReached {rules : Rules}
    (hrules : maxItemSize ≤ rules.itemSize ∨ rules.stackElements = 1 ∨
      rules.stackMemory ≤ rules.itemSize) (h : DirectlyReached rules.limits m) :
    m.Fitting rules.limits rules.stackMemory rules.itemSize := by
  induction h with
  | started h => exact fitting_of_start rfl rfl h
  | @used u _ _ _ hu huse ih =>
    cases u with
    | step op => exact (step_fitting rfl op).returned ih huse
    | call i c =>
      rcases hrules with hsize | hroom
      · exact call_fitting (fun xs hxs x hx => Nat.le_trans (hu.brings_le xs hxs x hx) hsize) ih huse
      · exact fitting_of_room ((use_safe _).returned ih.sound huse) hroom
    | _ => cases hu

theorem start_empty (rules : Rules) :
    start rules.limits (.list []) (.list []) = .ok ((blank rules.limits [] []).arrange [] []) := by
  have hcount : ¬ rules.limits.stackElements ≤ ([] : List Item).length :=
    Nat.not_le.mpr rules.stackElements_pos
  have hbytes : ¬ rules.stackMemory < Item.total [] := Nat.not_lt_zero _
  rw [start_seeded]
  change seeded rules.limits [] [] = _
  rw [seeded_eq_launch rfl, launch, if_neg hcount, if_neg hbytes]
  rfl

/-- Bytes within the consensus size are put on the main stack whatever the item size, if there is
room. -/
theorem push_bytes (h : m.Sound limits memory) {x : Item} (hx : x.size ≤ maxItemSize)
    (hc : m.family.itemCount + 1 ≤ limits.stackElements - 1)
    (hb : m.family.itemBytes + x.size ≤ memory) :
    use (.call mainMember (.push (.bytes x.bytes))) m =
      .ok () (m.arrange (x :: m.mainStack.items) m.altStack.items) := by
  have hitem : (Value.bytes x.bytes).asItem = .ok x := by
    have hcheck : Bound.check (some (maxItemSize : Int)) x.size
        (fun most => .refused (.itemTooLong x.size most)) = .ok () :=
      Bound.check_eq_ok_iff.mpr ⟨maxItemSize, rfl, Int.ofNat_le.mpr hx⟩
    change (Bound.check (some (maxItemSize : Int)) x.size _ >>= fun _ => .ok x) = .ok x
    rw [hcheck]
    rfl
  have hpush := Family.pushItem_balanced h.balanced (member_main m) hc hb
  rw [← Family.push_apply_ok hitem] at hpush
  have hperform : Family.perform mainMember (.push (.bytes x.bytes)) m.family =
      .ok .done (m.family.refill mainMember (x :: m.mainStack.items)) :=
    Action.bind_apply_ok hpush _
  rw [arrange_main h, use, Action.bind_apply_ok (onFamily_ok hperform)]
  rfl

/-- **Where the item size holds.** Take machines that started within given rules and were stepped, pushed
to, extended and popped directly, with items given as bytes. No item on them is longer than the item
size, so that their check passes and no further step finds anything broken, exactly when the item size is
not below the consensus size, or no item fits at all, or only items within the item size fit the
memory. -/
theorem item_size_holds_iff (rules : Rules) :
    (∀ m, DirectlyReached rules.limits m →
      (∀ x ∈ m.mainStack.items ++ m.altStack.items, x.size ≤ rules.itemSize) ∧
        m.audit = .ok () ∧ ∀ op m', step op m ≠ .error .broken m') ↔
      maxItemSize ≤ rules.itemSize ∨ rules.stackElements = 1 ∨
        rules.stackMemory ≤ rules.itemSize := by
  constructor
  · intro hholds
    refine Decidable.by_contra fun hrules => ?_
    have hpos := rules.stackElements_pos
    -- An empty machine, and one byte more than the item size.
    let x : Item := ⟨Array.replicate (rules.itemSize + 1) 0⟩
    have hx : x.size = rules.itemSize + 1 := Array.size_replicate
    have hstart := start_empty rules
    have hsound := (fitting_of_start rfl rfl hstart).sound
    have hpush := push_bytes hsound (x := x) (by omega)
      (show 0 + 1 ≤ rules.stackElements - 1 by omega) (show 0 + x.size ≤ rules.stackMemory by omega)
    have hreached := (DirectlyReached.started hstart).used (.push (Or.inl rfl) _) hpush
    have hle := (hholds _ hreached).1 x (List.mem_append_left _ List.mem_cons_self)
    omega
  · intro hrules m h
    have hfits := fitting_of_directlyReached hrules h
    refine ⟨hfits.items_le, audit_fitting rfl hfits, ?_⟩
    intro op m' hstep
    exact (step_fitting rfl op).fault hfits hstep rfl

/-- Three bytes pushed under an item size of two are accepted. The check of the machine then fails, and so
does the next step. -/
theorem item_size_exceeded_by_push :
    let limits : Limits := ⟨some 2, 5, some 6, none, by decide⟩
    let m₀ := (blank limits [] []).arrange [] []
    let m := m₀.arrange [⟨#[1, 2, 3]⟩] []
    start limits (.list []) (.list []) = .ok m₀ ∧
      use (.call mainMember (.push (.bytes #[1, 2, 3]))) m₀ = .ok () m ∧
      DirectlyReached limits m ∧ (⟨#[1, 2, 3]⟩ : Item) ∈ m.mainStack.items ∧
      m.audit = .error .broken ∧ ∃ m', step (.int 0x6b) m = .error .broken m' := by
  intro limits m₀ m
  have hstart : start limits (.list []) (.list []) = .ok m₀ := rfl
  have hpush : use (.call mainMember (.push (.bytes #[1, 2, 3]))) m₀ = .ok () m := rfl
  have hstep : step (.int 0x6b) m = .error .broken _ := Action.apply_of_fault? (by decide +kernel)
  exact ⟨hstart, hpush, (DirectlyReached.started hstart).used (.push (Or.inl rfl) _) hpush,
    List.mem_cons_self, rfl, _, hstep⟩

end Machine

end Tapscript
