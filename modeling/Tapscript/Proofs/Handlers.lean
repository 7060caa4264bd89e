import Tapscript.Machine
import Tapscript.Proofs.Accounting

/-!
# What an opcode does to a machine

`Opcode.effect` says what an opcode does to the items of the two stacks, top first, without counters,
reservations or families. On a machine with a balanced family the opcodes do exactly that, and do it
at once: a refused opcode has changed nothing (`Machine.execute_sound`). In particular an item that
was taken from one stack always fits on the other.
-/

namespace Tapscript

/-! ## Effects -/

/-- The items of the main and the alt stack, both top first, after an opcode. -/
def Opcode.effect (bound : Bound) :
    Opcode → List Item → List Item → Except Fault (List Item × List Item)
  | toAlt, x :: main, alt => .ok (main, x :: alt)
  | toAlt, [], _ => .error (.refused (.mainTooShallow 0 1))
  | fromAlt, main, x :: alt => .ok (x :: main, alt)
  | fromAlt, _, [] => .error (.refused .altEmpty)
  | cat, y :: x :: main, alt => do
    bound.check (x.size + y.size) fun most => .refused (.joinTooLong (x.size + y.size) most)
    return ((x ++ y) :: main, alt)
  | cat, main, _ => .error (.refused (.mainTooShallow main.length 2))

namespace Opcode

/-- Bytes are neither made nor lost, and no item is added. -/
theorem effect_ok {bound : Bound} {op : Opcode} {main alt main' alt' : List Item}
    (h : op.effect bound main alt = .ok (main', alt')) :
    main'.length + alt'.length ≤ main.length + alt.length ∧
      Item.total main' + Item.total alt' = Item.total main + Item.total alt := by
  unfold effect at h
  split at h
  · cases h
    simp only [List.length_cons, Item.total_cons]
    omega
  · cases h
  · cases h
    simp only [List.length_cons, Item.total_cons]
    omega
  · cases h
  · rename_i y x main alt
    simp only [bind, Except.bind] at h
    split at h
    · cases h
    · cases h
      simp only [List.length_cons, Item.total_cons, Item.size_append]
      omega
  · cases h

/-- An opcode is refused for want of items or because its result is too long, and can go wrong only
without an item size to compare with. -/
theorem effect_error {bound : Bound} {op : Opcode} {main alt : List Item} {e : Fault}
    (h : op.effect bound main alt = .error e) :
    e = .mismatch ∨ ∃ r, e = .refused r ∧ (r.kind = .stackUnderflow ∨ r.kind = .oversize) := by
  unfold effect at h
  split at h
  · cases h
  · cases h
    exact Or.inr ⟨_, rfl, Or.inl rfl⟩
  · cases h
  · cases h
    exact Or.inr ⟨_, rfl, Or.inl rfl⟩
  · simp only [bind, Except.bind] at h
    split at h
    · rename_i e' he
      cases h
      exact (Bound.check_error he).imp_right fun ⟨_, hmost⟩ => ⟨_, hmost, Or.inr rfl⟩
    · cases h
  · cases h
    exact Or.inr ⟨_, rfl, Or.inl rfl⟩

end Opcode

/-- Two items are joined into the item with the bytes of both. -/
theorem Value.join_items (x y : Item) (bound : Bound) :
    Value.join (.item x) (.item y) bound =
      (do
        bound.check (x.size + y.size) fun most => .refused (.joinTooLong (x.size + y.size) most)
        return x ++ y) := by
  cases bound with
  | none => rfl
  | some most =>
    simp only [join, length?, bind, Except.bind, Bound.check]
    by_cases h : (x.size + y.size : Int) ≤ most
    · have hsize : (((⟨x.bytes ++ y.bytes⟩ : Item).size : Nat) : Int) ≤ most := by
        have := Item.size_append x y
        rw [show (⟨x.bytes ++ y.bytes⟩ : Item) = x ++ y from rfl]
        omega
      simp only [h, if_true, toBytes, content?, accept, wholeItem, bind, Except.bind, Bound.check,
        hsize]
      rfl
    · simp only [h, if_false]

theorem Value.eq_append_of_join {x y z : Item} {bound : Bound}
    (h : Value.join (.item x) (.item y) bound = .ok z) : x ++ y = z := by
  rw [join_items] at h
  simp only [bind, Except.bind] at h
  split at h
  · cases h
  · exact Except.ok.inj h

namespace Machine

/-! ## Machines with a balanced family -/

/-- The machine is held to its limits, and its family is balanced within them. -/
structure Sound (limits : Limits) (memory : Nat) (m : Machine) : Prop where
  limits_eq : m.limits = some limits
  balanced : m.family.Balanced (limits.stackElements - 1) memory
  alt : m.family.children ≠ []

/-- The machine with other items on its two stacks, both top first. -/
def arrange (m : Machine) (main alt : List Item) : Machine :=
  { m with family := (m.family.refill mainMember main).refill altMember alt }

variable {limits : Limits} {memory : Nat} {m : Machine}

theorem heldTo_sound (h : m.Sound limits memory) : m.heldTo = .ok limits := by
  rw [heldTo, h.limits_eq]

theorem member_main (m : Machine) : m.family.members[mainMember]? = some m.mainStack := rfl

theorem member_alt (h : m.family.children ≠ []) :
    m.family.members[altMember]? = some m.altStack := by
  obtain ⟨s, rest, hc⟩ := List.exists_cons_of_ne_nil h
  simp [Family.members, altMember, altStack, hc]

theorem member_alt_refill (h : m.family.children ≠ []) (main : List Item) :
    (m.family.refill mainMember main).members[altMember]? = some m.altStack := by
  rw [Family.member_refill_other _ (by decide), member_alt h]

/-- A change of the main stack alone. -/
theorem arrange_main (h : m.Sound limits memory) (main : List Item) :
    m.arrange main m.altStack.items = { m with family := m.family.refill mainMember main } := by
  have hself := Family.refill_self (Family.held_refill _ _ _)
    (h.balanced.truthful.size_eq (member_alt h.alt)) (member_alt_refill h.alt main)
  rw [arrange, hself]

theorem children_arrange (h : m.family.children ≠ []) (main alt : List Item) :
    (m.arrange main alt).family.children ≠ [] :=
  Family.children_refill (Family.children_refill h mainMember main) altMember alt

/-- The sums over the family change by what the two stacks change. -/
theorem sum_arrange (measure : List Item → Nat) (h : m.family.children ≠ [])
    (main alt : List Item) :
    (m.arrange main alt).family.sum measure + measure m.mainStack.items +
        measure m.altStack.items =
      m.family.sum measure + measure main + measure alt := by
  have hmain := Family.sum_refill measure (member_main m) main
  have halt := Family.sum_refill measure (member_alt_refill h main) alt
  simp only [arrange]
  omega

/-- The machine stays sound with other items on its stacks if there is room for them. -/
theorem sound_arrange (h : m.Sound limits memory) {main alt : List Item}
    (hc : m.family.itemCount + main.length + alt.length ≤
      limits.stackElements - 1 + m.mainStack.items.length + m.altStack.items.length)
    (hb : m.family.itemBytes + Item.total main + Item.total alt ≤
      memory + Item.total m.mainStack.items + Item.total m.altStack.items) :
    (m.arrange main alt).Sound limits memory where
  limits_eq := h.limits_eq
  balanced := by
    have hcount := sum_arrange List.length h.alt main alt
    have hbytes := sum_arrange Item.total h.alt main alt
    have hbounds := (Family.bounds_refill m.family mainMember main).trans h.balanced.bounds
    simp only [Family.itemCount, Family.itemBytes] at hc hb
    refine Family.balanced_refill (i := altMember) hbounds
      (Family.sizes_refill (i := mainMember) h.balanced.sizes main) ?_ ?_
    · change (m.arrange main alt).family.sum List.length ≤ _
      omega
    · change (m.arrange main alt).family.sum Item.total ≤ _
      omega
  alt := children_arrange h.alt main alt

/-! ## The opcodes -/

theorem requireDepth_apply (depth : Int) (m : Machine) :
    requireDepth depth m =
      if (m.mainStack.items.length : Int) < depth then
        .error (.refused (.mainTooShallow m.mainStack.items.length depth)) m
      else .ok () m := by
  unfold requireDepth
  rw [Action.get_bind_apply]
  by_cases h : (m.mainStack.depth : Int) < depth
  · rw [if_pos h, if_pos (show (m.mainStack.items.length : Int) < depth from h)]
    rfl
  · rw [if_neg h, if_neg (show ¬ (m.mainStack.items.length : Int) < depth from h)]
    rfl

theorem requireAlt_apply (m : Machine) :
    requireAlt m =
      if m.altStack.items.isEmpty then .error (.refused .altEmpty) m else .ok () m := by
  unfold requireAlt
  rw [Action.get_bind_apply]
  cases h : m.altStack.items <;> simp only [Stack.isEmpty, h] <;> rfl

theorem onFamily_ok {α : Type} {act : Action Family α} {a : α} {f : Family}
    (h : act m.family = .ok a f) : onFamily act m = .ok a { m with family := f } :=
  Action.focus_apply_ok h

theorem onFamily_bind {α β : Type} (act : Action Family α) (next : α → Action Family β) :
    (onFamily act >>= fun a => onFamily (next a)) = onFamily (act >>= next) := by
  funext m
  simp only [onFamily, Action.focus, Action.bind_apply]
  cases act m.family <;> rfl

theorem moveToAlt_sound (h : m.Sound limits memory) :
    moveToAlt m =
      match m.mainStack.items with
      | [] => .error (.refused (.mainTooShallow 0 1)) m
      | x :: rest => .ok () (m.arrange rest (x :: m.altStack.items)) := by
  unfold moveToAlt
  rw [Action.bind_apply, requireDepth_apply]
  cases hitems : m.mainStack.items with
  | nil => rfl
  | cons x rest =>
    have hmove := Family.move_balanced h.balanced (member_main m) hitems
      (member_alt_refill h.alt rest)
    rw [if_neg (by simp only [List.length_cons]; omega)]
    simp only [onFamily_bind]
    exact onFamily_ok hmove

theorem moveFromAlt_sound (h : m.Sound limits memory) :
    moveFromAlt m =
      match m.altStack.items with
      | [] => .error (.refused .altEmpty) m
      | x :: rest => .ok () (m.arrange (x :: m.mainStack.items) rest) := by
  unfold moveFromAlt
  rw [Action.bind_apply, requireAlt_apply]
  cases hitems : m.altStack.items with
  | nil => rfl
  | cons x rest =>
    have hmain : (m.family.refill altMember rest).members[mainMember]? = some m.mainStack := by
      rw [Family.member_refill_other _ (by decide), member_main]
    have hmove := Family.move_balanced h.balanced (member_alt h.alt) hitems hmain
    rw [Family.refill_comm _ (by decide : altMember ≠ mainMember)] at hmove
    rw [if_neg (by simp)]
    simp only [onFamily_bind]
    exact onFamily_ok hmove

theorem peek_apply {f : Family} {i : Nat} {s : Stack} (hs : f.members[i]? = some s) {n : Nat}
    {x : Item} (hx : s.items[n]? = some x) : Family.peek i n f = .ok x f := by
  have hmember : Family.member i f = .ok s f := by rw [Family.member_apply, hs]
  have hpeek : s.peek n = .ok x := by simp [Stack.peek, hx]
  unfold Family.peek
  rw [Action.bind_apply_ok hmember, hpeek]
  rfl

theorem concatenate_sound (h : m.Sound limits memory) :
    concatenate m =
      match m.mainStack.items with
      | y :: x :: rest =>
        match Value.join (.item x) (.item y) limits.itemBound with
        | .error e => .error e m
        | .ok z => .ok () (m.arrange (z :: rest) m.altStack.items)
      | short => .error (.refused (.mainTooShallow short.length 2)) m := by
  unfold concatenate
  rw [Action.bind_apply, requireDepth_apply]
  have hmain := member_main m
  match hitems : m.mainStack.items with
  | [] => rfl
  | [_] => rfl
  | y :: x :: rest =>
    have hlower : Family.peek mainMember 1 m.family = .ok x m.family :=
      peek_apply (n := 1) hmain (by simp [hitems])
    have hupper : Family.peek mainMember 0 m.family = .ok y m.family :=
      peek_apply (n := 0) hmain (by simp [hitems])
    rw [if_neg (by simp only [List.length_cons]; omega)]
    simp only [Action.bind_apply_ok (onFamily_ok hlower), Action.bind_apply_ok (onFamily_ok hupper),
      Action.get_bind_apply, heldTo_sound h, Action.bind_apply_ok (Action.check_ok limits _)]
    cases hjoin : Value.join (.item x) (.item y) limits.itemBound with
    | error e => rfl
    | ok z =>
      have hz : z.size = x.size + y.size := by
        rw [← Item.size_append, Value.eq_append_of_join hjoin]
      have hmerge := Family.merge_balanced h.balanced hmain hitems hz
      rw [Action.bind_apply_ok (Action.check_ok z _)]
      simp only [onFamily_bind, arrange_main h]
      exact onFamily_ok hmerge

/-- **Opcodes are atomic.** An opcode either has its whole effect, or stops and has changed
nothing. -/
theorem execute_sound (h : m.Sound limits memory) (op : Opcode) :
    execute op m =
      match op.effect limits.itemBound m.mainStack.items m.altStack.items with
      | .error e => .error e m
      | .ok (main, alt) => .ok () (m.arrange main alt) := by
  cases op with
  | toAlt =>
    rw [execute, moveToAlt_sound h]
    cases m.mainStack.items <;> rfl
  | fromAlt =>
    rw [execute, moveFromAlt_sound h]
    cases m.altStack.items <;> rfl
  | cat =>
    rw [execute, concatenate_sound h]
    match m.mainStack.items with
    | [] => rfl
    | [_] => rfl
    | y :: x :: rest =>
      simp only [Value.join_items, Opcode.effect]
      cases limits.itemBound.check (x.size + y.size)
        fun most => .refused (.joinTooLong (x.size + y.size) most) <;> rfl

end Machine

end Tapscript
