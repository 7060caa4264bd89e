import Tapscript.Proofs.Accounting
import Tapscript.Proofs.Lineage

/-!
# A call on a stack is a call on its family

A stack of a store climbs to its root and works on the counters it finds there; a member of a family
works on the totals of the family. The two come to the same: a call on a stack has the outcome that the
call on the member has, and it leaves the family that the call on the member leaves. Nothing outside
this family changes (`Store.Within`), neither the parents, nor another stack, nor the totals that lie
unused on the children.

* `Within.eq`: a change within a family is known by the family it leaves.
* `Mirrors.bind`: what mirrors step by step mirrors as a whole.
* `account_mirrors`: moving the counters of the root and of the stack is `Family.settle`.
* `perform_mirrors`: every call that makes no child.
* `call_mirrors_family`: every call, with the families it leaves alone.
-/

namespace Tapscript

theorem Family.put_put_held (f : Family) (k : Nat) (s t : Stack) (held : Tally) :
    Family.put { f.put k s with held } k t = { f.put k t with held } := by
  cases k with
  | zero => rfl
  | succ k => simp [Family.put]

namespace Store

variable {w w' w'' : Store} {i j k r : Nat}

/-! ## Changes within a family -/

/-- The store `w'` differs from `w` within the family of `r` only: in its stacks, and in the totals of
its root. -/
structure Within (r : Nat) (w w' : Store) : Prop where
  length : w'.nodes.length = w.nodes.length
  parents : ∀ j, w'.parentOf j = w.parentOf j
  others : ∀ j, w.rootOf j ≠ r → w'.nodeAt j = w.nodeAt j
  totals : ∀ j, j ≠ r → w'.heldAt j = w.heldAt j

/-- Two stores with the same stacks are the same. -/
theorem ext_nodeAt {v : Store} (hlength : v.nodes.length = w.nodes.length)
    (hnode : ∀ j, v.nodeAt j = w.nodeAt j) : v = w := by
  ext1
  apply List.ext_getElem?
  intro j
  by_cases hj : j < w.nodes.length
  · rw [getElem?_nodes hj, getElem?_nodes (hlength ▸ hj), hnode]
  · rw [List.getElem?_eq_none (by omega), List.getElem?_eq_none (by omega)]

namespace Within

theorem refl (r : Nat) (w : Store) : Within r w w :=
  ⟨rfl, fun _ => rfl, fun _ _ => rfl, fun _ _ => rfl⟩

theorem rootOf (h : Within r w w') (i : Nat) : w'.rootOf i = w.rootOf i := rootOf_congr h.parents i

theorem kin (h : Within r w w') (r' : Nat) : w'.kin r' = w.kin r' := kin_congr h.parents h.length r'

theorem trans (h : Within r w w') (h' : Within r w' w'') : Within r w w'' where
  length := h'.length.trans h.length
  parents := fun j => (h'.parents j).trans (h.parents j)
  others := fun j hj => (h'.others j (h.rootOf j ▸ hj)).trans (h.others j hj)
  totals := fun j hj => (h'.totals j hj).trans (h.totals j hj)

theorem isRoot {r' : Nat} (h : Within r w w') (hr : w.IsRoot r') : w'.IsRoot r' where
  lt := h.length ▸ hr.lt
  parent := (h.parents r').trans hr.parent

/-- Another family does not change. -/
theorem family_other {r' : Nat} (h : Within r w w') (hr : w.IsRoot r') (hne : r' ≠ r) :
    w'.family r' = w.family r' := by
  refine family_congr hr (h.kin r') ?_
  intro i hi
  apply h.others
  rw [(mem_kin.mp hi).2]
  exact hne

/-- A change within a family is known by the family it leaves. -/
theorem eq {w₁ w₂ : Store} (hr : w.IsRoot r) (h₁ : Within r w w₁) (h₂ : Within r w w₂)
    (hf : w₁.family r = w₂.family r) : w₁ = w₂ := by
  have hstacks : (w.kin r).map w₁.stackAt = (w.kin r).map w₂.stackAt := by
    rw [← h₁.kin r, ← members_family (h₁.isRoot hr), hf, members_family (h₂.isRoot hr), h₂.kin r,
      h₁.kin r]
  refine ext_nodeAt (h₁.length.trans h₂.length.symm) ?_
  intro j
  by_cases hj : w.rootOf j = r
  · ext1
    · rw [← parentOf_eq, ← parentOf_eq, h₁.parents, h₂.parents]
    · exact List.map_inj_left.mp hstacks j (mem_kin_of_rootOf hr hj)
    · by_cases hjr : j = r
      · subst hjr
        exact congrArg Family.held hf
      · exact (h₁.totals j hjr).trans (h₂.totals j hjr).symm
  · rw [h₁.others j hj, h₂.others j hj]

end Within

/-! ## Changes of one stack -/

section Update

variable {change : Node → Node} {h : ∀ n, (change n).parent = n.parent}

theorem length_update : (w.update i change h).nodes.length = w.nodes.length :=
  List.length_modify ..

theorem nodeAt_update_self (hi : i < w.nodes.length) :
    (w.update i change h).nodeAt i = change (w.nodeAt i) := by
  rw [nodeAt, update, List.getElem?_modify_eq, getElem?_nodes hi]
  rfl

theorem nodeAt_update_other (hij : i ≠ j) : (w.update i change h).nodeAt j = w.nodeAt j := by
  rw [nodeAt, update, List.getElem?_modify_ne _ _ hij, nodeAt]

/-- What a change leaves alone in a stack it leaves alone in the store. -/
theorem nodeAt_update_field {β : Type} (field : Node → β) (hfield : ∀ n, field (change n) = field n)
    (j : Nat) : field ((w.update i change h).nodeAt j) = field (w.nodeAt j) := by
  by_cases hij : i = j
  · subst hij
    by_cases hi : i < w.nodes.length
    · rw [nodeAt_update_self hi, hfield]
    · rw [nodeAt, nodeAt, update, List.getElem?_modify_eq,
        List.getElem?_eq_none (Nat.le_of_not_lt hi)]
      rfl
  · rw [nodeAt_update_other hij]

theorem parentOf_update (j : Nat) : (w.update i change h).parentOf j = w.parentOf j := by
  rw [parentOf_eq, parentOf_eq, nodeAt_update_field Node.parent h]

end Update

theorem stackAt_restack (hi : i < w.nodes.length) (change : Stack → Stack) :
    (w.restack i change).stackAt i = change (w.stackAt i) :=
  congrArg Node.stack (nodeAt_update_self hi)

theorem heldAt_restack (w : Store) (i j : Nat) (change : Stack → Stack) :
    (w.restack i change).heldAt j = w.heldAt j :=
  nodeAt_update_field Node.held (fun _ => by rfl) j

theorem heldAt_retally (hi : i < w.nodes.length) (change : Tally → Tally) :
    (w.retally i change).heldAt i = change (w.heldAt i) :=
  congrArg Node.held (nodeAt_update_self hi)

theorem stackAt_retally (w : Store) (i j : Nat) (change : Tally → Tally) :
    (w.retally i change).stackAt j = w.stackAt j :=
  nodeAt_update_field Node.stack (fun _ => by rfl) j

theorem within_restack (hi : w.rootOf i = r) (change : Stack → Stack) :
    Within r w (w.restack i change) where
  length := length_update
  parents := parentOf_update
  others := by
    intro j hj
    apply nodeAt_update_other
    rintro rfl
    exact hj hi
  totals := fun j _ => heldAt_restack w i j change

theorem within_retally (hr : w.IsRoot r) (change : Tally → Tally) :
    Within r w (w.retally r change) where
  length := length_update
  parents := parentOf_update
  others := by
    intro j hj
    apply nodeAt_update_other
    rintro rfl
    exact hj (rootOf_of_none hr.parent)
  totals := fun j hj => congrArg Node.held (nodeAt_update_other hj.symm)

/-- A new stack in the store is a new member of the family. -/
theorem family_restack (hk : (w.kin r)[k]? = some i) (change : Stack → Stack) :
    (w.restack i change).family r = (w.family r).put k (change (w.stackAt i)) := by
  obtain ⟨hlt, hroot⟩ := mem_kin.mp (List.mem_of_getElem? hk)
  have hr := isRoot_of_mem (List.mem_of_getElem? hk)
  have hwithin := within_restack hroot change
  have hstack : (w.restack i change).stackAt =
      Function.update w.stackAt i (change (w.stackAt i)) := by
    funext j
    by_cases hij : j = i
    · subst hij
      rw [stackAt_restack hlt, Function.update_self]
    · rw [Function.update_of_ne hij]
      exact congrArg Node.stack (nodeAt_update_other (Ne.symm hij))
  apply Family.ext_members
  · rw [members_family (hwithin.isRoot hr), hwithin.kin, hstack, (nodup_kin w r).map_update,
      if_pos (List.mem_of_getElem? hk), idxOf_kin hk, Family.members_put, members_family hr]
  · rw [Family.held_put]
    exact heldAt_restack w i r change

theorem family_retally (hr : w.IsRoot r) (change : Tally → Tally) :
    (w.retally r change).family r = { w.family r with held := change (w.heldAt r) } := by
  have hwithin := within_retally hr change
  have hstack : (w.retally r change).stackAt = w.stackAt := by
    funext j
    exact stackAt_retally w r j change
  apply Family.ext_members
  · rw [members_family (hwithin.isRoot hr), hwithin.kin, hstack, ← members_family hr]
    rfl
  · exact heldAt_retally hr.lt change

/-! ## Mirrored results -/

/-- A result on a store and a result on a family: the same return or the same fault, with a change within
the family of `r` that leaves it as the other result does. -/
inductive Mirrors (r : Nat) (w : Store) {α : Type} :
    EStateM.Result Fault Store α → EStateM.Result Fault Family α → Prop
  | ok (a : α) {w' : Store} (h : Within r w w') : Mirrors r w (.ok a w') (.ok a (w'.family r))
  | error (e : Fault) {w' : Store} (h : Within r w w') :
    Mirrors r w (.error e w') (.error e (w'.family r))

namespace Mirrors

variable {α β : Type}

theorem of_eq_ok {a : α} {f : Family} (h : Within r w w') (hf : w'.family r = f) :
    Mirrors r w (.ok a w') (.ok a f) := hf ▸ .ok a h

theorem of_eq_error {e : Fault} {f : Family} (h : Within r w w') (hf : w'.family r = f) :
    Mirrors r w (.error e w' : EStateM.Result Fault Store α) (.error e f) := hf ▸ .error e h

theorem check (x : Except Fault α) : Mirrors r w (Action.check x w) (Action.check x (w.family r)) := by
  cases x with
  | error e => exact .error e (.refl r w)
  | ok a => exact .ok a (.refl r w)

theorem from_start {x : EStateM.Result Fault Store α} {y : EStateM.Result Fault Family α}
    (h : Within r w w') (hxy : Mirrors r w' x y) : Mirrors r w x y := by
  cases hxy with
  | ok a h' => exact .ok a (h.trans h')
  | error e h' => exact .error e (h.trans h')

/-- What mirrors step by step mirrors as a whole. -/
theorem bind {act : Action Store α} {act' : Action Family α} {next : α → Action Store β}
    {next' : α → Action Family β} (h : Mirrors r w (act w) (act' (w.family r)))
    (hnext : ∀ a w', Within r w w' → Mirrors r w' (next a w') (next' a (w'.family r))) :
    Mirrors r w ((act >>= next) w) ((act' >>= next') (w.family r)) := by
  rw [Action.bind_apply, Action.bind_apply]
  generalize act w = x, act' (w.family r) = y at h
  cases h with
  | ok a h => exact (hnext a _ h).from_start h
  | error e h => exact .error e h

theorem reply {act : Action Store α} {act' : Action Family α}
    (h : Mirrors r w (act w) (act' (w.family r))) (answer : α → β) :
    Mirrors r w ((act >>= fun a => pure (answer a)) w)
      ((act' >>= fun a => pure (answer a)) (w.family r)) :=
  h.bind fun a w' _ => .ok (answer a) (.refl r w')

end Mirrors

/-! ## Operations on a stack -/

theorem node_apply (hi : i < w.nodes.length) : node i w = .ok (w.nodeAt i) w := by
  unfold node
  rw [getElem?_nodes hi]

/-- Looking at a stack is looking at the member. -/
theorem Mirrors.look {α : Type} {next : Node → Action Store α} {next' : Stack → Action Family α}
    (hk : (w.kin r)[k]? = some i)
    (h : Mirrors r w (next (w.nodeAt i) w) (next' (w.stackAt i) (w.family r))) :
    Mirrors r w ((node i >>= next) w) ((Family.member k >>= next') (w.family r)) := by
  have hmember : Family.member k (w.family r) = .ok (w.stackAt i) (w.family r) := by
    rw [Family.member_apply, member_family hk]
  rw [Action.bind_apply_ok (node_apply (lt_of_getElem?_kin hk)), Action.bind_apply_ok hmember]
  exact h

theorem reserve_apply (hi : i ∈ w.kin r) (count bytes : Int) :
    reserve i count bytes w = Action.check ((w.family r).reserve count bytes) w := by
  obtain ⟨-, rfl⟩ := mem_kin.mp hi
  unfold reserve
  rw [Action.get_bind_apply, Action.bind_apply_ok (node_apply (isRoot_of_mem hi).lt)]
  rfl

theorem audit_apply (hi : i ∈ w.kin r) :
    audit i w = Action.check ((w.family r).audit (w.stackAt i)) w := by
  obtain ⟨hlt, rfl⟩ := mem_kin.mp hi
  unfold audit
  rw [Action.bind_apply_ok (node_apply hlt), Action.get_bind_apply,
    Action.bind_apply_ok (node_apply (isRoot_of_mem hi).lt)]
  rfl

/-- One counter after another moves, as long as they have numbers. -/
theorem account_apply (hi : i ∈ w.kin r) (count bytes : Int) :
    account i count bytes w =
      match (w.heldAt r).count, (w.heldAt r).bytes, (w.stackAt i).size with
      | none, _, _ => .error .mismatch w
      | some c, none, _ =>
        .error .mismatch (w.retally r ({ · with count := some (c + count) }))
      | some c, some b, none =>
        .error .mismatch ((w.retally r ({ · with count := some (c + count) })).retally r
          ({ · with bytes := some (b + bytes) }))
      | some c, some b, some n =>
        let w' := ((w.retally r ({ · with count := some (c + count) })).retally r
          ({ · with bytes := some (b + bytes) })).restack i ({ · with size := some (n + bytes) })
        if 0 ≤ c + count ∧ 0 ≤ b + bytes then .ok () w' else .error .broken w' := by
  have hr := isRoot_of_mem hi
  obtain ⟨hlt, hroot⟩ := mem_kin.mp hi
  unfold account
  rw [Action.get_bind_apply, hroot, Action.bind_apply_ok (node_apply hr.lt)]
  cases hc : (w.heldAt r).count with
  | none =>
    have hnumber : (w.nodeAt r).held.count.number = .error .mismatch := congrArg Counter.number hc
    rw [hnumber]
    rfl
  | some c =>
    have hnumber : (w.nodeAt r).held.count.number = .ok c := congrArg Counter.number hc
    let w₁ := w.retally r ({ · with count := some (c + count) })
    have hr₁ : w₁.IsRoot r := (within_retally hr _).isRoot hr
    have hheld : (w₁.nodeAt r).held = { w.heldAt r with count := some (c + count) } :=
      heldAt_retally hr.lt _
    rw [hnumber, Action.bind_apply_ok (Action.check_ok c w), Action.modify_bind_apply,
      Action.bind_apply_ok (node_apply hr₁.lt), hheld]
    cases hb : (w.heldAt r).bytes with
    | none => rfl
    | some b =>
      let w₂ := w₁.retally r ({ · with bytes := some (b + bytes) })
      have hlt₂ : i < w₂.nodes.length := by
        rw [(within_retally hr₁ _).length, (within_retally hr _).length]
        exact hlt
      have hsize : (w₂.nodeAt i).stack = w.stackAt i :=
        (stackAt_retally w₁ r i _).trans (stackAt_retally w r i _)
      rw [Counter.number_some, Action.bind_apply_ok (Action.check_ok b w₁), Action.modify_bind_apply,
        Action.bind_apply_ok (node_apply hlt₂), hsize]
      cases (w.stackAt i).size with
      | none => rfl
      | some n =>
        rw [Counter.number_some, Action.bind_apply_ok (Action.check_ok n w₂), Action.modify_bind_apply]
        by_cases hsign : 0 ≤ c + count ∧ 0 ≤ b + bytes
        · simp only [if_pos hsign]
          rfl
        · simp only [if_neg hsign]
          rfl

/-- Moving the counters of the root and of the stack is settling the family. -/
theorem account_mirrors (hk : (w.kin r)[k]? = some i) {s : Stack} (hs : w.stackAt i = s)
    {change : Stack → Stack} {items : List Item} (hchange : change s = { s with items })
    (count bytes : Int) :
    Mirrors r w (account i count bytes (w.restack i change))
      (Family.settle k s items count bytes (w.family r)) := by
  have hi := List.mem_of_getElem? hk
  obtain ⟨hlt, hroot⟩ := mem_kin.mp hi
  have hr := isRoot_of_mem hi
  obtain ⟨f, hf⟩ : ∃ f, w.family r = f := ⟨_, rfl⟩
  obtain ⟨⟨count₀, bytes₀⟩, hheld⟩ : ∃ held, f.held = held := ⟨_, rfl⟩
  obtain ⟨bounds, size, old⟩ := s
  -- The stores that the moves lead through, each with the family it holds.
  let w₁ := w.restack i change
  have h₁ : Within r w w₁ := within_restack hroot change
  have hr₁ := h₁.isRoot hr
  have hk₁ : (w₁.kin r)[k]? = some i := by rw [h₁.kin, hk]
  have hs₁ : w₁.stackAt i = ⟨bounds, size, items⟩ := by rw [stackAt_restack hlt, hs, hchange]
  have hf₁ : w₁.family r = f.put k ⟨bounds, size, items⟩ := by
    rw [family_restack hk, hs, hchange, hf]
  have hheld₁ : w₁.heldAt r = ⟨count₀, bytes₀⟩ := by
    rw [heldAt_restack, ← hheld, ← hf]
    rfl
  rw [account_apply (List.mem_of_getElem? hk₁), hheld₁, hs₁, hf, Family.settle, hheld]
  cases count₀ with
  | none => exact .of_eq_error h₁ hf₁
  | some c =>
    let w₂ := w₁.retally r ({ · with count := some (c + count) })
    have h₂ : Within r w w₂ := h₁.trans (within_retally hr₁ _)
    have hr₂ := h₂.isRoot hr
    have hf₂ : w₂.family r =
        { f.put k ⟨bounds, size, items⟩ with held := ⟨some (c + count), bytes₀⟩ } := by
      rw [family_retally hr₁, hf₁, hheld₁]
    cases bytes₀ with
    | none => exact .of_eq_error h₂ hf₂
    | some b =>
      let w₃ := w₂.retally r ({ · with bytes := some (b + bytes) })
      have h₃ : Within r w w₃ := h₂.trans (within_retally hr₂ _)
      have hf₃ : w₃.family r =
          { f.put k ⟨bounds, size, items⟩ with
            held := ⟨some (c + count), some (b + bytes)⟩ } := by
        rw [family_retally hr₂, hf₂, heldAt_retally hr₁.lt]
      cases size with
      | none => exact .of_eq_error h₃ hf₃
      | some n =>
        let w₄ := w₃.restack i ({ · with size := some (n + bytes) })
        have h₄ : Within r w w₄ := h₃.trans (within_restack (by rw [h₃.rootOf, hroot]) _)
        have hk₃ : (w₃.kin r)[k]? = some i := by rw [h₃.kin, hk]
        have hs₃ : w₃.stackAt i = ⟨bounds, some n, items⟩ := by
          rw [stackAt_retally, stackAt_retally, hs₁]
        have hf₄ : w₄.family r =
            { f.put k ⟨bounds, some (n + bytes), items⟩ with
              held := ⟨some (c + count), some (b + bytes)⟩ } := by
          rw [family_restack hk₃, hs₃, hf₃, Family.put_put_held]
        by_cases hsign : 0 ≤ c + count ∧ 0 ≤ b + bytes
        · simp only [if_pos hsign]
          exact .of_eq_ok h₄ hf₄
        · simp only [if_neg hsign]
          exact .of_eq_error h₄ hf₄

theorem pushItems_mirrors (hk : (w.kin r)[k]? = some i) (xs : List Item) :
    Mirrors r w (pushItems i xs w) (Family.pushItems k xs (w.family r)) := by
  unfold pushItems
  rw [Family.pushItems_apply, member_family hk, Action.bind_apply,
    reserve_apply (List.mem_of_getElem? hk)]
  cases (w.family r).reserve xs.length (Item.total xs) with
  | error e => exact .error e (.refl r w)
  | ok u => exact account_mirrors hk rfl rfl _ _

theorem push_mirrors (hk : (w.kin r)[k]? = some i) (v : Value) :
    Mirrors r w (push i v w) (Family.push k v (w.family r)) := by
  refine (Mirrors.check v.asItem).bind ?_
  intro x w' hw'
  rw [Family.pushItem_eq_pushItems]
  exact pushItems_mirrors (hw'.kin r ▸ hk) [x]

theorem extend_mirrors (hk : (w.kin r)[k]? = some i) (v : Value) :
    Mirrors r w (extend i v w) (Family.extend k v (w.family r)) := by
  refine (Mirrors.check v.elements).bind ?_
  intro values w' hw'
  refine (Mirrors.check (values.mapM Value.asItem)).bind ?_
  intro xs w'' hw''
  exact pushItems_mirrors ((hw'.trans hw'').kin r ▸ hk) xs

theorem pop_mirrors (hk : (w.kin r)[k]? = some i) :
    Mirrors r w (pop i w) (Family.pop k (w.family r)) := by
  refine Mirrors.look hk ?_
  dsimp only [stackAt]
  cases (w.nodeAt i).stack.items with
  | nil => exact .error _ (.refl r w)
  | cons x rest =>
    have hsettle : Mirrors r w (account i (-1) (-x.size) (w.restack i ({ · with items := rest })))
        (Family.settle k (w.nodeAt i).stack rest (-1) (-x.size) (w.family r)) :=
      account_mirrors hk rfl rfl _ _
    show Mirrors r w ((account i (-1) (-x.size) >>= fun _ => pure x) (w.restack i _))
      ((Family.settle k _ rest (-1) (-x.size) >>= fun _ => pure x) (w.family r))
    rw [Action.bind_apply, Action.bind_apply]
    generalize account i _ _ _ = result, Family.settle k _ rest _ _ _ = result' at hsettle
    cases hsettle with
    | ok _ h => exact .ok x h
    | error e h => exact .error e h

theorem popMany_mirrors (n : Nat) (hk : (w.kin r)[k]? = some i) :
    Mirrors r w (popMany i n w) (Family.popMany k n (w.family r)) := by
  induction n generalizing w with
  | zero => exact .ok () (.refl r w)
  | succ n ih =>
    refine (pop_mirrors hk).bind ?_
    intro x w' hw'
    exact ih (hw'.kin r ▸ hk)

theorem clear_mirrors (hk : (w.kin r)[k]? = some i) :
    Mirrors r w (clear i w) (Family.clear k (w.family r)) :=
  Mirrors.look hk (popMany_mirrors _ hk)

theorem peek_mirrors (hk : (w.kin r)[k]? = some i) (depth : Int) :
    Mirrors r w (peek i depth w) (Family.peek k depth (w.family r)) :=
  Mirrors.look hk (.check ((w.stackAt i).peek depth))

/-- Every call that makes no child. -/
theorem perform_mirrors (hk : (w.kin r)[k]? = some i) {c : Family.Call} (hc : c ≠ .child) :
    Mirrors r w (perform i c w) (Family.perform k c (w.family r)) := by
  cases c with
  | push v => exact (push_mirrors hk v).reply _
  | pop => exact (pop_mirrors hk).reply _
  | peek depth =>
    refine (Mirrors.check depth.toInt).bind ?_
    intro n w' hw'
    exact (peek_mirrors (hw'.kin r ▸ hk) n).reply _
  | extend v => exact (extend_mirrors hk v).reply _
  | clear => exact (clear_mirrors hk).reply _
  | child => exact absurd rfl hc

theorem perform_child (hi : i < w.nodes.length) :
    perform i .child w = .ok (.bounds Family.childBounds) (w.withChild i hi) :=
  Action.bind_apply_ok (makeChild_apply hi) _

/-! ## What is left of a store -/

section Results

variable {α : Type} {act : Action Store α} {act' : Action Family α}

theorem Mirrors.outcome (h : Mirrors r w (act w) (act' (w.family r))) :
    act.outcome w = act'.outcome (w.family r) := by
  unfold Action.outcome
  generalize act w = x, act' (w.family r) = y at h
  cases h <;> rfl

theorem Mirrors.within (h : Mirrors r w (act w) (act' (w.family r))) : Within r w (act.after w) := by
  unfold Action.after
  generalize act w = x, act' (w.family r) = y at h
  cases h with
  | ok a h => exact h
  | error e h => exact h

theorem Mirrors.family_after (h : Mirrors r w (act w) (act' (w.family r))) :
    (act.after w).family r = act'.after (w.family r) := by
  unfold Action.after
  generalize act w = x, act' (w.family r) = y at h
  cases h <;> rfl

end Results

/-- **A call on a stack is a call on its family.** Take a stack, the root it climbs to, and its place
among the stacks that climb there. A call on the stack has the outcome that the call on this member of
the family has, and leaves the family that it leaves. Every other family stays as it was, and every
root stays a root. -/
theorem call_mirrors_family (hk : (w.kin r)[k]? = some i) (c : Family.Call) :
    (perform i c).outcome w = (Family.perform k c).outcome (w.family r) ∧
      ((perform i c).after w).family r = (Family.perform k c).after (w.family r) ∧
      ∀ r', w.IsRoot r' →
        ((perform i c).after w).IsRoot r' ∧
          (r' ≠ r → ((perform i c).after w).family r' = w.family r') := by
  by_cases hc : c = .child
  · obtain ⟨hlt, hroot⟩ := mem_kin.mp (List.mem_of_getElem? hk)
    have hmember : k < (w.family r).members.length := (List.getElem?_eq_some_iff.mp (member_family hk)).1
    subst hc hroot
    unfold Action.outcome Action.after
    rw [perform_child hlt, Family.perform_child hmember]
    refine ⟨rfl, family_withChild hlt, ?_⟩
    intro r' hr'
    exact ⟨isRoot_add hr', fun hne => family_withChild_other hlt hr' hne.symm⟩
  · have h := perform_mirrors hk hc
    refine ⟨h.outcome, h.family_after, ?_⟩
    intro r' hr'
    exact ⟨h.within.isRoot hr', fun hne => h.within.family_other hr' hne⟩

/-! ## Histories -/

/-- The store after deeds, whatever came of each of them. -/
def history (w : Store) (deeds : List Deed) : Store := Action.replay (deeds.map deed) w

theorem deed_missing (hi : ¬ i < w.nodes.length) (c : Family.Call) :
    deed (.call i c) w = .error .outOfRange w := by
  have hnode : node i w = .error .outOfRange w := by
    unfold node
    rw [List.getElem?_eq_none (Nat.le_of_not_lt hi)]
  exact Action.bind_apply_error hnode _

theorem deed_call (hi : i < w.nodes.length) (c : Family.Call) :
    deed (.call i c) w = perform i c w := Action.bind_apply_ok (node_apply hi) _

theorem outcome_deed_call (hi : i < w.nodes.length) (c : Family.Call) :
    (deed (.call i c)).outcome w = (perform i c).outcome w := by
  rw [Action.outcome, deed_call hi, Action.outcome]

theorem after_deed_call (hi : i < w.nodes.length) (c : Family.Call) :
    (deed (.call i c)).after w = (perform i c).after w := by
  rw [Action.after, deed_call hi, Action.after]

/-- A deed leaves a family alone, or it is a call on one of the members. -/
theorem family_deed (hr : w.IsRoot r) (d : Deed) :
    ((deed d).after w).IsRoot r ∧
      (((deed d).after w).family r = w.family r ∨
        ∃ k c, ((deed d).after w).family r = (Family.perform k c).after (w.family r)) := by
  cases d with
  | plant bounds => exact ⟨isRoot_planted_other bounds hr, Or.inl (family_planted_other bounds hr)⟩
  | call i c =>
    by_cases hi : i < w.nodes.length
    · obtain ⟨k, hk⟩ := List.mem_iff_getElem?.mp (mem_kin.mpr ⟨hi, rfl⟩ : i ∈ w.kin (w.rootOf i))
      obtain ⟨-, hself, hroots⟩ := call_mirrors_family hk c
      obtain ⟨hroot, hother⟩ := hroots r hr
      rw [after_deed_call hi]
      refine ⟨hroot, ?_⟩
      by_cases hir : r = w.rootOf i
      · subst hir
        exact Or.inr ⟨k, c, hself⟩
      · exact Or.inl (hother hir)
    · have hafter : (deed (.call i c)).after w = w := by rw [Action.after, deed_missing hi]
      rw [hafter]
      exact ⟨hr, Or.inl rfl⟩

/-- What every call on a family keeps, every history of the store keeps. -/
theorem family_history {P : Family → Prop} (hP : ∀ k c f, P f → P ((Family.perform k c).after f))
    (hr : w.IsRoot r) (h : P (w.family r)) (deeds : List Deed) :
    (w.history deeds).IsRoot r ∧ P ((w.history deeds).family r) := by
  induction deeds generalizing w with
  | nil => exact ⟨hr, h⟩
  | cons d rest ih =>
    obtain ⟨hr', hfamily⟩ := family_deed hr d
    refine ih hr' ?_
    rcases hfamily with hsame | ⟨k, c, hcall⟩
    · rw [hsame]
      exact h
    · rw [hcall]
      exact hP k c _ h

end Store

end Tapscript
