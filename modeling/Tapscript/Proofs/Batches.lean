import Tapscript.Proofs.Flaws
import Tapscript.Proofs.Forests

/-!
# Batches

Extending a stack puts a batch of values on it. The batch is converted first, then room for the whole of it
is reserved at once, so the checks come in another order than when the values are pushed one after another.
Still the two succeed together and leave the same family, and a batch that is refused leaves the family as
it was.

* `extend_ok_iff`, `pushEach_ok_iff`: both succeed exactly when no value has a flaw and all of them together
  fit, and then the family is refilled in the same way.
* `extendFrom_eq_extend`: a stack is extended by another one, or by itself, as by the list of its items.
* `extend_is_batch_of_pushes`: the members of a family after any history of calls.
-/

namespace Tapscript

namespace Family

variable {count bytes : Nat} {f f' : Family} {i : Nat} {s : Stack}

/-- Puts values on top one after another, up to the first one that is refused. -/
def pushEach (i : Nat) : List Value → Action Family Unit
  | [] => pure ()
  | v :: rest => do
    push i v
    pushEach i rest

/-! ## Items -/

theorem pushItems_ok_iff (h : f.Balanced count bytes) (hs : f.members[i]? = some s) {xs : List Item} :
    pushItems i xs f = .ok () f' ↔
      (f.itemCount + xs.length ≤ count ∧ f.itemBytes + Item.total xs ≤ bytes) ∧
        f' = f.refill i (xs.reverse ++ s.items) := by
  rw [pushItems_truthful h.truthful hs, reserve_balanced h]
  by_cases hc : count < f.itemCount + xs.length
  · have hroom : ¬ f.itemCount + xs.length ≤ count := Nat.not_le.mpr hc
    simp [hc, hroom]
  · by_cases hb : bytes < f.itemBytes + Item.total xs
    · have hroom : ¬ f.itemBytes + Item.total xs ≤ bytes := Nat.not_le.mpr hb
      simp [hc, hb, hroom]
    · have hroom := And.intro (Nat.not_lt.mp hc) (Nat.not_lt.mp hb)
      simp [hc, hb, hroom, eq_comm]

/-- Items are refused only for want of room, and then nothing has changed. -/
theorem pushItems_error (h : f.Balanced count bytes) (hs : f.members[i]? = some s) {xs : List Item}
    {e : Fault} (he : pushItems i xs f = .error e f') :
    f' = f ∧ ∃ r, e = .refused r ∧ r.kind = .stackOverflow := by
  rw [pushItems_truthful h.truthful hs, reserve_balanced h] at he
  by_cases hc : count < f.itemCount + xs.length
  · rw [if_pos hc] at he
    cases he
    exact ⟨rfl, _, rfl, rfl⟩
  · rw [if_neg hc] at he
    by_cases hb : bytes < f.itemBytes + Item.total xs
    · rw [if_pos hb] at he
      cases he
      exact ⟨rfl, _, rfl, rfl⟩
    · rw [if_neg hb] at he
      cases he

/-! ## Values -/

theorem push_eq (i : Nat) (v : Value) (f : Family) :
    push i v f =
      match v.stackFlaw? with
      | some e => .error e f
      | none => pushItem i v.heldItem f := by
  have hitem := Value.asItem_eq v
  unfold push
  rw [hitem]
  cases v.stackFlaw? <;> rfl

/-- A batch is refused for the first flaw in it, before any room is looked for. -/
theorem extend_eq {v : Value} {vs : List Value} (hv : v.elements = .ok vs) (i : Nat) (f : Family) :
    extend i v f =
      match vs.findSome? Value.stackFlaw? with
      | some e => .error e f
      | none => pushItems i (vs.map Value.heldItem) f := by
  unfold extend
  rw [hv, Action.bind_apply_ok (Action.check_ok vs f), Value.mapM_asItem_eq]
  cases vs.findSome? Value.stackFlaw? <;> rfl

/-- What a batch needs to be put on a member: no value has a flaw, and all of them together fit. -/
def Admits (count bytes : Nat) (f : Family) (vs : List Value) : Prop :=
  vs.findSome? Value.stackFlaw? = none ∧ f.itemCount + vs.length ≤ count ∧
    f.itemBytes + Item.total (vs.map Value.heldItem) ≤ bytes

theorem extend_ok_iff (h : f.Balanced count bytes) (hs : f.members[i]? = some s) {v : Value}
    {vs : List Value} (hv : v.elements = .ok vs) :
    extend i v f = .ok () f' ↔
      f.Admits count bytes vs ∧ f' = f.refill i ((vs.map Value.heldItem).reverse ++ s.items) := by
  rw [extend_eq hv, Admits]
  cases vs.findSome? Value.stackFlaw? with
  | some e => simp
  | none => simp [pushItems_ok_iff h hs]

theorem push_ok_iff (h : f.Balanced count bytes) (hs : f.members[i]? = some s) {v : Value} :
    push i v f = .ok () f' ↔
      f.Admits count bytes [v] ∧ f' = f.refill i (v.heldItem :: s.items) := by
  rw [push_eq, Admits, List.findSome?_singleton]
  cases v.stackFlaw? with
  | some e => simp
  | none => simp [pushItem_eq_pushItems, pushItems_ok_iff h hs]

theorem itemCount_put (hs : f.members[i]? = some s) (x : Item) :
    (f.refill i (x :: s.items)).itemCount = f.itemCount + 1 := by
  have hcount := itemCount_refill hs (x :: s.items)
  rw [List.length_cons] at hcount
  omega

theorem itemBytes_put (hs : f.members[i]? = some s) (x : Item) :
    (f.refill i (x :: s.items)).itemBytes = f.itemBytes + x.size := by
  have hbytes := itemBytes_refill hs (x :: s.items)
  rw [Item.total_cons] at hbytes
  omega

theorem admits_cons_iff (hs : f.members[i]? = some s) {v : Value} {rest : List Value} :
    f.Admits count bytes (v :: rest) ↔
      f.Admits count bytes [v] ∧ (f.refill i (v.heldItem :: s.items)).Admits count bytes rest := by
  simp only [Admits, itemCount_put hs, itemBytes_put hs, List.findSome?_cons, List.findSome?_nil,
    List.length_cons, List.length_nil, List.map_cons, List.map_nil, Item.total_cons, Item.total_nil]
  cases v.stackFlaw? with
  | some e => simp
  | none =>
    simp only [true_and]
    constructor
    · rintro ⟨hflaw, hc, hb⟩
      exact ⟨⟨by omega, by omega⟩, hflaw, by omega, by omega⟩
    · rintro ⟨-, hflaw, hc, hb⟩
      exact ⟨hflaw, by omega, by omega⟩

theorem balanced_put (h : f.Balanced count bytes) (hs : f.members[i]? = some s) {v : Value}
    (hv : f.Admits count bytes [v]) : (f.refill i (v.heldItem :: s.items)).Balanced count bytes := by
  obtain ⟨-, hc, hb⟩ := hv
  simp only [List.length_singleton, List.map_cons, List.map_nil, Item.total_cons, Item.total_nil] at hc hb
  apply balanced_refill h.bounds h.sizes
  · rw [itemCount_put hs]
    exact hc
  · rw [itemBytes_put hs]
    exact hb

/-- Values pushed one after another are admitted as a batch: what the first one takes of the room is what it
adds to the batch. -/
theorem pushEach_ok_iff (h : f.Balanced count bytes) (hs : f.members[i]? = some s)
    {vs : List Value} :
    pushEach i vs f = .ok () f' ↔
      f.Admits count bytes vs ∧ f' = f.refill i ((vs.map Value.heldItem).reverse ++ s.items) := by
  induction vs generalizing f s with
  | nil =>
    have hself := refill_self h.held (h.truthful.size_eq hs) hs
    have hadmits : f.Admits count bytes [] := ⟨rfl, h.count_le, h.bytes_le⟩
    simp [pushEach, pure, EStateM.pure, hadmits, hself, eq_comm]
  | cons v rest ih =>
    rw [pushEach, Action.bind_eq_ok_iff]
    constructor
    · rintro ⟨_, f₁, hpush, hrest⟩
      obtain ⟨hfirst, rfl⟩ := (push_ok_iff h hs).mp hpush
      obtain ⟨hlater, rfl⟩ := (ih (balanced_put h hs hfirst) (member_refill_self hs _)).mp hrest
      exact ⟨(admits_cons_iff hs).mpr ⟨hfirst, hlater⟩, by simp⟩
    · rintro ⟨hadmits, rfl⟩
      obtain ⟨hfirst, hlater⟩ := (admits_cons_iff hs).mp hadmits
      refine ⟨(), _, (push_ok_iff h hs).mpr ⟨hfirst, rfl⟩, ?_⟩
      exact (ih (balanced_put h hs hfirst) (member_refill_self hs _)).mpr ⟨hlater, by simp⟩

end Family

/-! ## Stacks as batches -/

namespace Forest

variable {w : Forest} {number source : Int} {a b : Address} {t : Stack}

theorem stack_apply (hb : w.address? source = some b) (ht : w.stack? b = some t) :
    stack source w = .ok t w := by
  have hlocate : locate source w = .ok b w := by rw [locate_apply, hb]
  obtain ⟨g, hg, hmember⟩ := Option.bind_eq_some_iff.mp ht
  have hset : w.families.set b.family g = w.families := by
    obtain ⟨hlt, rfl⟩ := List.getElem?_eq_some_iff.mp hg
    exact List.set_getElem_self hlt
  have happly : Family.member b.member g = .ok t g := by rw [Family.member_apply, hmember]
  unfold stack
  rw [Action.bind_apply_ok hlocate]
  simp only [onFamily, hg, happly, hset]

/-- A stack is extended by the items of a stack, which may be itself, as by the list of them. -/
theorem extendFrom_eq_extend (ha : w.address? number = some a) (hb : w.address? source = some b)
    (ht : w.stack? b = some t) :
    perform number (.extendFrom source) w =
      perform number (.call (.extend (.list (t.bottomUp.map .item)))) w := by
  have hlocate : locate number w = .ok a w := by rw [locate_apply, ha]
  have hextend : Family.perform a.member (.extend (.list (t.bottomUp.map .item))) =
      (do
        Family.pushItems a.member t.bottomUp
        return .done) := by
    funext f
    have hflaw : (t.bottomUp.map Value.item).findSome? Value.stackFlaw? = none := by
      simp [List.findSome?_eq_none_iff]
    have hitems : (t.bottomUp.map Value.item).map Value.heldItem = t.bottomUp := by
      simp [Function.comp_def]
    have hbatch := Family.extend_eq (v := .list (t.bottomUp.map .item)) rfl a.member f
    rw [hflaw, hitems] at hbatch
    simp only [Family.perform, Action.bind_apply, hbatch]
  rw [perform_call ha (by simp), hextend]
  refine (Action.bind_apply_ok hlocate _).trans ((Action.bind_apply_ok (stack_apply hb ht) _).trans ?_)
  simp only [Action.bind_apply, onFamily]
  cases w.families[a.family]? with
  | none => rfl
  | some f =>
    dsimp only
    cases Family.pushItems a.member t.bottomUp f <;> rfl

end Forest

namespace Family

/-- **Extending is a batch of pushes.** Take any member of a family after any history of calls, and the values
that a caller hands in. Extending the member by them succeeds exactly when pushing them one after another
does, and the family is the same then. When it fails the family is as it was. The fault is the first flaw
among the values, and with no flaw among them it is want of room. A member is extended by a member, be it
itself, as by the list of the items on that member. -/
theorem extend_is_batch_of_pushes (count bytes : Nat) (calls : List (Nat × Call)) {i : Nat} {s : Stack}
    {v : Value} {vs : List Value}
    (hs : ((ofBounds ⟨some (count : Int), some (bytes : Int)⟩).history calls).members[i]? = some s)
    (hv : v.elements = .ok vs) :
    let f := (ofBounds ⟨some (count : Int), some (bytes : Int)⟩).history calls
    let flaw := vs.findSome? Value.stackFlaw?
    (∀ f', extend i v f = .ok () f' ↔ pushEach i vs f = .ok () f') ∧
      (∀ e f', extend i v f = .error e f' → f' = f ∧
        (flaw = some e ∨ flaw = none ∧ ∃ r, e = .refused r ∧ r.kind = .stackOverflow)) ∧
      (∀ e, flaw = some e → extend i v f = .error e f) ∧
      ∀ (j : Nat) (t : Stack), f.members[j]? = some t →
        Forest.perform 0 (.extendFrom 1) (.ofFamily f [i, j]) =
          Forest.perform 0 (.call (.extend (.list (t.bottomUp.map .item)))) (.ofFamily f [i, j]) := by
  intro f flaw
  have hf : f.Balanced count bytes := balanced_history calls (balanced_ofBounds count bytes)
  have hextend := extend_eq hv i f
  refine ⟨?_, ?_, ?_, ?_⟩
  · intro f'
    rw [extend_ok_iff hf hs hv, pushEach_ok_iff hf hs]
  · intro e f' he
    rw [hextend] at he
    cases hflaw : vs.findSome? Value.stackFlaw? with
    | some e' =>
      rw [hflaw] at he
      cases he
      exact ⟨rfl, Or.inl hflaw⟩
    | none =>
      rw [hflaw] at he
      obtain ⟨hsame, hroom⟩ := pushItems_error hf hs he
      exact ⟨hsame, Or.inr ⟨hflaw, hroom⟩⟩
  · intro e he
    rw [hextend]
    simp only [show vs.findSome? Value.stackFlaw? = some e from he]
  · intro j t ht
    exact Forest.extendFrom_eq_extend (a := ⟨0, i⟩) (b := ⟨0, j⟩) rfl rfl ht

/-- A child of a root with room for one more item of one byte. A batch of one byte fills the family. A batch
with an overlong value behind a text is refused for the text, though there is no room for it either. -/
theorem batch_on_child_fills_family :
    let calls : List (Nat × Call) :=
      [(0, .push (.bytes #[1])), (0, .child), (1, .push (.item ⟨#[2, 3]⟩))]
    let f := (ofBounds ⟨some 3, some 4⟩).history calls
    let long : Value := .bytes (Array.replicate 521 0)
    f.members[1]? = some { bounds := childBounds, size := some 2, items := [⟨#[2, 3]⟩] } ∧
      (∃ f', extend 1 (.tuple [.growable #[4]]) f = .ok () f' ∧
        pushEach 1 [.growable #[4]] f = .ok () f' ∧ f'.held = ⟨some 3, some 4⟩) ∧
      extend 1 (.list [.item ⟨#[4]⟩, .text "05", long]) f = .error .mismatch f := by
  intro calls f long
  have hs : f.members[1]? = some { bounds := childBounds, size := some 2, items := [⟨#[2, 3]⟩] } := rfl
  have htuple : (Value.tuple [.growable #[4]]).elements = .ok [.growable #[4]] := rfl
  have hlist : (Value.list [.item ⟨#[4]⟩, .text "05", long]).elements =
      .ok [.item ⟨#[4]⟩, .text "05", long] := rfl
  obtain ⟨hbatch, -⟩ := extend_is_batch_of_pushes 3 4 calls hs htuple
  obtain ⟨-, -, hflaw, -⟩ := extend_is_batch_of_pushes 3 4 calls hs hlist
  have hfull : extend 1 (.tuple [.growable #[4]]) f = .ok () (f.refill 1 [⟨#[4]⟩, ⟨#[2, 3]⟩]) := rfl
  exact ⟨hs, ⟨_, hfull, (hbatch _).mp hfull, rfl⟩, hflaw _ rfl⟩

end Family

end Tapscript
