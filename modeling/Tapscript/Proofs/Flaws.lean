import Tapscript.Limits

/-!
# Flaws of values

A value is not admitted as an item because it holds no bytes, or because it holds too many. This module says
so without the admission itself, as the flaw of a value, and shows that admitting several values comes to
looking for the first flaw among them.

* `accept_eq`, `asItem_eq`: the admission of one value, by its flaw.
* `mapM_accept_eq`, `mapM_asItem_eq`: the admission of several values, by the first flaw.
-/

namespace Tapscript

/-! ## Results that stand unless there is a flaw -/

def unlessFlaw {α : Type} (flaw : Option Fault) (a : α) : Except Fault α :=
  match flaw with
  | some e => .error e
  | none => .ok a

@[simp]
theorem unlessFlaw_none {α : Type} (a : α) : unlessFlaw none a = .ok a := rfl

@[simp]
theorem unlessFlaw_some {α : Type} (e : Fault) (a : α) : unlessFlaw (some e) a = .error e := rfl

theorem unlessFlaw_eq_ok_iff {α : Type} {flaw : Option Fault} {a b : α} :
    unlessFlaw flaw a = .ok b ↔ flaw = none ∧ a = b := by
  cases flaw <;> simp

/-- A traversal whose elements have flaws stops with the first of them. -/
theorem mapM_unlessFlaw {α β : Type} {f : α → Except Fault β} {flaw : α → Option Fault} {g : α → β}
    (h : ∀ a, f a = unlessFlaw (flaw a) (g a)) (xs : List α) :
    xs.mapM f = unlessFlaw (xs.findSome? flaw) (xs.map g) := by
  induction xs with
  | nil => rfl
  | cons x xs ih =>
    rw [List.mapM_cons, h x, List.findSome?_cons, List.map_cons]
    cases flaw x with
    | some e => rfl
    | none =>
      rw [ih]
      cases xs.findSome? flaw <;> rfl

/-! ## Values -/

namespace Value

/-- The item with the bytes a value holds; a value that holds none stands for the empty item. -/
def heldItem (v : Value) : Item := ⟨v.content?.getD #[]⟩

/-- Why a value is no item of at most `most` bytes: it holds no bytes, or more than that. -/
def flaw? (most : Nat) (v : Value) : Option Fault :=
  match v.content? with
  | none => some .mismatch
  | some content =>
    if most < content.size then some (.refused (.itemTooLong content.size most)) else none

/-- Why a value cannot be put on a stack. An item can, however long it is, and any other value is held to the
consensus size. -/
def stackFlaw? (v : Value) : Option Fault := if v.isItem then none else v.flaw? maxItemSize

@[simp]
theorem heldItem_item (x : Item) : (item x).heldItem = x := rfl

@[simp]
theorem stackFlaw?_item (x : Item) : (item x).stackFlaw? = none := rfl

theorem content?_eq_of_flaw? {most : Nat} {v : Value} (h : v.flaw? most = none) :
    v.content? = some v.heldItem.bytes ∧ v.heldItem.size ≤ most := by
  unfold flaw? at h
  unfold heldItem Item.size
  cases hv : v.content? with
  | none =>
    rw [hv] at h
    cases h
  | some content =>
    simp only [hv] at h
    refine ⟨rfl, ?_⟩
    split at h
    · cases h
    · rename_i hsize
      exact Nat.not_lt.mp hsize

/-- A flaw is of one of the two kinds. -/
theorem flaw?_eq_some {most : Nat} {v : Value} {e : Fault} (h : v.flaw? most = some e) :
    e = .mismatch ∨ ∃ size, e = .refused (.itemTooLong size most) := by
  unfold flaw? at h
  split at h
  · exact Or.inl (Option.some.inj h).symm
  · split at h
    · exact Or.inr ⟨_, (Option.some.inj h).symm⟩
    · cases h

theorem map_heldItem {vs : List Value} {items : List Item}
    (h : vs.map content? = items.map fun x => some x.bytes) : vs.map heldItem = items := by
  calc
    vs.map heldItem = (vs.map content?).map fun content => ⟨content.getD #[]⟩ := by
      simp [heldItem, Function.comp_def]
    _ = items := by simp [h, Function.comp_def]

theorem accept_eq (most : Nat) (v : Value) :
    v.accept (some (most : Int)) = unlessFlaw (v.flaw? most) v.heldItem := by
  unfold accept wholeItem flaw? heldItem
  cases v.content? with
  | none => rfl
  | some content =>
    change (Bound.check (some (most : Int)) (content.size : Int)
      (fun limit => .refused (.itemTooLong content.size limit)) >>= fun _ => .ok _) = _
    rw [Bound.check]
    by_cases hsize : most < content.size
    · rw [if_neg (by omega)]
      simp only [if_pos hsize]
      rfl
    · rw [if_pos (by omega)]
      simp only [if_neg hsize]
      rfl

/-- Among byte strings the first one that is too long is the first one with a flaw. -/
theorem findSome?_flaw?_bytes (most : Nat) (xs : List Item) :
    (xs.map fun x => bytes x.bytes).findSome? (flaw? most) =
      (xs.find? fun x => most < x.size).map fun x => .refused (.itemTooLong x.size most) := by
  induction xs with
  | nil => rfl
  | cons x rest ih =>
    have hflaw : (bytes x.bytes).flaw? most =
        if most < x.size then some (.refused (.itemTooLong x.size most)) else none := rfl
    rw [List.map_cons, List.findSome?_cons, List.find?_cons, hflaw]
    by_cases hlong : most < x.size
    · simp [hlong]
    · simp [hlong, ih]

theorem asItem_eq (v : Value) : v.asItem = unlessFlaw v.stackFlaw? v.heldItem := by
  cases v with
  | item x => rfl
  | _ => exact accept_eq maxItemSize _

theorem mapM_asItem_eq (vs : List Value) :
    vs.mapM asItem = unlessFlaw (vs.findSome? stackFlaw?) (vs.map heldItem) :=
  mapM_unlessFlaw asItem_eq vs

end Value

theorem Limits.mapM_accept_eq {limits : Limits} {itemSize : Nat}
    (hi : limits.itemSize = some itemSize) (vs : List Value) :
    vs.mapM limits.accept =
      unlessFlaw (vs.findSome? (Value.flaw? itemSize)) (vs.map Value.heldItem) := by
  apply mapM_unlessFlaw
  intro v
  rw [Limits.accept, Limits.itemBound, hi]
  exact Value.accept_eq itemSize v

end Tapscript
