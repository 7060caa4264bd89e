import Tapscript.Value

/-!
# Admission of values as items

A value becomes an item when it holds bytes and their number is within a limit. Two values are
joined into an item in three steps: their lengths together are compared with the limit, their bytes
are taken, the left ones first, and the result is admitted under the same limit. For an array of
words the first comparison counts words and the last one bytes.
-/

namespace Tapscript

/-! ## Bounds -/

/-- An upper bound on an amount. Without a number no amount can be compared with it. -/
abbrev Bound := Option Int

/-- Compares an amount with a bound; `excess` is the fault of an amount above it. -/
def Bound.check (bound : Bound) (amount : Int) (excess : Int → Fault) : Except Fault Unit :=
  match bound with
  | none => .error .mismatch
  | some limit => if amount ≤ limit then .ok () else .error (excess limit)

@[simp]
theorem Bound.check_none (amount : Int) (excess : Int → Fault) :
    Bound.check none amount excess = .error .mismatch := rfl

theorem Bound.check_eq_ok_iff {bound : Bound} {amount : Int} {excess : Int → Fault} :
    bound.check amount excess = .ok () ↔ ∃ limit, bound = some limit ∧ amount ≤ limit := by
  cases bound with
  | none => simp
  | some limit =>
    unfold check
    by_cases h : amount ≤ limit <;> simp [h]

/-! ## Single values -/

namespace Value

/-- The item with the bytes of a value, however many there are. -/
def wholeItem (v : Value) : Except Fault Item :=
  match v.content? with
  | some content => .ok ⟨content⟩
  | none => .error .mismatch

/-- The item with the bytes of a value, if there are at most `limit` of them. -/
def accept (v : Value) (limit : Bound) : Except Fault Item := do
  let x ← v.wholeItem
  limit.check x.size fun most => .refused (.itemTooLong x.size most)
  return x

/-- Whether a value is an item already. Such a value is admitted as it is. -/
def isItem : Value → Bool
  | item _ => true
  | _ => false

/-- A value as an item to be put on a stack: an item as it is, whatever its length, and any other
value if it is admitted under the consensus limit. -/
def asItem : Value → Except Fault Item
  | item x => .ok x
  | v => v.accept (some maxItemSize)

@[simp]
theorem asItem_item (x : Item) : (item x).asItem = .ok x := rfl

/-! ## Two values -/

/-- The item with the bytes of `left` followed by those of `right`, if it stays within `limit`. -/
def join (left right : Value) (limit : Bound) : Except Fault Item :=
  match left.length?, right.length? with
  | some m, some n => do
    limit.check (m + n) fun most => .refused (.joinTooLong (m + n) most)
    let front ← left.toBytes
    let back ← right.toBytes
    accept (bytes (front ++ back)) limit
  | _, _ => .error .mismatch

end Value

end Tapscript
