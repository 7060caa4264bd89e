import Tapscript.Text.Hex
import Tapscript.Text.Quoted

/-!
# Stack items

An item is an immutable byte string. It is false when it is empty or a single zero byte, and true
otherwise. The printed form of an item is the quotation of its bytes inside `ByteBuffer( )`.
-/

namespace Tapscript

structure Item where
  bytes : Array UInt8
  deriving DecidableEq, Repr, Inhabited

namespace Item

/-- The number of bytes of an item. -/
def size (x : Item) : Nat := x.bytes.size

/-- The bytes of one item followed by those of another. -/
instance : Append Item := ⟨fun x y => ⟨x.bytes ++ y.bytes⟩⟩

theorem bytes_append (x y : Item) : (x ++ y).bytes = x.bytes ++ y.bytes := rfl

@[simp]
theorem size_append (x y : Item) : (x ++ y).size = x.size + y.size := by
  simp [size, bytes_append]

/-- The number of bytes of a list of items. -/
def total (xs : List Item) : Nat := xs.foldr (fun x n => x.size + n) 0

@[simp]
theorem total_nil : total [] = 0 := rfl

@[simp]
theorem total_cons (x : Item) (xs : List Item) : total (x :: xs) = x.size + total xs := rfl

@[simp]
theorem total_append (xs ys : List Item) : total (xs ++ ys) = total xs + total ys := by
  induction xs with
  | nil => simp
  | cons x xs ih => simp [ih, Nat.add_assoc]

@[simp]
theorem total_reverse (xs : List Item) : total xs.reverse = total xs := by
  induction xs with
  | nil => rfl
  | cons x xs ih => simp [ih, Nat.add_comm]

theorem size_le_total {x : Item} {xs : List Item} (h : x ∈ xs) : x.size ≤ total xs := by
  obtain ⟨before, after, rfl⟩ := List.append_of_mem h
  rw [total_append, total_cons]
  omega

/-! ## Truth -/

/-- Only the empty item and a single zero byte are false. -/
def isTrue (x : Item) : Bool := x.bytes != #[] && x.bytes != #[0]

/-- Whether some item is true. -/
def anyTrue (xs : List Item) : Bool := xs.any isTrue

/-! ## Text -/

/-- The bytes in hexadecimal. -/
def hex (x : Item) : String := String.ofList (Text.Hex.encode x.bytes.toList)

/-- The printed form. -/
def printed (x : Item) : List Char :=
  "ByteBuffer(".toList ++ Text.Quoted.ofBytes x.bytes.toList ++ [')']

/-- The printed form of a list of items, bottom first. -/
def printedList (xs : List Item) : List Char :=
  '[' :: ([',', ' '].intercalate (xs.map printed) ++ [']'])

end Item

end Tapscript
