import Tapscript.Consensus
import Tapscript.Item
import Tapscript.Slice

/-!
# Values handed in by a caller

Stacks hold items, but a caller may hand in anything: an item, bytes in some other storage, an
array of words, a sequence, a text, a number or nothing at all. This module says what such a value
is worth: the bytes it holds, its length, what it yields when it is walked through, and which items
it equals.

A value holds bytes when it is an item, a plain or growable byte string, an array of words, or a
view of any of these. The length of words is their number, and their bytes are in little-endian
order, so the length and the size in bytes differ.
-/

namespace Tapscript

/-- The width of an unsigned word. -/
inductive WordWidth where
  | two
  | four
  | eight
  deriving DecidableEq, Repr

/-- The letter that stands for a width. -/
def WordWidth.letter : WordWidth → Char
  | two => 'H'
  | four => 'I'
  | eight => 'Q'

/-- The number of bytes of a word. -/
def WordWidth.bytes : WordWidth → Nat
  | two => 2
  | four => 4
  | eight => 8

/-- Every word of a width is below this number. -/
def WordWidth.bound : WordWidth → Nat
  | two => 0x10000
  | four => 0x100000000
  | eight => 0x10000000000000000

/-- The lowest `count` bytes of a number, least significant first. -/
def littleEndian : Nat → Nat → List UInt8
  | 0, _ => []
  | count + 1, n => UInt8.ofNat (n % 256) :: littleEndian count (n / 256)

inductive Value where
  /-- A plain byte string. -/
  | bytes (content : Array UInt8)
  /-- A byte string that can grow. -/
  | growable (content : Array UInt8)
  /-- A view of bytes that belong to someone else. -/
  | borrowed (content : Array UInt8)
  /-- A stack item, of any length. -/
  | item (x : Item)
  /-- An array of unsigned words. -/
  | words (width : WordWidth) (ws : List Nat)
  /-- A view of words that belong to an array. -/
  | wordView (width : WordWidth) (ws : List Nat)
  | list (elements : List Value)
  | tuple (elements : List Value)
  | text (s : String)
  | int (n : Int)
  | nothing

namespace Value

/-! ## Numbers and words -/

/-- A number where one is needed. -/
def toInt : Value → Except Fault Int
  | int n => .ok n
  | _ => .error .mismatch

/-- A number that fits a width, as a word. -/
def toWord (width : WordWidth) (v : Value) : Except Fault Nat := do
  let n ← v.toInt
  if 0 ≤ n ∧ n < width.bound then return n.toNat else throw .tooWide

/-- An array of words of one width; the first value that is no such word decides the fault. -/
def ofWords (width : WordWidth) (vs : List Value) : Except Fault Value :=
  (vs.mapM (toWord width)).map (words width)

/-! ## Bytes, lengths and elements -/

/-- The bytes a value holds, if it is one that holds bytes. -/
def content? : Value → Option (Array UInt8)
  | bytes content | growable content | borrowed content => some content
  | item x => some x.bytes
  | words width ws | wordView width ws =>
    some (ws.flatMap (littleEndian width.bytes)).toArray
  | _ => none

/-- The length of a value, for the values that have one. -/
def length? : Value → Option Nat
  | bytes content | growable content | borrowed content => some content.size
  | item x => some x.size
  | words _ ws | wordView _ ws => some ws.length
  | list elements | tuple elements => some elements.length
  | text s => some s.length
  | int _ | nothing => none

/-- What a value yields when it is walked through. Bytes and words yield numbers, a text yields
texts of one character. -/
def elements? : Value → Option (List Value)
  | bytes content | growable content | borrowed content =>
    some (content.toList.map fun b => int b.toNat)
  | item x => some (x.bytes.toList.map fun b => int b.toNat)
  | words _ ws | wordView _ ws => some (ws.map fun (w : Nat) => int w)
  | list elements | tuple elements => some elements
  | text s => some (s.toList.map fun c => text c.toString)
  | int _ | nothing => none

/-- What a value yields when it is walked through; a value that cannot be is a mismatch. -/
def elements (v : Value) : Except Fault (List Value) :=
  match v.elements? with
  | some vs => .ok vs
  | none => .error .mismatch

/-- A number from 0 to 255 as a byte. -/
def toByte : Value → Except Fault UInt8
  | int n => if 0 ≤ n ∧ n < 256 then .ok (UInt8.ofNat n.toNat) else .error (.unfit .notAByte)
  | _ => .error .mismatch

/-- The bytes of a value that holds bytes, or of a sequence of numbers from 0 to 255. -/
def toBytes (v : Value) : Except Fault (Array UInt8) :=
  match v with
  | list elements | tuple elements => (elements.mapM toByte).map List.toArray
  | _ =>
    match v.content? with
    | some content => .ok content
    | none => .error .mismatch

/-- A slice of what a value holds, as a view of it: of words if it holds words, and otherwise of
bytes. -/
def view (v : Value) (s : Slice) : Except Fault Value :=
  match v with
  | words width ws | wordView width ws => (s.pick ws.toArray).map (wordView width)
  | _ =>
    match v.content? with
    | some content => (s.pick content).map fun bs => borrowed bs.toArray
    | none => .error .mismatch

/-! ## Equality and truth -/

/-- Whether a value equals an item. Bytes equal an item when the bytes are the same, however they
are stored, and so does a view of words when its words, as numbers, are the bytes of the item;
arrays of words, sequences, texts and numbers equal no item. -/
def equals : Value → Item → Bool
  | bytes content, x | growable content, x | borrowed content, x => content == x.bytes
  | item y, x => y.bytes == x.bytes
  | wordView _ ws, x => ws == x.bytes.toList.map UInt8.toNat
  | _, _ => false

/-- Whether a value equals a list of items: it is a list, of as many values, each equal to its
item. -/
def equalsList : Value → List Item → Bool
  | list elements, xs =>
    elements.length == xs.length && (elements.zip xs).all fun (v, x) => v.equals x
  | _, _ => false

/-- A value is false when it equals one of the two false items. -/
def isTrue (v : Value) : Bool := !(v.equals ⟨#[]⟩) && !(v.equals ⟨#[0]⟩)

@[simp]
theorem isTrue_item (x : Item) : (item x).isTrue = x.isTrue := by
  simp [isTrue, Item.isTrue, equals, bne]

/-- Whether a value yields a true value. -/
def anyTrue (v : Value) : Except Fault Bool :=
  v.elements.map (·.any isTrue)

/-- The hexadecimal form of a value that owns its bytes. -/
def ownHex? : Value → Option String
  | bytes content => some (Item.hex ⟨content⟩)
  | item x => some x.hex
  | _ => none

end Value

end Tapscript
