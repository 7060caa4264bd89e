import Tapscript.Action

/-!
# Hosts

A message is written when it is needed, and it is written by a host. A host may cap the number of
decimal digits of an integer that it turns into text, as a guard on its own time. If a message has an
integer with more digits, then there is no message, and the call that was about to stop with it stops
because of the integer instead.

`Host.unlimited` writes every integer. Everything else in this library is said for such a host, unless
a host is named: a fault carries its integers, and not their text, so that what another host makes of
it is known from the fault (`Host.raised`). The caps that can be set leave out only integers with more
than 640 digits. The lengths of sequences and the numbers of bytes that can be held at all are far
shorter, so it is the numbers a caller writes down, such as opcodes and limits, that can be too long.

No other bound of a host is modelled: calls can be nested, and items made, without end.
-/

namespace Tapscript

/-- What the library runs on. -/
structure Host where
  /-- The most decimal digits of an integer that is turned into text, if they are capped. -/
  digits : Option Nat
  /-- Shorter texts cannot be capped. -/
  digits_ge : ∀ most, digits = some most → 640 ≤ most

namespace Host

/-- Every integer has a text. -/
def unlimited : Host where
  digits := none
  digits_ge := by simp

/-- The cap that is set unless another one is asked for. -/
def standard : Host where
  digits := some 4300
  digits_ge := by simp

/-- The least number with more than `digits` decimal digits. -/
@[irreducible]
def beyond (digits : Nat) : Nat := Nat.pow 10 digits

/-- Whether an integer has a text. -/
def prints (host : Host) (n : Int) : Bool :=
  match host.digits with
  | none => true
  | some most => n.natAbs < beyond most

/-- The fault of an integer without a text. -/
def tooLong (host : Host) : Fault := .unfit (.tooManyDigits (host.digits.getD 0))

/-- What a call stops with that was about to stop with `e`. -/
def raised (host : Host) (e : Fault) : Fault :=
  if e.numbers.all host.prints then e else host.tooLong

/-- A result on a host. -/
def result {α : Type} (host : Host) : Except Fault α → Except Fault α
  | .ok a => .ok a
  | .error e => .error (host.raised e)

/-- An action on a host. -/
def act {σ α : Type} (host : Host) (act : Action σ α) : Action σ α := fun s =>
  match act s with
  | .ok a s' => .ok a s'
  | .error e s' => .error (host.raised e) s'

/-! ## What a host writes -/

@[simp]
theorem prints_unlimited (n : Int) : unlimited.prints n = true := rfl

@[simp]
theorem raised_unlimited (e : Fault) : unlimited.raised e = e :=
  if_pos (List.all_eq_true.mpr fun n _ => prints_unlimited n)

variable {host : Host} {e : Fault}

end Host

end Tapscript
