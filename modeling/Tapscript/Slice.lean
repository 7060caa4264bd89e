import Tapscript.Fault

/-!
# Positions and slices of a sequence

A position counts from the front, or from the end when it is negative. A slice names the positions
`start`, `start + step`, … up to but without `stop`. A missing bound is the end of the sequence that
the step comes from, or goes to; a bound outside the sequence is moved to its nearest end.
-/

namespace Tapscript

/-- The place that position `i` names in a sequence of length `n`. -/
def position? (n : Nat) (i : Int) : Option Nat :=
  if i < 0 then
    if 0 ≤ i + n then some (i + n).toNat else none
  else
    if i < n then some i.toNat else none

structure Slice where
  start : Option Int := none
  stop : Option Int := none
  step : Option Int := none
  deriving DecidableEq, Repr

namespace Slice

/-- A bound counted from the front and moved into `low … high`. -/
def clamp (n low high i : Int) : Int :=
  max low (min high (if i < 0 then i + n else i))

/-- The number of steps of length `step` that stay in a gap. -/
def steps (gap step : Int) : Nat :=
  if 0 < gap then ((gap - 1) / step + 1).toNat else 0

/-- The positions of a slice in a sequence of length `n`, in the order of the slice. -/
def positions (s : Slice) (n : Nat) : Except Fault (List Nat) :=
  let step := s.step.getD 1
  let along (start : Int) (count : Nat) : List Nat :=
    (List.range count).map fun (k : Nat) => (start + k * step).toNat
  if 0 < step then
    let start := (s.start.map (clamp n 0 n)).getD 0
    let stop := (s.stop.map (clamp n 0 n)).getD n
    .ok (along start (steps (stop - start) step))
  else if step < 0 then
    let start := (s.start.map (clamp n (-1) (n - 1))).getD (n - 1)
    let stop := (s.stop.map (clamp n (-1) (n - 1))).getD (-1)
    .ok (along start (steps (start - stop) (-step)))
  else .error (.unfit .zeroStep)

/-- The elements of a sequence at the positions of a slice. -/
def pick {α : Type} (s : Slice) (xs : Array α) : Except Fault (List α) :=
  (s.positions xs.size).map (·.filterMap (xs[·]?))

end Slice

end Tapscript
