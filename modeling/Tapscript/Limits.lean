import Tapscript.Admission
import Tapscript.Comparison

/-!
# Limits of an execution

`Limits` holds the four numbers an execution is held to. They are never negative, the element limit
is positive, and the size of an item, the memory and the number of operations may be left without a
number. Limits are made from `Settings`, which are whatever a caller wrote for the four fields, and
changed limits are checked again.
-/

namespace Tapscript

structure Limits where
  /-- The most bytes in one item. -/
  itemSize : Option Nat
  /-- The combined number of items on the main and alt stack stays below this number. -/
  stackElements : Nat
  /-- The most bytes on the main and alt stack together. -/
  stackMemory : Option Nat
  /-- The most operations in one run of a script; without a number there is no such limit. -/
  opBudget : Option Nat
  stackElements_pos : 0 < stackElements
  deriving DecidableEq, Repr

/-- What a caller wrote for each field. -/
structure Settings where
  itemSize : Value := .int maxItemSize
  stackElements : Value := .int maxStackElements
  stackMemory : Value := .int maxStackMemory
  opBudget : Value := .nothing

/-! ## Settings -/

namespace Settings

/-- The published name of the item size. -/
def itemSizeName : String := "item_size"

/-- The published name of the element limit. -/
def stackElementsName : String := "stack_elements"

/-- The published name of the memory limit. -/
def stackMemoryName : String := "stack_memory_usage"

/-- The published name of the op budget. -/
def opBudgetName : String := "ops_per_script"

/-- Writes one field, found by its published name. -/
def put (s : Settings) (name : String) (v : Value) : Except Fault Settings :=
  if name = itemSizeName then .ok { s with itemSize := v }
  else if name = stackElementsName then .ok { s with stackElements := v }
  else if name = stackMemoryName then .ok { s with stackMemory := v }
  else if name = opBudgetName then .ok { s with opBudget := v }
  else .error .mismatch

/-- Writes several fields. -/
def putAll (s : Settings) (fields : List (String × Value)) : Except Fault Settings :=
  fields.foldlM (fun s field => s.put field.1 field.2) s

/-- A field as an amount: a number that is not negative, or nothing. -/
def amount (name : String) : Value → Except Fault (Option Nat)
  | .nothing => .ok none
  | .int n => if n < 0 then .error (.unfit (.negativeSetting name n)) else .ok (some n.toNat)
  | _ => .error .mismatch

/-- The limits that settings stand for. Each field is checked in turn, and last of all that the
element limit is a positive number. -/
def limits (s : Settings) : Except Fault Limits := do
  let itemSize ← amount itemSizeName s.itemSize
  let elements ← amount stackElementsName s.stackElements
  let memory ← amount stackMemoryName s.stackMemory
  let budget ← amount opBudgetName s.opBudget
  match elements with
  | none => .error .mismatch
  | some n =>
    if h : 0 < n then .ok ⟨itemSize, n, memory, budget, h⟩
    else .error (.unfit (.noElements n))

end Settings

/-! ## Limits -/

namespace Limits

/-- The consensus limits of tapscript. -/
def tapscript : Limits :=
  ⟨some maxItemSize, maxStackElements, some maxStackMemory, none, by decide⟩

/-- The limits with the given fields, and the consensus limits for the others. -/
def ofFields (fields : List (String × Value)) : Except Fault Limits := do
  (← ({} : Settings).putAll fields).limits

/-- The fields with their published names, in order. -/
def fields (l : Limits) : List (String × Option Nat) :=
  [(Settings.itemSizeName, l.itemSize), (Settings.stackElementsName, some l.stackElements),
    (Settings.stackMemoryName, l.stackMemory), (Settings.opBudgetName, l.opBudget)]

/-- An amount as a setting. -/
def setting : Option Nat → Value
  | some n => .int n
  | none => .nothing

/-- The settings that stand for given limits. -/
def settings (l : Limits) : Settings :=
  { itemSize := setting l.itemSize
    stackElements := setting (some l.stackElements)
    stackMemory := setting l.stackMemory
    opBudget := setting l.opBudget }

/-- The limits with some fields written anew, checked like new ones. -/
def evolve (l : Limits) (changes : List (String × Value)) : Except Fault Limits := do
  (← l.settings.putAll changes).limits

theorem amount_setting (name : String) (a : Option Nat) :
    Settings.amount name (setting a) = .ok a := by
  cases a with
  | none => rfl
  | some n => simp [setting, Settings.amount]

/-- The settings of given limits stand for those limits. -/
theorem limits_settings (l : Limits) : l.settings.limits = .ok l := by
  simp [Settings.limits, settings, amount_setting, l.stackElements_pos, bind, Except.bind]

/-- The most bytes in one item, as a bound. -/
def itemBound (l : Limits) : Bound := l.itemSize.map Int.ofNat

/-- A value as an item, if it stays within the item size. -/
def accept (l : Limits) (v : Value) : Except Fault Item := v.accept l.itemBound

/-! ## Comparison and text -/

/-- Limits compare field by field. -/
def comparison (a b : Limits) : Comparison :=
  .ofAmounts ((a.fields.map (·.2)).zip (b.fields.map (·.2)))

/-- Limits compare with missing limits as unequal, and two missing ones as equal; neither have an
order. -/
def comparison? : Option Limits → Option Limits → Comparison
  | some a, some b => a.comparison b
  | none, none => ⟨true, none⟩
  | _, _ => .unordered

/-- The text of an amount. -/
def amountText : Option Nat → String
  | some n => toString n
  | none => "None"

/-- The printed form of limits. -/
def printed (l : Limits) : String :=
  let entries := l.fields.map fun (name, a) => s!"{name}={amountText a}"
  "InterpreterLimits(" ++ ", ".intercalate entries ++ ")"

end Limits

end Tapscript
