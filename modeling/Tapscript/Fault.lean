import Tapscript.Text.Grouped

/-!
# Refusals and faults

An execution ends early in one of two ways. It is *refused* when the script or its witness breaks a
rule of execution: a `Refusal` names the rule and the amounts involved, belongs to an `ErrorKind`
and has a message. The texts of the integers in a message are the decimal ones, however long; whether
a message can be written at all is up to the `Host`. Any other `Fault` is a wrong use of the library:
a value of a wrong type or out of its range, a position outside a sequence, something that is asked
for and is not there, or bookkeeping that no longer agrees with itself.
-/

namespace Tapscript

open Text (grouped)

/-! ## Kinds of error -/

/-- The kinds of script error. Every kind but `script` is an interpreter error. -/
inductive ErrorKind where
  | script
  | interpreter
  | stackUnderflow
  | stackOverflow
  | oversize
  | scriptFalse
  | invalidOpcode
  | tooManyOps
  deriving DecidableEq, Repr

namespace ErrorKind

def all : List ErrorKind :=
  [script, interpreter, stackUnderflow, stackOverflow, oversize, scriptFalse, invalidOpcode,
    tooManyOps]

/-- The published name of a kind. -/
def name : ErrorKind → String
  | script => "ScriptError"
  | interpreter => "InterpreterError"
  | stackUnderflow => "StackUnderflowError"
  | stackOverflow => "StackOverflowError"
  | oversize => "OversizeError"
  | scriptFalse => "ScriptFalse"
  | invalidOpcode => "InvalidOpcode"
  | tooManyOps => "TooManyOps"

/-- The kind with a given published name. -/
def ofName? (s : String) : Option ErrorKind := all.find? (·.name = s)

/-- A kind and the kinds it belongs to, from the most to the least specific. -/
def ancestry : ErrorKind → List ErrorKind
  | script => [script]
  | interpreter => [interpreter, script]
  | kind => [kind, interpreter, script]

/-- Whether an error of this kind ends an evaluation with a failed verdict. -/
def isInterpreter (kind : ErrorKind) : Bool := kind.ancestry.contains interpreter

end ErrorKind

/-! ## Refusals -/

/-- The rules of execution that can be broken. -/
inductive Refusal where
  /-- One item is longer than its limit. -/
  | itemTooLong (size limit : Int)
  /-- Two items together are longer than the limit of their concatenation. -/
  | joinTooLong (size limit : Int)
  /-- Adding items would exceed the element limit of the stacks. -/
  | tooManyItems (limit adding : Int)
  /-- Adding items would exceed the memory limit of the stacks. -/
  | tooManyBytes (limit adding : Int)
  /-- The main and alt stack together hold too many items. -/
  | tooDeep (held limit : Int)
  /-- An item was taken from an empty stack. -/
  | popEmpty
  /-- An item was looked for below the bottom, or above the top, of a stack. -/
  | peekOutside (held needed : Int)
  /-- The main stack holds fewer items than an opcode needs. -/
  | mainTooShallow (held needed : Int)
  /-- The alt stack is empty when an opcode needs an item from it. -/
  | altEmpty
  /-- More operations than the budget allows. -/
  | overBudget (limit : Int)
  /-- An opcode that is not implemented, by its name and the integers in the name. -/
  | unknownOpcode (name : String) (numbers : List Int)
  /-- The script ended with items on the main stack, none of them true. -/
  | nothingTrue
  /-- The script ended with an empty main stack. -/
  | nothingLeft
  deriving DecidableEq, Repr

namespace Refusal

def kind : Refusal → ErrorKind
  | itemTooLong .. | joinTooLong .. => .oversize
  | tooManyItems .. | tooManyBytes .. | tooDeep .. => .stackOverflow
  | popEmpty | peekOutside .. | mainTooShallow .. | altEmpty => .stackUnderflow
  | overBudget .. => .tooManyOps
  | unknownOpcode .. => .invalidOpcode
  | nothingTrue | nothingLeft => .scriptFalse

def message : Refusal → String
  | itemTooLong size limit =>
    s!"item length {grouped size} exceeds the limit of {grouped limit} bytes"
  | joinTooLong size limit =>
    s!"concatenated length {grouped size} exceeds the limit of {grouped limit} bytes"
  | tooManyItems limit adding =>
    s!"stack element limit of {grouped limit} exceeded adding {grouped adding} item(s)"
  | tooManyBytes limit adding =>
    s!"stack memory limit of {grouped limit} bytes exceeded adding {grouped adding} bytes"
  | tooDeep held limit =>
    s!"combined stack size of {grouped held} items must be less than {grouped limit}"
  | popEmpty => "cannot pop from an empty stack"
  | peekOutside held needed =>
    s!"stack depth {grouped held} less than required depth of {grouped needed}"
  | mainTooShallow held needed => s!"stack depth {held} less than required depth of {needed}"
  | altEmpty => "alt stack is empty"
  | overBudget limit => s!"op count exceeds the limit of {grouped limit}"
  | unknownOpcode name _ => s!"invalid opcode {name}"
  | nothingTrue => "no stack item is true"
  | nothingLeft => "stack is empty"

/-- The integers whose text stands in the message. -/
def numbers : Refusal → List Int
  | itemTooLong a b | joinTooLong a b | tooManyItems a b | tooManyBytes a b | tooDeep a b
  | peekOutside a b | mainTooShallow a b => [a, b]
  | overBudget limit => [limit]
  | unknownOpcode _ numbers => numbers
  | popEmpty | altEmpty | nothingTrue | nothingLeft => []

end Refusal

/-! ## Faults -/

/-- Values of the right type that are out of their range. -/
inductive Unfit where
  | zeroStep
  | notAByte
  /-- A value that is no opcode, by its printed form and the integers in it. -/
  | notAnOpcode (shown : String) (numbers : List Int)
  | negativeSetting (name : String) (n : Int)
  | noElements (n : Int)
  /-- An integer with more digits than are turned into text. -/
  | tooManyDigits (most : Nat)
  deriving DecidableEq, Repr

namespace Unfit

def message : Unfit → String
  | zeroStep => "slice step cannot be zero"
  | notAByte => "bytes must be in range(0, 256)"
  | notAnOpcode shown _ => s!"{shown} is not a valid Opcode"
  | negativeSetting name n => s!"{name} cannot be negative: {grouped n}"
  | noElements n => s!"stack_elements must be positive: {grouped n}"
  | tooManyDigits most =>
    s!"Exceeds the limit ({most} digits) for integer string conversion; " ++
      "use sys.set_int_max_str_digits() to increase the limit"

/-- The integers whose text stands in the message. The cap on digits itself has few of them. -/
def numbers : Unfit → List Int
  | notAnOpcode _ numbers => numbers
  | negativeSetting _ n | noElements n => [n]
  | zeroStep | notAByte | tooManyDigits _ => []

end Unfit

/-- Why a call did not return. -/
inductive Fault where
  /-- A rule of execution was broken. -/
  | refused (r : Refusal)
  /-- A value has the wrong type, or there is no number to compare with. -/
  | mismatch
  /-- A value has the right type and is out of its range. -/
  | unfit (u : Unfit)
  /-- A number does not fit the width it is stored in. -/
  | tooWide
  /-- The bookkeeping of a stack family no longer agrees with itself. -/
  | broken
  /-- There is nothing at the given position. -/
  | outOfRange
  /-- There is nothing of the given name. -/
  | unknownName
  /-- A part of something that is missing as a whole was asked for. -/
  | absent
  /-- A field that cannot be assigned was assigned. -/
  | frozen
  deriving DecidableEq, Repr

/-- The message of a fault, for the faults that have one. -/
def Fault.message? : Fault → Option String
  | refused r => some r.message
  | unfit u => some u.message
  | _ => none

/-- The integers whose text stands in the message of a fault. -/
def Fault.numbers : Fault → List Int
  | refused r => r.numbers
  | unfit u => u.numbers
  | _ => []

end Tapscript
