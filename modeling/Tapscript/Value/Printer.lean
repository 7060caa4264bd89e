import Tapscript.Value

/-!
# The text of a value

A value has a printed form, in which texts and bytes are quoted, an item is told from plain bytes,
and sequences stand in brackets. In its plain form a text stands for itself, and an item is quoted
as plain bytes are. The integers in a form are kept beside it (`Value.numbers`), since a `Host` may
have no text for a long one.
-/

namespace Tapscript.Value

/-- The parts of a sequence between brackets, with a comma and a blank between two of them. -/
def enclosed (opening closing : Char) (parts : List (List Char)) : List Char :=
  opening :: ([',', ' '].intercalate parts ++ [closing])

/-- Words as a list of numbers. -/
def printedWords (ws : List Nat) : List Char :=
  enclosed '[' ']' (ws.map fun w => (toString w).toList)

/-- An array of words is printed with the letter of its width, and without a list if it is empty. -/
def printedArray (width : WordWidth) (ws : List Nat) : List Char :=
  "array".toList ++ enclosed '(' ')' (
    [Text.Quoted.apostrophe, width.letter, Text.Quoted.apostrophe] ::
      if ws.isEmpty then [] else [printedWords ws])

mutual

/-- The printed form of a value. A view is printed by what it shows, and a tuple of one value has a
comma behind it. -/
def printed : Value → List Char
  | bytes content | borrowed content => Text.Quoted.ofBytes content.toList
  | growable content => "bytearray(".toList ++ Text.Quoted.ofGrowable content.toList ++ [')']
  | item x => x.printed
  | words width ws => printedArray width ws
  | wordView _ ws => printedWords ws
  | list elements => enclosed '[' ']' (printedEach elements)
  | tuple [only] => '(' :: (printed only ++ [',', ')'])
  | tuple elements => enclosed '(' ')' (printedEach elements)
  | text s => (Text.Quoted.ofText s).toList
  | int n => (toString n).toList
  | nothing => "None".toList

/-- The printed forms of several values. -/
def printedEach : List Value → List (List Char)
  | [] => []
  | v :: vs => printed v :: printedEach vs

end

mutual

/-- The integers whose text stands in the printed form of a value, which are those of its plain form
too. -/
def numbers : Value → List Int
  | int n => [n]
  | words _ ws | wordView _ ws => ws.map fun (w : Nat) => (w : Int)
  | list elements | tuple elements => numbersEach elements
  | _ => []

/-- The integers in the printed forms of several values. -/
def numbersEach : List Value → List Int
  | [] => []
  | v :: vs => numbers v ++ numbersEach vs

end

/-- The plain form of a value. -/
def plain : Value → String
  | text s => s
  | item x => String.ofList (Text.Quoted.ofBytes x.bytes.toList)
  | v => String.ofList v.printed

end Tapscript.Value
