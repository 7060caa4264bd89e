import Tapscript.Text.Hex
import Tapscript.Text.Printable

/-!
# Quoted text and quoted bytes

A quotation stands between two marks. The mark is the apostrophe, unless the content has an
apostrophe and no double quote. Inside, the backslash and the mark in use follow a backslash; tab,
line feed and carriage return are `\t`, `\n` and `\r`; a character that does not stand for itself
is written by its code as `\xhh`, `\uhhhh` or `\Uhhhhhhhh`.

Which characters stand for themselves, which follow a backslash whatever the mark, and what is put
in front, is the quotation's `Style`: bytes keep the printable ASCII characters and have a `b` in
front, and so do growable bytes, which guard the apostrophe even between double quotes; text keeps
every printable character.
-/

namespace Tapscript.Text.Quoted

/-! ## Marks and escapes -/

def apostrophe : Char := '\x27'

def doubleQuote : Char := '\x22'

def backslash : Char := '\x5c'

/-- The mark around a content. -/
def mark (content : List Char) : Char :=
  if apostrophe ∈ content ∧ doubleQuote ∉ content then doubleQuote else apostrophe

/-- A character written by its code, in the shortest of the three widths. -/
def codeEscape (c : Char) : List Char :=
  if c.toNat < 0x100 then backslash :: 'x' :: Hex.digits 2 c.toNat
  else if c.toNat < 0x10000 then backslash :: 'u' :: Hex.digits 4 c.toNat
  else backslash :: 'U' :: Hex.digits 8 c.toNat

/-- What a quotation puts in front, which characters stand for themselves in it, and which of them
follow a backslash whatever the mark. -/
structure Style where
  lead : List Char
  keeps : Char → Bool
  guards : List Char := []

/-- One character of the content, written between marks `m`. -/
def escape (style : Style) (m c : Char) : List Char :=
  if c = backslash ∨ c = m ∨ c ∈ style.guards then [backslash, c]
  else if c = '\t' then [backslash, 't']
  else if c = '\n' then [backslash, 'n']
  else if c = '\r' then [backslash, 'r']
  else if style.keeps c then [c]
  else codeEscape c

/-- A content between marks `m`. -/
def enclose (style : Style) (m : Char) (content : List Char) : List Char :=
  style.lead ++ m :: (content.flatMap (escape style m) ++ [m])

/-- The quotation of a content. -/
def quote (style : Style) (content : List Char) : List Char :=
  enclose style (mark content) content

/-! ## The styles -/

/-- Bytes keep the printable ASCII characters. -/
def Style.bytes : Style := { lead := ['b'], keeps := fun c => 0x20 ≤ c.toNat && c.toNat < 0x7f }

/-- Growable bytes guard the apostrophe. -/
def Style.growable : Style := { Style.bytes with guards := [apostrophe] }

/-- Text keeps every printable character. -/
def Style.text : Style := { lead := [], keeps := isPrintable }

/-- The characters with the codes of some bytes. -/
def characters (bytes : List UInt8) : List Char := bytes.map fun b => Char.ofNat b.toNat

/-- The quotation of a byte string. -/
def ofBytes (bytes : List UInt8) : List Char := quote .bytes (characters bytes)

/-- The quotation of a growable byte string. -/
def ofGrowable (bytes : List UInt8) : List Char := quote .growable (characters bytes)

/-- The quotation of a text. -/
def ofText (s : String) : String := String.ofList (quote .text s.toList)

end Tapscript.Text.Quoted
