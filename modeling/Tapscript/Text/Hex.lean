/-!
# Hexadecimal text

Bytes are written as pairs of lower-case hexadecimal digits, the high half first. Main statement:
`decode?_encode`, written bytes read back as themselves.
-/

namespace Tapscript.Text.Hex

/-! ## Digits of a number -/

/-- The last `width` hexadecimal digits of `n`, most significant first. -/
def digits : Nat → Nat → List Char
  | 0, _ => []
  | width + 1, n => digits width (n / 16) ++ [Nat.digitChar (n % 16)]

@[simp]
theorem length_digits (width n : Nat) : (digits width n).length = width := by
  induction width generalizing n with
  | zero => rfl
  | succ width ih => simp [digits, ih]

/-- The value of one hexadecimal digit, in either case. -/
def value? (c : Char) : Option Nat :=
  if '0' ≤ c ∧ c ≤ '9' then some (c.toNat - '0'.toNat)
  else if 'a' ≤ c ∧ c ≤ 'f' then some (c.toNat - 'a'.toNat + 10)
  else if 'A' ≤ c ∧ c ≤ 'F' then some (c.toNat - 'A'.toNat + 10)
  else none

theorem value?_digitChar : ∀ n < 16, value? (Nat.digitChar n) = some n := by decide

/-! ## Bytes -/

/-- The two digits of a byte. -/
def pair (b : UInt8) : List Char := digits 2 b.toNat

/-- Two digits for every byte, in order. -/
def encode (bytes : List UInt8) : List Char := bytes.flatMap pair

/-- Reads digits two at a time; refuses an odd digit and any other character. -/
def decode? : List Char → Option (List UInt8)
  | [] => some []
  | [_] => none
  | high :: low :: rest =>
    match value? high, value? low with
    | some h, some l => (decode? rest).map (UInt8.ofNat (16 * h + l) :: ·)
    | _, _ => none

theorem pair_eq (b : UInt8) :
    pair b = [Nat.digitChar (b.toNat / 16), Nat.digitChar (b.toNat % 16)] := by
  have hb : b.toNat < 256 := b.toNat_lt
  have h : b.toNat / 16 % 16 = b.toNat / 16 := by omega
  simp [pair, digits, h]

/-- Written bytes read back as themselves. -/
theorem decode?_encode (bytes : List UInt8) : decode? (encode bytes) = some bytes := by
  induction bytes with
  | nil => rfl
  | cons b rest ih =>
    have hb : b.toNat < 256 := b.toNat_lt
    have high := value?_digitChar (b.toNat / 16) (by omega)
    have low := value?_digitChar (b.toNat % 16) (by omega)
    have whole : 16 * (b.toNat / 16) + b.toNat % 16 = b.toNat := by omega
    have ih' : decode? (rest.flatMap pair) = some rest := ih
    simp [encode, pair_eq, decode?, high, low, whole, ih']

end Tapscript.Text.Hex
