/-!
# Numbers in groups of three digits

Amounts in messages are written in decimal with a comma before every group of three digits,
counted from the right: `1,234,567`. A negative amount has its sign in front. Every amount has such a
form here; a `Host` may refuse to write a long one.
-/

namespace Tapscript.Text

/-- Exactly three decimal digits of a number below one thousand. -/
def threeDigits (n : Nat) : List Char :=
  [Nat.digitChar (n / 100 % 10), Nat.digitChar (n / 10 % 10), Nat.digitChar (n % 10)]

/-- The grouped decimal digits of a natural number. -/
def groupedDigits (n : Nat) : List Char :=
  if n < 1000 then Nat.toDigits 10 n
  else groupedDigits (n / 1000) ++ ',' :: threeDigits (n % 1000)
termination_by n

/-- The grouped decimal form of an integer. -/
def grouped : Int → String
  | .ofNat n => String.ofList (groupedDigits n)
  | .negSucc n => String.ofList ('-' :: groupedDigits (n + 1))

end Tapscript.Text
