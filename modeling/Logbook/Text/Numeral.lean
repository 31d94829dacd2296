import Logbook.Text

/-!
# Logbook — numerals

Whole numbers in decimal and single hexadecimal digits.

* **`decimal`**, **`integer`** — the shortest decimal form.
* **`lastDigits`**, **`atLeast`** — a fixed, respectively a least, number of digits.
* **`readNatural?`**, **`readInteger?`** — ASCII digits, for an integer after at most one sign.
* **`readInteger64?`** — the same into 64 bits, digit by digit.
* **`hexDigit?`** — the value of a hexadecimal digit of either case.
-/

namespace Logbook.Numeral

/-- The decimal digits of `n`, without a leading zero. -/
def decimal (n : Nat) : Text :=
  Nat.toDigits 10 n

/-- The decimal form of an integer, with `-` in front of a negative one. -/
def integer : Int → Text
  | .ofNat n => decimal n
  | .negSucc n => '-' :: decimal (n + 1)

/-- The last `width` decimal digits of `n`, with zeros in front where there are fewer. -/
def lastDigits : Nat → Nat → Text
  | 0, _ => []
  | width + 1, n => lastDigits width (n / 10) ++ [Nat.digitChar (n % 10)]

/-- The decimal digits of `n`, with zeros in front up to `width` digits. -/
def atLeast (width n : Nat) : Text :=
  if n < Nat.pow 10 width then lastDigits width n else decimal n

/-- The number that a run of decimal digits denotes. -/
def value (digits : Text) : Nat :=
  Nat.ofDigitChars 10 digits 0

/-- Reads one or more ASCII digits, and nothing else. -/
def readNatural? (text : Text) : Option Nat :=
  if !text.isEmpty && text.all Char.isDigit then some (value text) else none

/-- Reads one or more ASCII digits after at most one sign, and nothing else. -/
def readInteger? : Text → Option Int
  | '+' :: digits => (readNatural? digits).map Int.ofNat
  | '-' :: digits => (readNatural? digits).map fun n => -Int.ofNat n
  | digits => (readNatural? digits).map Int.ofNat

/-! ## Integers of 64 bits -/

/-- Whether an integer fits 64 bits. -/
def fits64 (n : Int) : Bool :=
  -9223372036854775808 ≤ n && n ≤ 9223372036854775807

/-- The integer, if it fits 64 bits. -/
def within64? (n : Int) : Option Int :=
  if fits64 n then some n else none

/-- Puts one more digit behind an integer of 64 bits, which grows away from zero on the side of
`sign`. Neither ten times the integer nor the sum with the digit may leave the 64 bits. -/
def shift64? (sign number : Int) (c : Char) : Option Int := do
  let tenfold ← within64? (10 * number)
  if c.isDigit then within64? (tenfold + sign * (c.toNat - '0'.toNat : Nat)) else none

/-- Reads one or more ASCII digits into an integer of 64 bits on the side of `sign`. -/
def readSigned64? (sign : Int) (digits : Text) : Option Int :=
  if digits.isEmpty then none else digits.foldlM (shift64? sign) 0

/-- Reads one or more ASCII digits after at most one sign, and nothing else, into 64 bits. -/
def readInteger64? : Text → Option Int
  | '+' :: digits => readSigned64? 1 digits
  | '-' :: digits => readSigned64? (-1) digits
  | digits => readSigned64? 1 digits

/-! ## Hexadecimal digits -/

/-- The value of a hexadecimal digit of either case. -/
def hexDigit? (c : Char) : Option Nat :=
  if '0' ≤ c ∧ c ≤ '9' then some (c.toNat - '0'.toNat)
  else if 'a' ≤ c ∧ c ≤ 'f' then some (c.toNat - 'a'.toNat + 10)
  else if 'A' ≤ c ∧ c ≤ 'F' then some (c.toNat - 'A'.toNat + 10)
  else none

/-- The number that one or more hexadecimal digits denote. -/
def readHex? (text : Text) : Option Nat :=
  if text.isEmpty then none
  else text.foldlM (fun number c => (hexDigit? c).map (16 * number + ·)) 0

end Logbook.Numeral
