/-!
# Logbook — binary floating-point numbers

A floating-point number is read off its bits: a sign, an exponent and a fraction, in the widths of
its format. What matters for its decimal form is its value and the reals that round to it.

* **`Binary.Format`** — the two interchange formats, of 64 and of 32 bits.
* **`Binary.decode`** — the number that the bits stand for.
* **`Magnitude.bounds`** — the ends of the interval of reals that round to a number.
-/

namespace Logbook.Number

/-- A positive value `significand * 2 ^ exponent`. -/
structure Magnitude where
  significand : Nat
  exponent : Int
  /-- The gap to the value below is half the gap to the value above. -/
  narrowBelow : Bool
  deriving DecidableEq, Repr

/-- What the bits of a floating-point number stand for. -/
inductive Binary where
  | notANumber
  | infinite (negative : Bool)
  | zero (negative : Bool)
  | finite (negative : Bool) (magnitude : Magnitude)
  deriving DecidableEq, Repr

namespace Binary

/-- The widths of the exponent and of the fraction; the sign has one bit in front of them. -/
structure Format where
  exponentBits : Nat
  fractionBits : Nat

/-- The format of 64 bits. -/
def wide : Format := ⟨11, 52⟩

/-- The format of 32 bits. -/
def short : Format := ⟨8, 23⟩

/-- The exponent of the last place of the smallest numbers. -/
def Format.leastExponent (format : Format) : Int :=
  2 - (Nat.pow 2 (format.exponentBits - 1) : Int) - (format.fractionBits : Int)

/-- The number that the bits stand for in a format. -/
def decode (format : Format) (bits : Nat) : Binary :=
  let fraction := bits % Nat.pow 2 format.fractionBits
  let exponent := bits / Nat.pow 2 format.fractionBits % Nat.pow 2 format.exponentBits
  let negative := bits / Nat.pow 2 (format.fractionBits + format.exponentBits) % 2 == 1
  if exponent = Nat.pow 2 format.exponentBits - 1 then
    if fraction = 0 then infinite negative else notANumber
  else if exponent = 0 then
    if fraction = 0 then zero negative
    else finite negative ⟨fraction, format.leastExponent, false⟩
  else
    finite negative
      ⟨Nat.pow 2 format.fractionBits + fraction, format.leastExponent + (exponent : Int) - 1,
        fraction == 0 && exponent != 1⟩

end Binary

/-- A ratio of naturals. -/
structure Ratio where
  num : Nat
  den : Nat

/-- The ratio `n * 2 ^ exponent`. -/
def Ratio.scaled (n : Nat) (exponent : Int) : Ratio :=
  ⟨n * Nat.pow 2 exponent.toNat, Nat.pow 2 (-exponent).toNat⟩

namespace Magnitude

/-- The value itself. -/
def value (x : Magnitude) : Ratio :=
  Ratio.scaled x.significand x.exponent

/-- The halfway points to the neighbours below and above. -/
def bounds (x : Magnitude) : Ratio × Ratio :=
  let low := if x.narrowBelow then 4 * x.significand - 1 else 4 * x.significand - 2
  (Ratio.scaled low (x.exponent - 2), Ratio.scaled (4 * x.significand + 2) (x.exponent - 2))

/-- Whether the halfway points themselves round to the number: they go to the even neighbour. -/
def ownsBounds (x : Magnitude) : Bool :=
  x.significand % 2 == 0

end Magnitude

end Logbook.Number
