import Logbook.Number.Binary
import Logbook.Text.Numeral

/-!
# Logbook — shortest decimals

A floating-point number is written with the fewest decimal digits that read back to it. Of several
such decimals the nearest is taken, and of two equally near ones the larger. It is written
positionally: there is never an exponent, and an integral value has no point.

* **`Decimal`** — digits times a power of ten.
* **`Magnitude.shortest`** — the selection, in exact arithmetic of naturals.
* **`Binary.text`** — the number as text.
-/

namespace Logbook.Number

/-- The value `digits * 10 ^ exponent`. -/
structure Decimal where
  digits : Nat
  exponent : Int
  deriving DecidableEq, Repr

/-- Compares a decimal with a ratio. -/
def Decimal.compareTo (d : Decimal) (r : Ratio) : Ordering :=
  compare (d.digits * Nat.pow 10 d.exponent.toNat * r.den)
    (r.num * Nat.pow 10 (-d.exponent).toNat)

namespace Magnitude

/-- Whether a decimal lies among the reals that round to the number. -/
def readsBack (x : Magnitude) (d : Decimal) : Bool :=
  let low := d.compareTo x.bounds.1
  let high := d.compareTo x.bounds.2
  (low == .gt || (x.ownsBounds && low == .eq)) && (high == .lt || (x.ownsBounds && high == .eq))

/-- The least `k` with the value below `10 ^ k`, found from the number of digits in front of the
point, or of zeros behind it. -/
def scale (x : Magnitude) : Int :=
  let r := x.value
  let guess : Int :=
    if r.den ≤ r.num then (Numeral.decimal (r.num / r.den)).length
    else 1 - (Numeral.decimal (r.den / r.num)).length
  let below (k : Int) : Bool := Decimal.compareTo ⟨1, k⟩ r == .gt
  ([guess - 1, guess, guess + 1].find? below).getD (guess + 2)

/-- The nearest of the value's two neighbours among the multiples of `10 ^ exponent`, if one of
them reads back; the larger one on a tie. -/
def nearestOn? (x : Magnitude) (exponent : Int) : Option Decimal :=
  let r := x.value
  let num := r.num * Nat.pow 10 (-exponent).toNat
  let den := r.den * Nat.pow 10 exponent.toNat
  let lower : Decimal := ⟨num / den, exponent⟩
  let upper : Decimal := ⟨num / den + 1, exponent⟩
  match x.readsBack lower, x.readsBack upper with
  | true, true => if 2 * (num % den) < den then some lower else some upper
  | true, false => some lower
  | false, true => some upper
  | false, false => none

/-- The value in full, which every number has. -/
def exact (x : Magnitude) : Decimal :=
  if 0 ≤ x.exponent then ⟨x.significand * Nat.pow 2 x.exponent.toNat, 0⟩
  else ⟨x.significand * Nat.pow 5 (-x.exponent).toNat, x.exponent⟩

/-- The decimal with the fewest digits that reads back: with one digit if there is such a decimal,
or else with two, and so on up to seventeen. -/
def shortest (x : Magnitude) : Decimal :=
  let leading := x.scale - 1
  ((List.range 17).findSome? fun (n : Nat) => x.nearestOn? (leading - n)).getD x.exact

end Magnitude

namespace Decimal

/-- The decimal in positional notation. Zeros at the end of a fraction are left out. -/
def text (d : Decimal) : Text :=
  let digits := Numeral.decimal d.digits
  if 0 ≤ d.exponent then digits ++ List.replicate d.exponent.toNat '0'
  else
    let places := (-d.exponent).toNat
    let padded := List.replicate (places + 1 - digits.length) '0' ++ digits
    let fraction := Text.dropTrailing '0' (padded.drop (padded.length - places))
    let whole := padded.take (padded.length - places)
    if fraction.isEmpty then whole else whole ++ '.' :: fraction

end Decimal

/-- A sign in front of what follows. -/
def signed (negative : Bool) (text : Text) : Text :=
  if negative then '-' :: text else text

/-- A floating-point number as text. Zero has a sign too. -/
def Binary.text : Binary → Text
  | .notANumber => "NaN".toList
  | .infinite negative => signed negative "inf".toList
  | .zero negative => signed negative "0".toList
  | .finite negative magnitude => signed negative magnitude.shortest.text

end Logbook.Number
