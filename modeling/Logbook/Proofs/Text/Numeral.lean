import Logbook.Text.Numeral

/-!
# Logbook — numerals

`Numeral.lastDigits` cuts a number down to a width and fills up with zeros, digit by digit from the
end. What it writes has exactly that many characters, all of them digits, and is read back as the
number without what was cut off. Every other numeral of the library is digits as well, behind a
sign or not, and is read back as its number.

* **`length_lastDigits`**, **`isDigit_of_mem_lastDigits`** — the form.
* **`value_lastDigits`** — the value, by induction on the width: the last digit is the remainder by
  ten, and the digits in front of it are those of the quotient.
* **`IsNatural`**, **`IsInteger`** — numerals of a number, and what reading makes of them.
* **`readInteger64?_eq_some_iff`** — reading into 64 bits, by `foldlM_shift64?_eq_some_iff` for the
  digits behind those that are read.
-/

namespace Logbook.Numeral

theorem length_lastDigits (width n : Nat) : (lastDigits width n).length = width := by
  induction width generalizing n with
  | zero => rfl
  | succ width ih =>
      unfold lastDigits
      rw [List.length_append, ih]
      rfl

theorem isDigit_of_mem_lastDigits {width n : Nat} {c : Char} (hc : c ∈ lastDigits width n) :
    c.isDigit := by
  induction width generalizing n with
  | zero => cases hc
  | succ width ih =>
      unfold lastDigits at hc
      rcases List.mem_append.mp hc with hfront | hlast
      · exact ih hfront
      · rw [List.mem_singleton.mp hlast, Nat.isDigit_digitChar, decide_eq_true_iff]
        omega

theorem value_concat_digitChar (digits : Text) {d : Nat} (hd : d < 10) :
    value (digits ++ [Nat.digitChar d]) = 10 * value digits + d := by
  have hdigit : (Nat.digitChar d).toNat - '0'.toNat = d := by
    rw [Nat.toNat_digitChar_of_lt_ten hd]
    show 48 + d - 48 = d
    omega
  unfold value
  rw [Nat.ofDigitChars_append, Nat.ofDigitChars_cons, hdigit]
  rfl

theorem value_lastDigits (width n : Nat) : value (lastDigits width n) = n % Nat.pow 10 width := by
  induction width generalizing n with
  | zero => exact (Nat.mod_one n).symm
  | succ width ih =>
      have hdigit : n % 10 < 10 := Nat.mod_lt n (by decide)
      unfold lastDigits
      rw [value_concat_digitChar _ hdigit, ih]
      show 10 * (n / 10 % 10 ^ width) + n % 10 = n % 10 ^ (width + 1)
      rw [Nat.pow_succ', Nat.mod_mul]
      omega

/-! ## Reading numerals back -/

/-- One or more digits with this value. -/
structure IsNatural (digits : Text) (n : Nat) : Prop where
  ne_nil : digits ≠ []
  isDigit : ∀ c ∈ digits, c.isDigit = true
  value_eq : value digits = n

/-- Such digits behind at most one sign. -/
inductive IsInteger : Text → Int → Prop where
  | unsigned {digits : Text} {n : Nat} (h : IsNatural digits n) : IsInteger digits n
  | positive {digits : Text} {n : Nat} (h : IsNatural digits n) : IsInteger ('+' :: digits) n
  | negative {digits : Text} {n : Nat} (h : IsNatural digits n) : IsInteger ('-' :: digits) (-n)

theorem readNatural?_eq_some_iff {text : Text} {n : Nat} :
    readNatural? text = some n ↔ IsNatural text n := by
  simp only [readNatural?, Option.ite_none_right_eq_some, Bool.and_eq_true, Bool.not_eq_true',
    List.isEmpty_eq_false_iff, List.all_eq_true, Option.some.injEq]
  constructor
  · rintro ⟨⟨hne, hdigit⟩, hvalue⟩
    exact ⟨hne, hdigit, hvalue⟩
  · rintro ⟨hne, hdigit, hvalue⟩
    exact ⟨⟨hne, hdigit⟩, hvalue⟩

/-- A digit is neither sign. -/
theorem IsNatural.ne_sign {digits rest : Text} {c : Char} {n : Nat} (h : IsNatural digits n)
    (hdigits : digits = c :: rest) : c ≠ '+' ∧ c ≠ '-' := by
  subst hdigits
  have hdigit := h.isDigit c List.mem_cons_self
  constructor
  · rintro rfl
    exact absurd hdigit (by decide)
  · rintro rfl
    exact absurd hdigit (by decide)

theorem IsInteger.readInteger?_eq {text : Text} {n : Int} (h : IsInteger text n) :
    readInteger? text = some n := by
  cases h with
  | positive h => simp [readInteger?, readNatural?_eq_some_iff.mpr h]
  | negative h => simp [readInteger?, readNatural?_eq_some_iff.mpr h]
  | unsigned h =>
      rw [readInteger?, readNatural?_eq_some_iff.mpr h]
      · rfl
      · exact fun _ hdigits => (h.ne_sign hdigits).1 rfl
      · exact fun _ hdigits => (h.ne_sign hdigits).2 rfl

/-- Behind its first character an integer has digits only. -/
theorem IsInteger.exists_cons {text : Text} {n : Int} (h : IsInteger text n) :
    ∃ c digits, text = c :: digits ∧ ∀ d ∈ digits, d.isDigit = true := by
  cases h with
  | positive h => exact ⟨'+', _, rfl, h.isDigit⟩
  | negative h => exact ⟨'-', _, rfl, h.isDigit⟩
  | unsigned h =>
      obtain ⟨c, digits, rfl⟩ := List.exists_cons_of_ne_nil h.ne_nil
      exact ⟨c, digits, rfl, fun d hd => h.isDigit d (List.mem_cons_of_mem c hd)⟩

theorem isNatural_decimal (n : Nat) : IsNatural (decimal n) n where
  ne_nil := Nat.toDigits_ne_nil
  isDigit _ hc := Nat.isDigit_of_mem_toDigits (by decide) (by decide) hc
  value_eq := Nat.ofDigitChars_ten_toDigits

theorem isNatural_lastDigits {width n : Nat} (hwidth : 0 < width) (h : n < Nat.pow 10 width) :
    IsNatural (lastDigits width n) n where
  ne_nil hnil := by
    have hlength := length_lastDigits width n
    rw [hnil] at hlength
    exact Nat.ne_of_lt hwidth hlength
  isDigit _ hc := isDigit_of_mem_lastDigits hc
  value_eq := by rw [value_lastDigits, Nat.mod_eq_of_lt h]

theorem isNatural_atLeast {width : Nat} (hwidth : 0 < width) (n : Nat) :
    IsNatural (atLeast width n) n := by
  unfold atLeast
  split
  · next h => exact isNatural_lastDigits hwidth h
  · exact isNatural_decimal n

theorem isInteger_integer (n : Int) : IsInteger (integer n) n := by
  cases n with
  | ofNat n => exact .unsigned (isNatural_decimal n)
  | negSucc n => exact .negative (isNatural_decimal (n + 1))

/-! ## Reading into 64 bits

The range is tested at every digit. The number grows away from zero on the way, so if what it comes
to is in range then all that stood before it was, and no test refuses too early. -/

theorem fits64_iff {n : Int} :
    fits64 n = true ↔ -9223372036854775808 ≤ n ∧ n ≤ 9223372036854775807 := by
  simp only [fits64, Bool.and_eq_true, decide_eq_true_eq]

theorem within64?_eq_some_iff {n m : Int} : within64? n = some m ↔ m = n ∧ fits64 n = true := by
  rw [within64?, Option.ite_none_right_eq_some, Option.some.injEq, and_comm, eq_comm]

theorem le_ofDigitChars (digits : Text) (n : Nat) : n ≤ Nat.ofDigitChars 10 digits n := by
  induction digits generalizing n with
  | nil => exact Nat.le_refl n
  | cons c rest ih =>
      rw [Nat.ofDigitChars_cons]
      have hrest := ih (10 * n + (c.toNat - '0'.toNat))
      omega

section

variable {sign : Int} (hsign : sign = 1 ∨ sign = -1)

include hsign

/-- Nearer to zero on the same side, a number in range stays in range. -/
theorem fits64_of_le {a b : Nat} (hab : a ≤ b) (hb : fits64 (sign * b) = true) :
    fits64 (sign * a) = true := by
  rw [fits64_iff] at hb ⊢
  rcases hsign with rfl | rfl
  · omega
  · omega

theorem shift64?_eq_some_iff {n : Nat} {c : Char} {m : Int} :
    shift64? sign (sign * n) c = some m
      ↔ c.isDigit = true ∧ m = sign * (10 * n + (c.toNat - '0'.toNat) : Nat)
        ∧ fits64 m = true := by
  simp only [shift64?, Option.bind_eq_bind, Option.bind_eq_some_iff, within64?_eq_some_iff,
    Option.ite_none_right_eq_some]
  generalize c.toNat - '0'.toNat = d
  have hsum : 10 * (sign * n) + sign * d = sign * (10 * n + d : Nat) := by
    rcases hsign with rfl | rfl
    · omega
    · omega
  constructor
  · rintro ⟨tenfold, ⟨rfl, -⟩, hdigit, rfl, hfits⟩
    exact ⟨hdigit, hsum, hfits⟩
  · rintro ⟨hdigit, rfl, hfits⟩
    -- ten times the number lies between it and what it becomes
    have htenfold : fits64 (10 * (sign * n)) = true := by
      have hfront := fits64_of_le hsign (Nat.le_add_right (10 * n) d) hfits
      rwa [Int.natCast_mul, Int.mul_left_comm] at hfront
    refine ⟨_, ⟨rfl, htenfold⟩, hdigit, hsum.symm, ?_⟩
    rw [hsum]
    exact hfits

theorem foldlM_shift64?_eq_some_iff {digits : Text} {n : Nat} {m : Int}
    (hn : fits64 (sign * n) = true) :
    digits.foldlM (shift64? sign) (sign * n) = some m
      ↔ (∀ c ∈ digits, c.isDigit = true) ∧ m = sign * Nat.ofDigitChars 10 digits n
        ∧ fits64 m = true := by
  induction digits generalizing n with
  | nil =>
      rw [List.foldlM_nil, Nat.ofDigitChars_nil]
      constructor
      · rintro ⟨rfl⟩
        exact ⟨nofun, rfl, hn⟩
      · rintro ⟨-, rfl, -⟩
        rfl
  | cons c rest ih =>
      rw [List.foldlM_cons, Option.bind_eq_bind, Option.bind_eq_some_iff, List.forall_mem_cons,
        Nat.ofDigitChars_cons]
      constructor
      · rintro ⟨next, hnext, hrest⟩
        obtain ⟨hdigit, rfl, hfits⟩ := (shift64?_eq_some_iff hsign).mp hnext
        obtain ⟨hdigits, hm, hrange⟩ := (ih hfits).mp hrest
        exact ⟨⟨hdigit, hdigits⟩, hm, hrange⟩
      · rintro ⟨⟨hdigit, hdigits⟩, rfl, hrange⟩
        have hfits := fits64_of_le hsign (le_ofDigitChars rest _) hrange
        exact ⟨_, (shift64?_eq_some_iff hsign).mpr ⟨hdigit, rfl, hfits⟩,
          (ih hfits).mpr ⟨hdigits, rfl, hrange⟩⟩

theorem readSigned64?_eq_some_iff {digits : Text} {m : Int} :
    readSigned64? sign digits = some m
      ↔ ∃ n : Nat, IsNatural digits n ∧ m = sign * n ∧ fits64 m = true := by
  have hzero : fits64 (sign * (0 : Nat)) = true := by
    rw [Int.natCast_zero, Int.mul_zero]
    rfl
  have hread := @foldlM_shift64?_eq_some_iff sign hsign digits 0 m hzero
  rw [Int.natCast_zero, Int.mul_zero] at hread
  rw [readSigned64?, Option.ite_none_left_eq_some, List.isEmpty_iff, hread]
  constructor
  · rintro ⟨hne, hdigits, hm, hrange⟩
    exact ⟨_, ⟨hne, hdigits, rfl⟩, hm, hrange⟩
  · rintro ⟨n, ⟨hne, hdigits, rfl⟩, hm, hrange⟩
    exact ⟨hne, hdigits, hm, hrange⟩

end

/-- **Reading into 64 bits is exact.** An integer is read just if it is written as one and fits. -/
theorem readInteger64?_eq_some_iff {text : Text} {m : Int} :
    readInteger64? text = some m ↔ IsInteger text m ∧ fits64 m = true := by
  have hpositive {digits : Text} := @readSigned64?_eq_some_iff 1 (.inl rfl) digits m
  have hnegative {digits : Text} := @readSigned64?_eq_some_iff (-1) (.inr rfl) digits m
  simp only [Int.one_mul, Int.neg_mul] at hpositive hnegative
  constructor
  · intro hread
    unfold readInteger64? at hread
    split at hread
    · obtain ⟨n, hdigits, rfl, hrange⟩ := hpositive.mp hread
      exact ⟨.positive hdigits, hrange⟩
    · obtain ⟨n, hdigits, rfl, hrange⟩ := hnegative.mp hread
      exact ⟨.negative hdigits, hrange⟩
    · obtain ⟨n, hdigits, rfl, hrange⟩ := hpositive.mp hread
      exact ⟨.unsigned hdigits, hrange⟩
  · rintro ⟨hinteger, hrange⟩
    cases hinteger with
    | positive hdigits => exact hpositive.mpr ⟨_, hdigits, rfl, hrange⟩
    | negative hdigits => exact hnegative.mpr ⟨_, hdigits, rfl, hrange⟩
    | unsigned hdigits =>
        rw [readInteger64?]
        · exact hpositive.mpr ⟨_, hdigits, rfl, hrange⟩
        · exact fun _ h => (hdigits.ne_sign h).1 rfl
        · exact fun _ h => (hdigits.ne_sign h).2 rfl

end Logbook.Numeral

