import Logbook.Proofs.Text.Numeral
import Logbook.Text.Control

/-!
# Logbook — plain texts

A text is plain if no character of it is a control character. The pieces that the library itself
puts on a line are plain: here the numerals, whose characters are digits, and every text that went
through `Text.visible`.

* **`IsPlain`** — with one lemma for each way to put texts together.
* **`isControl_visible`**, **`visible_eq`** — what is made visible is no control character, and what
  stands in for one.
* **`isPlain_decimal`**, **`isPlain_lastDigits`** — numerals.
-/

namespace Logbook

namespace Text

/-- No character of the text is a control character. -/
def IsPlain (text : Text) : Prop :=
  ∀ c ∈ text, isControl c = false

instance (text : Text) : Decidable text.IsPlain :=
  List.decidableBAll (fun c => isControl c = false) text

@[simp] theorem isPlain_nil : IsPlain [] := nofun

@[simp] theorem isPlain_cons {c : Char} {text : Text} :
    IsPlain (c :: text) ↔ isControl c = false ∧ IsPlain text :=
  List.forall_mem_cons

@[simp] theorem isPlain_append {a b : Text} : IsPlain (a ++ b) ↔ IsPlain a ∧ IsPlain b :=
  List.forall_mem_append

theorem isPlain_replicate {c : Char} (hc : isControl c = false) (n : Nat) :
    IsPlain (List.replicate n c) := by
  intro d hd
  rw [List.eq_of_mem_replicate hd]
  exact hc

/-- A text all of whose characters stand in a plain text is plain. -/
theorem IsPlain.subset {a b : Text} (hb : IsPlain b) (h : a ⊆ b) : IsPlain a :=
  fun c hc => hb c (h hc)

/-! ## Visible characters -/

/-- The replacement of a control character, and nothing else, by its stand-in. -/
theorem visible_eq (c : Char) :
    visible c
      = if isControl c then (if c = '\n' then '|' else if c = '\r' then '<' else '?') else c := by
  by_cases hn : c = '\n'
  · subst hn
    decide
  · by_cases hr : c = '\r'
    · subst hr
      decide
    · simp [visible, hn, hr]

/-- A character is shown as itself, or by one of three others. -/
theorem visible_cases (c : Char) : visible c = c ∨ visible c ∈ ['|', '<', '?'] := by
  rw [visible_eq]
  split
  · right
    split
    · decide
    · split
      · decide
      · decide
  · exact Or.inl rfl

@[simp] theorem flatten_false (text : Text) : flatten false text = text := rfl

theorem isControl_visible (c : Char) : isControl (visible c) = false := by
  rw [visible_eq]
  by_cases hc : isControl c
  · rw [if_pos hc]
    split
    · decide
    · split
      · decide
      · decide
  · rw [if_neg hc]
    simpa using hc

/-! ## Numerals -/

theorem isControl_of_isDigit {c : Char} (hc : c.isDigit) : isControl c = false := by
  have hrange : 48 ≤ c.toNat ∧ c.toNat ≤ 57 := by
    simpa [Char.isDigit, Char.le_def, UInt32.le_iff_toNat_le] using hc
  simp only [isControl, Bool.or_eq_false_iff, Bool.and_eq_false_iff, decide_eq_false_iff_not]
  omega

theorem isPlain_decimal (n : Nat) : IsPlain (Numeral.decimal n) := fun _ hc =>
  isControl_of_isDigit (Nat.isDigit_of_mem_toDigits (by decide) (by decide) hc)

theorem isPlain_integer (n : Int) : IsPlain (Numeral.integer n) := by
  cases n with
  | ofNat n => exact isPlain_decimal n
  | negSucc n => exact isPlain_cons.mpr ⟨by decide, isPlain_decimal (n + 1)⟩

theorem isPlain_lastDigits (width n : Nat) : IsPlain (Numeral.lastDigits width n) := fun _ hc =>
  isControl_of_isDigit (Numeral.isDigit_of_mem_lastDigits hc)

theorem isPlain_atLeast (width n : Nat) : IsPlain (Numeral.atLeast width n) := by
  unfold Numeral.atLeast
  split
  · exact isPlain_lastDigits width n
  · exact isPlain_decimal n

end Text

end Logbook
