import Logbook.Text
import Mathlib.Data.List.DropRight

/-!
# Logbook — the copies of a character at the end of a text

`Text.dropTrailing` takes the copies of one character off the end of a text. What is left does not
end in that character, and with this there is only one way to cut a text into a front and such
copies.

* **`eq_dropTrailing_append`**, **`getLast?_dropTrailing`** — the cut that is made.
* **`append_replicate_inj`** — there is no other one.
-/

namespace Logbook.Text

theorem dropTrailing_subset (c : Char) (text : Text) : dropTrailing c text ⊆ text :=
  (List.rdropWhile_prefix (p := (· == c)) (l := text)).subset

/-- What is dropped at the end are copies of the character. -/
theorem eq_dropTrailing_append (c : Char) (text : Text) :
    ∃ n, text = dropTrailing c text ++ List.replicate n c := by
  have hsplit := List.rdropWhile_append_rtakeWhile (p := (· == c)) (l := text)
  -- what was taken off satisfies the test, and the test admits one character only
  have hcopies : text.rtakeWhile (· == c)
      = List.replicate (text.rtakeWhile (· == c)).length c := by
    apply List.eq_replicate_of_mem
    intro d hd
    simpa using List.mem_rtakeWhile_imp hd
  rw [hcopies] at hsplit
  exact ⟨_, hsplit.symm⟩

theorem getLast?_dropTrailing (c : Char) (text : Text) :
    (dropTrailing c text).getLast? ≠ some c := by
  intro hlast
  have hne : dropTrailing c text ≠ [] := by
    intro hnil
    rw [hnil] at hlast
    cases hlast
  rw [List.getLast?_eq_some_getLast hne] at hlast
  have hc : (dropTrailing c text).getLast hne = c := Option.some.inj hlast
  exact List.rdropWhile_last_not (p := (· == c)) (l := text) hne (beq_iff_eq.mpr hc)

theorem dropTrailing_append_replicate (c : Char) (text : Text) (n : Nat) :
    dropTrailing c (text ++ List.replicate n c) = dropTrailing c text := by
  induction n with
  | zero => rw [List.replicate_zero, List.append_nil]
  | succ n ih =>
      rw [List.replicate_succ', ← List.append_assoc, ← ih]
      exact List.rdropWhile_concat_pos (p := (· == c)) _ c (beq_self_eq_true c)

theorem dropTrailing_eq_self {c : Char} {text : Text} (h : text.getLast? ≠ some c) :
    dropTrailing c text = text := by
  apply List.rdropWhile_eq_self_iff.mpr
  intro hne hc
  rw [List.getLast?_eq_some_getLast hne] at h
  exact h (congrArg some (beq_iff_eq.mp hc))

theorem append_replicate_inj {c : Char} {a b : Text} {m n : Nat} (ha : a.getLast? ≠ some c)
    (hb : b.getLast? ≠ some c) (h : a ++ List.replicate m c = b ++ List.replicate n c) :
    a = b ∧ m = n := by
  have hab : a = b := by
    have hdrop := congrArg (dropTrailing c) h
    rwa [dropTrailing_append_replicate, dropTrailing_append_replicate, dropTrailing_eq_self ha,
      dropTrailing_eq_self hb] at hdrop
  subst hab
  have hlength := congrArg List.length (List.append_cancel_left h)
  exact ⟨rfl, by simpa using hlength⟩

end Logbook.Text
