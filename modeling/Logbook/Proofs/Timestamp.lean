import Logbook.Proofs.Text.Control
import Logbook.Proofs.Text.Numeral
import Logbook.Timestamp

/-!
# Logbook — what a stamper writes

A stamper keeps the text of one second. What it keeps is always the text of that second in its zone,
so the kept text never shows: a stamp is the text of the instant, whatever was stamped before and
whether or not another writer was at it.

* **`Stamper.IsFaithful`** — what is kept is right; `Stamper.stamp_spec` is the step that uses it
  and hands it on, and `Stamper.stampAll_eq` the run.
* **`Timestamp.Tells`** — how the text of an instant is made up, by floor division.
* **`Timestamp.isPlain_text`** — the text of an instant has no control character.
-/

namespace Logbook

/-! ## The kept second -/

namespace Stamper

variable [CivilTime]

/-- The text that is kept, if any, is the text of its second. -/
def IsFaithful (stamper : Stamper) : Prop :=
  ∀ second text, stamper.kept = some (second, text) →
    text = Timestamp.secondText stamper.zone second

theorem isFaithful_new (zone : Zone) : (new zone).IsFaithful := nofun

/-- A faithful stamper gives the text of a second, and stays faithful in the same zone. -/
theorem second_spec {stamper : Stamper} (h : stamper.IsFaithful) (busy : Bool) (second : Int) :
    (stamper.second busy second).1 = Timestamp.secondText stamper.zone second
      ∧ (stamper.second busy second).2.IsFaithful
      ∧ (stamper.second busy second).2.zone = stamper.zone := by
  have hfresh : ({ stamper with kept := some (second, Timestamp.secondText stamper.zone second) } :
      Stamper).IsFaithful := by
    intro last text hkept
    cases hkept
    rfl
  unfold Stamper.second
  by_cases hbusy : busy
  · rw [if_pos hbusy]
    exact ⟨rfl, h, rfl⟩
  · rw [if_neg hbusy]
    cases hkept : stamper.kept with
    | none => exact ⟨rfl, hfresh, rfl⟩
    | some entry =>
        obtain ⟨last, text⟩ := entry
        dsimp only
        by_cases hlast : last = second
        · rw [if_pos hlast]
          subst hlast
          exact ⟨h last text hkept, h, rfl⟩
        · rw [if_neg hlast]
          exact ⟨rfl, hfresh, rfl⟩

/-- **A faithful stamper gives the text of the instant**, and stays faithful in the same zone. -/
theorem stamp_spec {stamper : Stamper} (h : stamper.IsFaithful) (busy : Bool) (millis : Int) :
    (stamper.stamp busy millis).1 = Timestamp.text stamper.zone millis
      ∧ (stamper.stamp busy millis).2.IsFaithful
      ∧ (stamper.stamp busy millis).2.zone = stamper.zone := by
  obtain ⟨htext, hfaithful, hzone⟩ := second_spec h busy (millis / 1000)
  refine ⟨?_, hfaithful, hzone⟩
  rw [Timestamp.text, ← htext]
  rfl

/-- The texts of several instants, one after the other, each with whether another writer is at it.
-/
def stampAll (stamper : Stamper) : List (Bool × Int) → List Text
  | [] => []
  | (busy, millis) :: rest =>
    (stamper.stamp busy millis).1 :: stampAll (stamper.stamp busy millis).2 rest

theorem stampAll_eq {stamper : Stamper} (h : stamper.IsFaithful) (instants : List (Bool × Int)) :
    stamper.stampAll instants = instants.map fun instant =>
      Timestamp.text stamper.zone instant.2 := by
  induction instants generalizing stamper with
  | nil => rfl
  | cons instant rest ih =>
      obtain ⟨busy, millis⟩ := instant
      obtain ⟨htext, hfaithful, hzone⟩ := stamp_spec h busy millis
      unfold stampAll
      rw [List.map_cons, htext, ih hfaithful, hzone]

/-- The stamper after several stamps. -/
def after (stamper : Stamper) : List (Bool × Int) → Stamper
  | [] => stamper
  | (busy, millis) :: rest => after (stamper.stamp busy millis).2 rest

theorem after_spec {stamper : Stamper} (h : stamper.IsFaithful) (instants : List (Bool × Int)) :
    (stamper.after instants).IsFaithful ∧ (stamper.after instants).zone = stamper.zone := by
  induction instants generalizing stamper with
  | nil => exact ⟨h, rfl⟩
  | cons instant rest ih =>
      obtain ⟨busy, millis⟩ := instant
      obtain ⟨-, hfaithful, hzone⟩ := stamp_spec h busy millis
      unfold after
      rw [← hzone]
      exact ih hfaithful

theorem stamp_after_new (zone : Zone) (earlier : List (Bool × Int)) (busy : Bool) (millis : Int) :
    (((new zone).after earlier).stamp busy millis).1 = Timestamp.text zone millis := by
  obtain ⟨hfaithful, hzone⟩ := after_spec (isFaithful_new zone) earlier
  rw [(stamp_spec hfaithful busy millis).1, hzone]
  rfl

end Stamper

/-! ## The parts of a timestamp -/

namespace Timestamp

open Text

/-- The text tells the instant: the whole second below it as the zone writes it, a point, and what
is left in three digits. -/
def Tells [CivilTime] (zone : Zone) (millis : Int) (text : Text) : Prop :=
  ∃ (second : Int) (rest : Nat) (digits : Text),
    (1000 * second ≤ millis ∧ millis < 1000 * (second + 1))
      ∧ millis = 1000 * second + rest
      ∧ text = secondText zone second ++ '.' :: digits
      ∧ (digits.length = 3 ∧ ∀ c ∈ digits, c.isDigit)
      ∧ Numeral.value digits = rest

theorem tells_text [CivilTime] (zone : Zone) (millis : Int) :
    Tells zone millis (Timestamp.text zone millis) := by
  have hvalue : Numeral.value (Numeral.lastDigits 3 (millis % 1000).toNat)
      = (millis % 1000).toNat := by
    rw [Numeral.value_lastDigits]
    exact Nat.mod_eq_of_lt (show (millis % 1000).toNat < 1000 by omega)
  refine ⟨millis / 1000, (millis % 1000).toNat, _, by omega, by omega, rfl, ?_, hvalue⟩
  exact ⟨Numeral.length_lastDigits 3 _, fun c hc => Numeral.isDigit_of_mem_lastDigits hc⟩

theorem isPlain_yearText (year : Int) : IsPlain (yearText year) := by
  unfold yearText
  split
  · exact isPlain_cons.mpr ⟨by decide, isPlain_atLeast 4 _⟩
  · split
    · exact isPlain_lastDigits 4 _
    · exact isPlain_cons.mpr ⟨by decide, isPlain_atLeast 4 _⟩

theorem isPlain_civilText (clock : Int) : IsPlain (civilText clock) := by
  have hpair : ∀ n, IsPlain (pair n) := fun n => isPlain_lastDigits 2 n.toNat
  have hdash : isControl '-' = false := by decide
  have hblank : isControl ' ' = false := by decide
  have hcolon : isControl ':' = false := by decide
  simp [civilText, isPlain_yearText, hpair, hdash, hblank, hcolon]

theorem isPlain_secondText [CivilTime] (zone : Zone) (second : Int) :
    IsPlain (secondText zone second) := by
  unfold secondText
  split
  · exact isPlain_civilText _
  · exact isPlain_integer second

/-- **A timestamp has no control character.** -/
theorem isPlain_text [CivilTime] (zone : Zone) (millis : Int) :
    IsPlain (Timestamp.text zone millis) := by
  have hfraction : IsPlain (fractionText millis) :=
    isPlain_cons.mpr ⟨by decide, isPlain_lastDigits 3 _⟩
  exact isPlain_append.mpr ⟨isPlain_secondText zone _, hfraction⟩

end Timestamp

end Logbook
