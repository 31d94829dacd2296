import Logbook.Proofs.Renderer
import Logbook.Proofs.Text.Order
import Logbook.Proofs.Timestamp.Reading

/-!
# Logbook — text order is time order

In UTC and in a zone of a fixed offset, as long as the years have four digits, the timestamps of two
instants stand in the dictionary as the instants stand in time. Every field has a fixed width and is
written in front of the finer ones, so the first field that differs decides both orders.

* **`comesBefore_lastDigits`** — numerals of one width, by induction on the width.
* **`Civil.before_ofClock`**, **`Civil.Before.comesBefore`** — from clocks to dates and times, and
  from there to texts.
* **`text_comesBefore`** — timestamps, whatever is written behind them. So the test that sorts texts
  compares instants: `text_precedes_iff`.
* **`Renderer.text_order_is_time_order`** — the headline, about records.
-/

namespace Logbook

namespace Timestamp

open Calendar Numeral

/-! ## Fields of a fixed width -/

theorem comesBefore_lastDigits {width m n : Nat} (h : m < n) (hn : n < Nat.pow 10 width)
    (x y : Text) : (lastDigits width m ++ x).ComesBefore (lastDigits width n ++ y) := by
  induction width generalizing m n x y with
  | zero =>
      have hone : n < 1 := hn
      omega
  | succ width ih =>
      have hwidth : n / 10 < Nat.pow 10 width := by
        have hn : n < Nat.pow 10 width * 10 := hn
        omega
      unfold lastDigits
      rw [List.append_assoc, List.append_assoc]
      rcases Nat.lt_or_ge (m / 10) (n / 10) with hless | hge
      · exact ih hless hwidth _ _
      · -- the digits in front are the same, and the last one decides
        rw [show m / 10 = n / 10 by omega]
        apply Text.ComesBefore.append_left
        apply List.Lex.rel
        rw [Nat.toNat_digitChar_of_lt_ten (by omega), Nat.toNat_digitChar_of_lt_ten (by omega)]
        omega

theorem comesBefore_field {width : Nat} {m n : Int} {x y : Text} (hm : 0 ≤ m)
    (hn : n < Nat.pow 10 width) (h : m < n ∨ m = n ∧ x.ComesBefore y) :
    (lastDigits width m.toNat ++ x).ComesBefore (lastDigits width n.toNat ++ y) := by
  rcases h with hless | ⟨rfl, hrest⟩
  · exact comesBefore_lastDigits (by omega) (by omega) x y
  · exact hrest.append_left _

theorem comesBefore_pair {m n : Int} {x y : Text} (hm : 0 ≤ m) (hn : n < 100)
    (h : m < n ∨ m = n ∧ x.ComesBefore y) : (pair m ++ x).ComesBefore (pair n ++ y) :=
  comesBefore_field hm hn h

/-! ## Dates and times -/

namespace Civil

theorem text_append (civil : Civil) (rest : Text) :
    civil.text ++ rest = yearText civil.date.year ++ '-' :: (pair civil.date.month ++ '-'
      :: (pair civil.date.dayOfMonth ++ ' ' :: (pair civil.hour ++ ':' :: (pair civil.minute ++ ':'
        :: (pair civil.second ++ rest))))) := by
  simp [Civil.text, Civil.fields]

/-- One time comes before another one: its date does, or else the first of hour, minute and second
that differs decides. -/
def Before (civil other : Civil) : Prop :=
  civil.date.Before other.date ∨ civil.date = other.date ∧
    (civil.hour < other.hour ∨ civil.hour = other.hour ∧
      (civil.minute < other.minute ∨ civil.minute = other.minute ∧ civil.second < other.second))

/-- **A clock that is behind another one shows the earlier time.** -/
theorem before_ofClock {clock other : Int} (h : clock < other) :
    (ofClock clock).Before (ofClock other) := by
  have hdays : clock / 86400 < other / 86400
      ∨ clock / 86400 = other / 86400 ∧ clock % 86400 < other % 86400 := by omega
  rcases hdays with hless | ⟨hsame, hwithin⟩
  · refine .inl (Date.before_of_day_lt (Date.isValid_ofDay _) (Date.isValid_ofDay _) ?_)
    show (Date.ofDay (clock / 86400)).day < (Date.ofDay (other / 86400)).day
    rw [Date.day_ofDay, Date.day_ofDay]
    exact hless
  · refine .inr ⟨congrArg Date.ofDay hsame, ?_⟩
    simp only [ofClock]
    omega

/-- The year is written in four digits, without a sign. -/
def IsFourDigit (civil : Civil) : Prop :=
  0 ≤ civil.date.year ∧ civil.date.year ≤ 9999

theorem IsFourDigit.yearText_eq {civil : Civil} (h : civil.IsFourDigit) :
    yearText civil.date.year = lastDigits 4 civil.date.year.toNat := by
  obtain ⟨hfirst, hlast⟩ := h
  rw [yearText, if_neg (by omega), if_pos (by omega)]

theorem Before.comesBefore {civil other : Civil} (h : civil.Before other) (hcivil : civil.IsValid)
    (hother : other.IsValid) (hfirst : civil.IsFourDigit) (hlast : other.IsFourDigit) (x y : Text) :
    (civil.text ++ x).ComesBefore (other.text ++ y) := by
  have hlength : monthLength other.date.year other.date.month ≤ 31 := by
    unfold monthLength
    split <;> [split; split] <;> decide
  obtain ⟨⟨hmonth, -, hday, -⟩, hhour, hminute, hsecond⟩ := hcivil
  obtain ⟨⟨-, htwelve, -, hend⟩, hhour', hminute', hsecond'⟩ := hother
  rw [text_append, text_append, hfirst.yearText_eq, hlast.yearText_eq]
  rcases h with hdate | ⟨hdate, htime⟩
  · apply comesBefore_field hfirst.1 (Int.lt_add_one_iff.mpr hlast.2)
    refine hdate.imp_right fun ⟨hyear, hdate⟩ => ⟨hyear, .cons ?_ _⟩
    apply comesBefore_pair (by omega) (by omega)
    refine hdate.imp_right fun ⟨hmonth, hday⟩ => ⟨hmonth, .cons ?_ _⟩
    exact comesBefore_pair (by omega) (by omega) (.inl hday)
  · -- both texts begin with the same date
    rw [hdate]
    refine .append_left (.cons (.append_left (.cons (.append_left (.cons ?_ _) _) _) _) _) _
    apply comesBefore_pair hhour.1 (by omega)
    refine htime.imp_right fun ⟨hhour, htime⟩ => ⟨hhour, .cons ?_ _⟩
    apply comesBefore_pair hminute.1 (by omega)
    refine htime.imp_right fun ⟨hminute, hsecond⟩ => ⟨hminute, .cons ?_ _⟩
    exact comesBefore_pair (by omega) (by omega) (.inl hsecond)

end Civil

/-! ## Timestamps -/

/-- On a clock that is `east` seconds ahead of UTC, the year of the instant has four digits. -/
def InFourDigitYear (east millis : Int) : Prop :=
  (Civil.ofClock (millis / 1000 + east)).IsFourDigit

/-- A year of four digits is far from where the dates end, and an offset is less than a day. -/
theorem InFourDigitYear.hasDate {east millis : Int} (h : InFourDigitYear east millis)
    (heast : -86400 < east ∧ east < 86400) : HasDate (millis / 1000) := by
  let day := (millis / 1000 + east) / 86400
  have hvalid : (Date.ofDay day).IsValid := Date.isValid_ofDay day
  have hday : (Date.ofDay day).day = day := Date.day_ofDay day
  obtain ⟨hfirst, hlast⟩ : 0 ≤ (Date.ofDay day).year ∧ (Date.ofDay day).year ≤ 9999 := h
  have hlow : (Date.mk (-1) 1 1).day ≤ day := by
    by_contra hless
    have hbefore := Date.before_of_day_lt hvalid
      (show (Date.mk (-1) 1 1).IsValid from ⟨by decide, by decide, by decide, by decide⟩) (by omega)
    rcases hbefore with hyear | ⟨hyear, -⟩ <;> dsimp only at hyear <;> omega
  have hhigh : day ≤ (Date.mk 10000 1 1).day := by
    by_contra hless
    have hbefore := Date.before_of_day_lt
      (show (Date.mk 10000 1 1).IsValid from ⟨by decide, by decide, by decide, by decide⟩) hvalid
      (by omega)
    rcases hbefore with hyear | ⟨hyear, -⟩ <;> dsimp only at hyear <;> omega
  have hstart : firstSecond + 86400 ≤ 86400 * (Date.mk (-1) 1 1).day := by decide
  have hend : 86400 * (Date.mk 10000 1 1).day + 172800 ≤ endSecond := by decide
  rw [hasDate_iff]
  omega

section Fixed

variable [CivilTime] {zone : Zone} {east a b : Int}

/-- **The earlier instant has the earlier text**, whatever is written behind them. -/
theorem text_comesBefore (hzone : zone.Keeps east) (heast : -86400 < east ∧ east < 86400)
    (ha : InFourDigitYear east a) (hb : InFourDigitYear east b) (h : a < b) (x y : Text) :
    (text zone a ++ x).ComesBefore (text zone b ++ y) := by
  rw [text_of_hasDate hzone (ha.hasDate heast), text_of_hasDate hzone (hb.hasDate heast),
    List.append_assoc, List.append_assoc]
  have hseconds : a / 1000 < b / 1000 ∨ a / 1000 = b / 1000 ∧ a % 1000 < b % 1000 := by omega
  rcases hseconds with hless | ⟨hsame, hwithin⟩
  · have hbefore := Civil.before_ofClock (show a / 1000 + east < b / 1000 + east by omega)
    exact hbefore.comesBefore (Civil.isValid_ofClock _) (Civil.isValid_ofClock _) ha hb _ _
  · rw [hsame]
    apply Text.ComesBefore.append_left
    show Text.ComesBefore ('.' :: (lastDigits 3 (a % 1000).toNat ++ x))
      ('.' :: (lastDigits 3 (b % 1000).toNat ++ y))
    apply Text.ComesBefore.cons
    refine comesBefore_field (by omega) ?_ (.inl hwithin)
    show b % 1000 < 1000
    omega

theorem text_precedes_iff (hzone : zone.Keeps east) (heast : -86400 < east ∧ east < 86400)
    (ha : InFourDigitYear east a) (hb : InFourDigitYear east b) :
    Text.precedes (text zone a) (text zone b) = true ↔ a ≤ b := by
  rw [Text.precedes_iff]
  constructor
  · intro hprecedes
    by_contra hless
    have hback := text_comesBefore hzone heast hb ha (Int.not_le.mp hless) [] []
    rw [List.append_nil, List.append_nil] at hback
    exact hback.not_precedes (Text.precedes_iff.mpr hprecedes)
  · intro hle
    rcases Int.lt_or_eq_of_le hle with hless | rfl
    · right
      simpa using text_comesBefore hzone heast ha hb hless [] []
    · exact .inl rfl

theorem length_text (hzone : zone.Keeps east) (heast : -86400 < east ∧ east < 86400)
    (ha : InFourDigitYear east a) : (text zone a).length = 23 := by
  rw [text_of_hasDate hzone (ha.hasDate heast), Civil.text_append, ha.yearText_eq]
  simp [fractionText, pair, length_lastDigits]

end Fixed

end Timestamp

theorem Record.text_eq_append (layout : Layout) (stamp : Text) (logger : Identity) (event : Event) :
    ∃ rest, Record.text layout stamp logger event = stamp ++ rest := by
  simp [Record.text, Record.header]

namespace Renderer

open Timestamp

/-- **Text order is time order.** In UTC and in every zone of a fixed offset, whatever was stamped
before: of two instants in years of four digits the earlier one has the earlier timestamp. So the
records of a renderer are in the order of their timestamps, which are their first 23 characters, just
when they are in the order of their times. -/
theorem text_order_is_time_order [CivilTime] {layout : Layout} {east : Int}
    (hzone : layout.zone.Keeps east) (heast : -86400 < east ∧ east < 86400) :
    (∀ earlier busy others contended a b,
        InFourDigitYear east a → InFourDigitYear east b → a < b →
          Text.ComesBefore (((Stamper.new layout.zone).after earlier).stamp busy a).1
            (((Stamper.new layout.zone).after others).stamp contended b).1)
      ∧ ∀ (earlier : List Rendering) (records : List (Identity × Event)),
          (∀ record ∈ records, InFourDigitYear east record.2.millis) →
          let field := fun record : Identity × Event =>
            (((new layout).after earlier).render record.1 record.2).1.take 23
          (records.Pairwise fun r s => Text.precedes (field r) (field s))
            ↔ records.Pairwise fun r s => r.2.millis ≤ s.2.millis := by
  constructor
  · intro earlier busy others contended a b ha hb h
    rw [Stamper.stamp_after_new, Stamper.stamp_after_new]
    simpa using text_comesBefore hzone heast ha hb h [] []
  · intro earlier records hrecords field
    have hfield : ∀ r ∈ records, field r = Timestamp.text layout.zone r.2.millis := by
      intro r hr
      obtain ⟨rest, hrest⟩ := Record.text_eq_append layout
        (Timestamp.text layout.zone r.2.millis) r.1 r.2
      show List.take 23 _ = _
      rw [render_after, hrest]
      exact List.take_left' (length_text hzone heast (hrecords r hr))
    refine List.Pairwise.iff_of_mem fun {r s} hr hs => ?_
    rw [hfield r hr, hfield s hs]
    exact text_precedes_iff hzone heast (hrecords r hr) (hrecords s hs)

/-- The turn of a year on a clock an hour ahead of UTC, before the epoch. -/
theorem text_order_is_time_order_new_year :
    let layout : Layout := { zone := .fixed 3600 }
    let record := fun millis => (Identity.new "app".toList .info false,
      Event.new ⟨millis, none⟩ .info "done".toList [])
    let field := fun record : Identity × Event => ((new layout).render record.1 record.2).1.take 23
    (layout.zone.Keeps 3600 ∧ InFourDigitYear 3600 (-3600001) ∧ InFourDigitYear 3600 (-3600000))
      ∧ Text.ComesBefore ((Stamper.new layout.zone).stamp false (-3600001)).1
          ((Stamper.new layout.zone).stamp false (-3600000)).1
      ∧ ([record (-3600001), record (-3600000)].Pairwise fun r s =>
          Text.precedes (field r) (field s)) := by
  intro layout record field
  have hzone : layout.zone.Keeps 3600 := .fixed 3600
  have hold : InFourDigitYear 3600 (-3600001) := ⟨by decide, by decide⟩
  have hnew : InFourDigitYear 3600 (-3600000) := ⟨by decide, by decide⟩
  obtain ⟨hstamps, hrecords⟩ := text_order_is_time_order hzone (by decide)
  refine ⟨⟨hzone, hold, hnew⟩, hstamps [] false [] false _ _ hold hnew (by decide), ?_⟩
  refine (hrecords [] [record (-3600001), record (-3600000)] ?_).mpr ?_
  · exact List.forall_mem_cons.mpr ⟨hold, List.forall_mem_singleton.mpr hnew⟩
  · exact List.pairwise_pair.mpr (by decide)

end Renderer

end Logbook
