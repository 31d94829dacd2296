import Logbook.Proofs.Text.Numeral
import Logbook.Proofs.Zone.Reading

/-!
# Logbook — integer settings

A setting that is asked for as an integer is the number it is written as, or it counts as absent.
It never is the remainder of a number that does not fit, and the column of messages, which cannot be
negative, is never the unsigned reading of a negative number.

* **`Settings.HasInteger`** — a key is set to an integer of 64 bits, said without a reader;
  `hasInteger_iff` says that it is what is read.
* **`Settings.integer_of_hasInteger`**, **`Settings.integer_of_none`** — the query.
* **`Layout.exists_ofSettings`**, **`Layout.column_ofSettings`** — when there is a layout, and its
  column.
* **`Layout.integers_exact_unless_torn`** — the headline. A layout has its zone as well, so with a
  zone id that cannot be cut there is no layout and no column.
-/

namespace Logbook

namespace Settings

/-- The key has a value, which is an integer in decimal with at most one sign, and the integer fits
64 bits: the limits are minus the 63rd power of two, and that power less one. -/
def HasInteger (settings : Settings) (key : Text) (n : Int) : Prop :=
  ∃ value, settings.get? key = some value ∧ Numeral.IsInteger value n
    ∧ -9223372036854775808 ≤ n ∧ n ≤ 9223372036854775807

variable {settings : Settings} {key : Text}

theorem hasInteger_iff {n : Int} :
    settings.HasInteger key n ↔ (settings.get? key >>= Numeral.readInteger64?) = some n := by
  simp only [Option.bind_eq_bind, Option.bind_eq_some_iff, Numeral.readInteger64?_eq_some_iff,
    Numeral.fits64_iff]
  rfl

theorem integer_of_hasInteger {n : Int} (h : settings.HasInteger key n) (default : Int) :
    settings.integer key default = n := by
  unfold integer
  rw [hasInteger_iff.mp h, Option.getD_some]

theorem integer_of_none (h : ∀ n, ¬ settings.HasInteger key n) (default : Int) :
    settings.integer key default = default := by
  have hnone : (settings.get? key >>= Numeral.readInteger64?) = none := by
    rw [Option.eq_none_iff_forall_ne_some]
    exact fun n hread => h n (hasInteger_iff.mpr hread)
  unfold integer
  rw [hnone, Option.getD_none]

/-- An integer that does not depend on the default is that of the value. -/
theorem hasInteger_of_integer {n : Int} (h : ∀ default, settings.integer key default = n) :
    settings.HasInteger key n := by
  by_cases hany : ∃ m, settings.HasInteger key m
  · obtain ⟨m, hm⟩ := hany
    have hsame : m = n := (integer_of_hasInteger hm 0).symm.trans (h 0)
    exact hsame ▸ hm
  · -- without an integer the default comes back, and there is more than one
    have hnone := integer_of_none (not_exists.mp hany) (n + 1)
    rw [h (n + 1)] at hnone
    omega

/-- The zone of the settings can be read, unless its id is torn. -/
theorem zone_cases [CivilTime] (settings : Settings) :
    (¬ settings.HasTornZone ∧ ∃ zone, settings.zone Layout.zoneKey = .ok zone)
      ∨ (settings.HasTornZone ∧ ∃ breakdown, settings.zone Layout.zoneKey = .error breakdown) := by
  unfold zone HasTornZone
  cases settings.get? Layout.zoneKey with
  | none => exact Or.inl ⟨nofun, _, rfl⟩
  | some id =>
      simp only [Option.some.injEq, exists_eq_left']
      rcases Zone.read_cases id with ⟨hwhole, zone, hread⟩ | ⟨htorn, digits, hread⟩
      · rw [hread]
        cases zone with
        | none => exact Or.inl ⟨hwhole, _, rfl⟩
        | some zone => exact Or.inl ⟨hwhole, _, rfl⟩
      · rw [hread]
        exact Or.inr ⟨htorn, _, rfl⟩

end Settings

namespace Layout

section

variable [CivilTime] {settings : Settings}

theorem exists_ofSettings (h : ¬ settings.HasTornZone) :
    ∃ layout, ofSettings settings = .ok layout := by
  obtain ⟨-, zone, hzone⟩ := settings.zone_cases.resolve_right fun htorn => h htorn.1
  obtain ⟨layout, hlayout, -, -⟩ := ofSettings_ok hzone
  exact ⟨layout, hlayout⟩

theorem ofSettings_of_hasTornZone (h : settings.HasTornZone) :
    ∃ breakdown, ofSettings settings = .error breakdown := by
  obtain ⟨-, breakdown, hzone⟩ := settings.zone_cases.resolve_left fun hwhole => hwhole.1 h
  exact ⟨breakdown, ofSettings_error hzone⟩

theorem column_ofSettings {layout : Reported Layout}
    (h : ofSettings settings = .ok layout) :
    layout.value.column = (settings.integer columnKey 0).toNat?.getD 0 := by
  unfold ofSettings at h
  cases hzone : settings.zone zoneKey with
  | error breakdown =>
      rw [hzone] at h
      cases h
  | ok zone =>
      rw [hzone] at h
      cases h
      rfl

/-- **Integer settings are exact or absent.** The query for a key gives an integer whatever the
default is just if the key is set to it: digits behind at most one sign, of a number that fits 64
bits. With any other value, or with none, it gives the default. If the zone id is not torn there is a
layout, its column is what the key of the column is set to, and it is the first one if that is
negative or no such integer. With a torn zone id there is no layout. -/
theorem integers_exact_unless_torn (settings : Settings) (key : Text) :
    (∀ n, settings.HasInteger key n ↔ ∀ default, settings.integer key default = n)
      ∧ ((∀ n, ¬ settings.HasInteger key n) → ∀ default, settings.integer key default = default)
      ∧ (¬ settings.HasTornZone → ∃ layout, ofSettings settings = .ok layout
        ∧ (∀ n : Nat, settings.HasInteger columnKey n → layout.value.column = n)
        ∧ ((∀ n : Nat, ¬ settings.HasInteger columnKey n) → layout.value.column = 0))
      ∧ (settings.HasTornZone → ∃ breakdown, ofSettings settings = .error breakdown) := by
  refine ⟨fun n => ⟨Settings.integer_of_hasInteger, Settings.hasInteger_of_integer⟩,
    Settings.integer_of_none, ?_, ofSettings_of_hasTornZone⟩
  intro hwhole
  obtain ⟨layout, hlayout⟩ := exists_ofSettings hwhole
  refine ⟨layout, hlayout, ?_, ?_⟩
  · intro n hn
    rw [column_ofSettings hlayout, Settings.integer_of_hasInteger hn]
    rfl
  · intro hnone
    rw [column_ofSettings hlayout]
    by_cases hany : ∃ n, settings.HasInteger columnKey n
    · obtain ⟨n, hn⟩ := hany
      rw [Settings.integer_of_hasInteger hn]
      cases n with
      | ofNat n => exact absurd hn (hnone n)
      | negSucc n => rfl
    · rw [Settings.integer_of_none (not_exists.mp hany)]
      rfl

end

/-- The least integer of 64 bits, one past the greatest, and a column with a sign and zeros in front
of it. -/
theorem integers_exact_unless_torn_limits :
    let settings := Settings.ofPairs [("least".toList, "-9223372036854775808".toList),
      ("past".toList, "9223372036854775808".toList), (columnKey, "+0042".toList)]
    ¬ settings.HasTornZone
      ∧ settings.integer "least".toList 7 = -9223372036854775808
      ∧ settings.integer "past".toList 7 = 7
      ∧ ∃ layout, ofSettings settings = .ok layout ∧ layout.value.column = 42 := by
  intro settings
  have hwhole : ¬ settings.HasTornZone := by
    rintro ⟨id, hid, -⟩
    have hnone : settings.get? zoneKey = none := by decide +kernel
    rw [hnone] at hid
    cases hid
  have hleast : settings.HasInteger "least".toList (-9223372036854775808) :=
    Settings.hasInteger_iff.mpr (by decide +kernel)
  have hpast : ∀ n, ¬ settings.HasInteger "past".toList n := by
    intro n hn
    have hnone : (settings.get? "past".toList >>= Numeral.readInteger64?) = none := by
      decide +kernel
    rw [Settings.hasInteger_iff, hnone] at hn
    cases hn
  have hcolumn : settings.HasInteger columnKey (42 : Nat) :=
    Settings.hasInteger_iff.mpr (by decide +kernel)
  obtain ⟨layout, hlayout, hset, -⟩ :=
    (integers_exact_unless_torn settings columnKey).2.2.1 hwhole
  have hexact := (integers_exact_unless_torn settings "least".toList).1 (-9223372036854775808)
  have habsent := (integers_exact_unless_torn settings "past".toList).2.1
  exact ⟨hwhole, hexact.mp hleast 7, habsent hpast 7, layout, hlayout, hset 42 hcolumn⟩

/-- Settings that name a column and get no layout. -/
theorem torn_zone_has_no_column :
    let settings := Settings.ofPairs [(columnKey, "5".toList), (zoneKey, "+é5".toList)]
    settings.HasInteger columnKey (5 : Nat) ∧ ∀ layout, ofSettings settings ≠ .ok layout := by
  intro settings
  have hcolumn : settings.HasInteger columnKey (5 : Nat) :=
    Settings.hasInteger_iff.mpr (by decide +kernel)
  have hid : settings.get? zoneKey = some "+é5".toList := by decide +kernel
  have hread : Zone.read "+é5".toList = .error (.cutInsideCharacter "é5".toList) := by
    decide +kernel
  have htorn : settings.HasTornZone := ⟨_, hid, Zone.isTorn_of_read hread⟩
  obtain ⟨breakdown, hlayout⟩ := ofSettings_of_hasTornZone htorn
  refine ⟨hcolumn, fun layout => ?_⟩
  rw [hlayout]
  nofun

end Layout

end Logbook
