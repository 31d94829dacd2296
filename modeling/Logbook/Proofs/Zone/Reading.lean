import Logbook.Backend.Blueprint
import Mathlib.Data.List.Infix

/-!
# Logbook — zone ids that cannot be read

Reading a zone id gives a zone or none, but for one kind of id. An offset without a colon is cut in
front of its last two bytes, before its characters are looked at, and where that place lies inside a
character there is no way to cut it.

* **`Text.SplitsCharacter`** — a place, counted in bytes from the end, lies inside a character;
  `not_splitsCharacter_append` says that no place between two characters does.
* **`Zone.IsTorn`** — the ids that this happens to, and **`Zone.read_cases`** — no others.
* **`Blueprint.build_unless_torn`** — the headline: a backend is made from any settings whose zone id
  is not torn, with the zone of the system and one warning if the id names none.
-/

namespace Logbook

/-! ## Places inside a character -/

namespace Text

/-- The place this many bytes in front of the end lies inside a character. -/
def SplitsCharacter (bytes : Nat) (text : Text) : Prop :=
  ∃ front c back, text = front ++ c :: back ∧ byteLength back < bytes
    ∧ bytes < byteLength (c :: back)

theorem byteLength_cons (c : Char) (text : Text) :
    byteLength (c :: text) = c.utf8Size + byteLength text := rfl

theorem byteLength_append (a b : Text) : byteLength (a ++ b) = byteLength a + byteLength b := by
  induction a with
  | nil => exact (Nat.zero_add _).symm
  | cons c rest ih =>
      rw [List.cons_append, byteLength_cons, byteLength_cons, ih]
      omega

theorem byteLength_le_of_suffix {a b : Text} (h : a <:+ b) : byteLength a ≤ byteLength b := by
  obtain ⟨front, rfl⟩ := h
  rw [byteLength_append]
  omega

/-- Between two texts there is no character to split. -/
theorem not_splitsCharacter_append (a b : Text) : ¬ SplitsCharacter (byteLength b) (a ++ b) := by
  rintro ⟨front, c, back, htext, hback, hmore⟩
  have hb : b <:+ a ++ b := List.suffix_append a b
  have hcback : c :: back <:+ a ++ b := ⟨front, htext.symm⟩
  -- of two ends of one text the longer one ends in the shorter one
  rcases List.suffix_or_suffix_of_suffix hb hcback with hshort | hlong
  · rcases List.suffix_cons_iff.mp hshort with rfl | hshorter
    · omega
    · have hle := byteLength_le_of_suffix hshorter
      omega
  · have hle := byteLength_le_of_suffix hlong
    omega

end Text

/-! ## Offsets -/

namespace Zone

open Text

theorem cutTwoBytes_cases {digits : Text} (hlong : 2 < byteLength digits) :
    (¬ SplitsCharacter 2 digits ∧ ∃ parts, cutTwoBytes digits = .ok parts)
      ∨ (SplitsCharacter 2 digits ∧ cutTwoBytes digits = .error (.cutInsideCharacter digits)) := by
  unfold cutTwoBytes
  obtain ⟨backwards, rfl⟩ : ∃ backwards : Text, digits = backwards.reverse :=
    ⟨digits.reverse, digits.reverse_reverse.symm⟩
  rw [List.reverse_reverse]
  match backwards with
  | [] => exact absurd hlong (by decide)
  | [c] => exact Or.inr ⟨⟨[], c, [], rfl, by decide, hlong⟩, rfl⟩
  | c :: d :: rest =>
      have hc := c.utf8Size_pos
      have hd := d.utf8Size_pos
      have hlast : byteLength [c] = c.utf8Size := rfl
      have hlasts : byteLength [d, c] = d.utf8Size + c.utf8Size := rfl
      have hone : (c :: d :: rest).reverse = (d :: rest).reverse ++ [c] := List.reverse_cons
      have htwo : (c :: d :: rest).reverse = rest.reverse ++ [d, c] := by simp
      dsimp only
      by_cases hsize : c.utf8Size = 2
      · left
        rw [if_pos hsize, hone, ← hsize, ← hlast]
        exact ⟨not_splitsCharacter_append _ _, _, rfl⟩
      · rw [if_neg hsize]
        by_cases hsizes : c.utf8Size = 1 ∧ d.utf8Size = 1
        · left
          have hbytes : 2 = byteLength [d, c] := by omega
          rw [if_pos hsizes, htwo]
          refine ⟨?_, _, rfl⟩
          rw [hbytes]
          exact not_splitsCharacter_append _ _
        · right
          rw [if_neg hsizes]
          refine ⟨?_, rfl⟩
          by_cases hwide : 2 < c.utf8Size
          · exact ⟨_, c, [], hone, by decide, hwide⟩
          · refine ⟨_, d, [c], htwo, ?_, ?_⟩
            · omega
            · omega

/-- The unsigned offset has no colon, and the place two bytes in front of its end lies inside a
character. -/
def IsTornOffset (digits : Text) : Prop :=
  ':' ∉ digits ∧ SplitsCharacter 2 digits

theorem cutOffset_cases (digits : Text) :
    (¬ IsTornOffset digits ∧ ∃ parts, cutOffset digits = .ok parts)
      ∨ (IsTornOffset digits ∧ cutOffset digits = .error (.cutInsideCharacter digits)) := by
  unfold cutOffset
  by_cases hcolon : ':' ∈ digits
  · rw [if_pos hcolon]
    exact Or.inl ⟨fun htorn => htorn.1 hcolon, _, rfl⟩
  · rw [if_neg hcolon]
    by_cases hshort : byteLength digits ≤ 2
    · rw [if_pos hshort]
      refine Or.inl ⟨?_, _, rfl⟩
      rintro ⟨-, front, c, back, rfl, -, hmore⟩
      have hle := byteLength_le_of_suffix (List.suffix_append front (c :: back))
      omega
    · rw [if_neg hshort]
      rcases cutTwoBytes_cases (Nat.lt_of_not_le hshort) with ⟨hwhole, hcut⟩ | ⟨htorn, hcut⟩
      · exact Or.inl ⟨fun h => hwhole h.2, hcut⟩
      · exact Or.inr ⟨⟨hcolon, htorn⟩, hcut⟩

theorem readOffset_cases (digits : Text) :
    (¬ IsTornOffset digits ∧ ∃ east, readOffset digits = .ok east)
      ∨ (IsTornOffset digits ∧ readOffset digits = .error (.cutInsideCharacter digits)) := by
  unfold readOffset
  rcases cutOffset_cases digits with ⟨hwhole, parts, hcut⟩ | ⟨htorn, hcut⟩
  · rw [hcut]
    exact Or.inl ⟨hwhole, _, rfl⟩
  · rw [hcut]
    exact Or.inr ⟨htorn, rfl⟩

/-! ## Ids -/

/-- The signs of an offset. -/
def signs : List Char := ['+', '-']

/-- The id is that of an offset, perhaps behind a mark, which cannot be cut. -/
def IsTorn (id : Text) : Prop :=
  ∃ mark ∈ [] :: offsetMarks, ∃ sign ∈ signs, ∃ digits,
    Text.trim id = mark ++ sign :: digits ∧ IsTornOffset digits

/-- What is left behind the mark begins with a sign if the id is a mark and a sign, or a sign. -/
theorem dropMark_eq_iff {id digits : Text} {sign : Char} (hsign : sign ∈ signs) :
    dropMark id = sign :: digits ↔ ∃ mark ∈ [] :: offsetMarks, id = mark ++ sign :: digits := by
  constructor
  · intro hdrop
    unfold dropMark at hdrop
    cases hfound : offsetMarks.findSome? fun mark => mark.isPrefixOf? id with
    | none =>
        rw [hfound] at hdrop
        exact ⟨[], List.mem_cons_self, hdrop⟩
    | some rest =>
        rw [hfound] at hdrop
        obtain ⟨mark, hmark, hprefix⟩ := List.exists_of_findSome?_eq_some hfound
        have hid := List.isPrefixOf?_eq_some_iff_append_eq.mp hprefix
        obtain rfl : rest = sign :: digits := hdrop
        exact ⟨mark, List.mem_cons_of_mem _ hmark, hid.symm⟩
  · -- no mark goes on with a sign, so none fits further than the one that stands there
    rintro ⟨mark, hmark, rfl⟩
    simp only [signs, List.mem_cons, List.not_mem_nil, or_false] at hsign
    simp only [offsetMarks, List.mem_cons, List.not_mem_nil, or_false] at hmark
    rcases hsign with rfl | rfl <;> rcases hmark with rfl | rfl | rfl | rfl <;> rfl

theorem not_mem_utcIds {mark digits : Text} {sign : Char} (hsign : sign ∈ signs) :
    mark ++ sign :: digits ∉ utcIds := by
  intro hmem
  have hplain : utcIds.all (fun id => id.all (· ∉ signs)) = true := by decide
  have hunsigned := List.all_eq_true.mp (List.all_eq_true.mp hplain _ hmem) sign (by simp)
  exact of_decide_eq_true hunsigned hsign

/-- **Reading an id breaks off if it is torn, and otherwise gives a zone or none.** -/
theorem read_cases [CivilTime] (id : Text) :
    (¬ IsTorn id ∧ ∃ zone, read id = .ok zone)
      ∨ (IsTorn id ∧ ∃ digits, read id = .error (.cutInsideCharacter digits)) := by
  -- behind the mark stands a sign, or nothing is cut
  have hsigned : ∀ {sign digits}, sign ∈ signs → dropMark (Text.trim id) = sign :: digits →
      (IsTorn id ↔ IsTornOffset digits) := by
    intro sign digits hsign hdrop
    constructor
    · rintro ⟨mark, hmark, other, hother, torn, hid, htorn⟩
      have hsame := (dropMark_eq_iff hother).mpr ⟨mark, hmark, hid⟩
      rw [hdrop] at hsame
      obtain ⟨-, rfl⟩ := List.cons.inj hsame
      exact htorn
    · intro htorn
      obtain ⟨mark, hmark, hid⟩ := (dropMark_eq_iff hsign).mp hdrop
      exact ⟨mark, hmark, sign, hsign, digits, hid, htorn⟩
  have hunsigned : (∀ sign ∈ signs, ∀ digits, dropMark (Text.trim id) ≠ sign :: digits) →
      ¬ IsTorn id := by
    rintro hnone ⟨mark, hmark, sign, hsign, digits, hid, -⟩
    exact hnone sign hsign digits ((dropMark_eq_iff hsign).mpr ⟨mark, hmark, hid⟩)
  unfold read
  dsimp only
  split
  · next hempty =>
    refine Or.inl ⟨?_, _, rfl⟩
    rintro ⟨mark, -, sign, -, digits, hid, -⟩
    simp [hid] at hempty
  split
  · next hutc =>
    refine Or.inl ⟨?_, _, rfl⟩
    rintro ⟨mark, -, sign, hsign, digits, hid, -⟩
    rw [hid] at hutc
    exact not_mem_utcIds hsign hutc
  · split
    · next digits hdrop =>
      rw [hsigned (by decide) hdrop]
      rcases readOffset_cases digits with ⟨hwhole, east, hread⟩ | ⟨htorn, hread⟩
      · rw [hread]
        exact Or.inl ⟨hwhole, _, rfl⟩
      · rw [hread]
        exact Or.inr ⟨htorn, _, rfl⟩
    · next digits hdrop =>
      rw [hsigned (by decide) hdrop]
      rcases readOffset_cases digits with ⟨hwhole, east, hread⟩ | ⟨htorn, hread⟩
      · rw [hread]
        exact Or.inl ⟨hwhole, _, rfl⟩
      · rw [hread]
        exact Or.inr ⟨htorn, _, rfl⟩
    · next hplus hminus =>
      refine Or.inl ⟨hunsigned ?_, _, rfl⟩
      intro sign hsign digits hdrop
      simp only [signs, List.mem_cons, List.not_mem_nil, or_false] at hsign
      rcases hsign with rfl | rfl
      · exact hplus digits hdrop
      · exact hminus digits hdrop

theorem not_isTorn_of_read [CivilTime] {id : Text} {zone : Option Zone}
    (hread : read id = .ok zone) : ¬ IsTorn id := by
  rcases read_cases id with ⟨hwhole, -⟩ | ⟨-, digits, hbroken⟩
  · exact hwhole
  · rw [hread] at hbroken
    cases hbroken

theorem isTorn_of_read [CivilTime] {id : Text} {breakdown : Breakdown}
    (hread : read id = .error breakdown) : IsTorn id := by
  rcases read_cases id with ⟨-, zone, hwhole⟩ | ⟨htorn, -⟩
  · rw [hread] at hwhole
    cases hwhole
  · exact htorn

end Zone

/-! ## Starting from settings -/

/-- The settings have a zone id, and it is torn. -/
def Settings.HasTornZone (settings : Settings) : Prop :=
  ∃ id, settings.get? Layout.zoneKey = some id ∧ Zone.IsTorn id

/-- A layout breaks off where its zone does. -/
theorem Layout.ofSettings_error [CivilTime] {settings : Settings} {breakdown : Breakdown}
    (hzone : settings.zone Layout.zoneKey = .error breakdown) :
    Layout.ofSettings settings = .error breakdown := by
  unfold Layout.ofSettings
  rw [hzone]
  rfl

theorem Layout.ofSettings_ok [CivilTime] {settings : Settings} {zone : Reported (Option Zone)}
    (hzone : settings.zone Layout.zoneKey = .ok zone) :
    ∃ layout, Layout.ofSettings settings = .ok layout ∧ layout.value.zone = zone.value.getD .system
      ∧ layout.notices = zone.notices := by
  unfold Layout.ofSettings
  rw [hzone]
  exact ⟨_, rfl, rfl, List.append_nil _⟩

theorem Blueprint.build_ofSettings [CivilTime] (settings : Settings) :
    (Blueprint.ofSettings settings).build
      = (Layout.ofSettings settings).map fun layout =>
          ⟨Backend.new settings layout.value (.console Console.standard), layout.notices⟩ := by
  show ((Layout.ofSettings settings).bind fun layout => _) = _
  cases Layout.ofSettings settings with
  | error breakdown => rfl
  | ok layout =>
      show Except.ok (⟨_, layout.notices ++ []⟩ : Reported (Backend Sink)) = _
      rw [List.append_nil]
      rfl

namespace Blueprint

/-- **A backend is made from any settings whose zone id is not torn.** Without an id the zone is that
of the system and nothing is left; with one it is the zone that the id names, or that of the system
and one warning if it names none. With a torn id neither a layout nor a backend is made. -/
theorem build_unless_torn [CivilTime] (settings : Settings) :
    (¬ settings.HasTornZone → ∃ layout : Reported Layout,
        Layout.ofSettings settings = .ok layout
          ∧ (Blueprint.ofSettings settings).build
            = .ok ⟨Backend.new settings layout.value (.console Console.standard), layout.notices⟩
          ∧ (settings.get? Layout.zoneKey = none →
            layout.value.zone = .system ∧ layout.notices = [])
          ∧ ∀ id, settings.get? Layout.zoneKey = some id → ∃ zone, Zone.read id = .ok zone
            ∧ layout.value.zone = zone.getD .system
            ∧ layout.notices = if zone = none then [.unknownZone id Layout.zoneKey] else [])
      ∧ (settings.HasTornZone → ∃ breakdown, Layout.ofSettings settings = .error breakdown
        ∧ (Blueprint.ofSettings settings).build = .error breakdown) := by
  rw [build_ofSettings]
  cases hid : settings.get? Layout.zoneKey with
  | none =>
      have hzone : settings.zone Layout.zoneKey = .ok (pure none) := by
        unfold Settings.zone
        rw [hid]
      obtain ⟨layout, hlayout, hvalue, hnotices⟩ := Layout.ofSettings_ok hzone
      rw [hlayout]
      refine ⟨fun _ => ⟨layout, rfl, rfl, fun _ => ⟨hvalue, hnotices⟩, nofun⟩, ?_⟩
      rintro ⟨id, hsome, -⟩
      rw [hid] at hsome
      cases hsome
  | some id =>
      have htorn : settings.HasTornZone ↔ Zone.IsTorn id := by
        simp [Settings.HasTornZone, hid]
      rw [htorn]
      rcases Zone.read_cases id with ⟨hwhole, zone, hread⟩ | ⟨hbroken, digits, hread⟩
      · refine ⟨fun _ => ?_, fun h => absurd h hwhole⟩
        have hzone : ∃ reported, settings.zone Layout.zoneKey = .ok reported
            ∧ reported.value = zone
            ∧ reported.notices = if zone = none then [.unknownZone id Layout.zoneKey] else [] := by
          unfold Settings.zone
          rw [hid]
          dsimp only
          rw [hread]
          cases zone with
          | none => exact ⟨_, rfl, rfl, rfl⟩
          | some zone => exact ⟨_, rfl, rfl, rfl⟩
        obtain ⟨reported, hreported, rfl, hwarning⟩ := hzone
        obtain ⟨layout, hlayout, hvalue, hnotices⟩ := Layout.ofSettings_ok hreported
        rw [hlayout]
        refine ⟨layout, rfl, rfl, nofun, fun other hother => ?_⟩
        obtain rfl := Option.some.inj hother
        exact ⟨_, hread, hvalue, hnotices.trans hwarning⟩
      · refine ⟨fun h => absurd hbroken h, fun _ => ⟨.cutInsideCharacter digits, ?_⟩⟩
        have hzone : settings.zone Layout.zoneKey = .error (.cutInsideCharacter digits) := by
          unfold Settings.zone
          rw [hid]
          dsimp only
          rw [hread]
          rfl
        rw [Layout.ofSettings_error hzone]
        exact ⟨rfl, rfl⟩

/-- An id with a wide character behind its digit, which is cut between the two and names no zone. -/
theorem build_unless_torn_unknown :
    let settings := Settings.ofPairs [(Layout.zoneKey, "GMT+1é".toList)]
    ¬ settings.HasTornZone ∧ ∃ layout : Reported Layout,
      (Blueprint.ofSettings settings).build
          = .ok ⟨Backend.new settings layout.value (.console Console.standard), layout.notices⟩
        ∧ layout.value.zone = .system
        ∧ layout.notices = [.unknownZone "GMT+1é".toList Layout.zoneKey] := by
  intro settings
  have hid : settings.get? Layout.zoneKey = some "GMT+1é".toList := by decide +kernel
  have hread : Zone.read "GMT+1é".toList = .ok none := by decide +kernel
  have hwhole : ¬ settings.HasTornZone := by
    rintro ⟨id, hsome, htorn⟩
    rw [hid] at hsome
    cases hsome
    exact Zone.not_isTorn_of_read hread htorn
  obtain ⟨layout, -, hbuild, -, hzone⟩ := (build_unless_torn settings).1 hwhole
  obtain ⟨zone, hsame, hvalue, hnotices⟩ := hzone _ hid
  rw [hread] at hsame
  cases hsame
  exact ⟨hwhole, layout, hbuild, hvalue, hnotices⟩

/-- Settings from which no backend is made. -/
theorem torn_zone_makes_no_backend :
    let settings := Settings.ofProperties "ab.eazy.logging.appender.ZONE_ID=+é5".toList
    settings.get? Layout.zoneKey = some "+é5".toList
      ∧ (∀ layout, Layout.ofSettings settings ≠ .ok layout)
      ∧ ∀ backend, (Blueprint.ofSettings settings).build ≠ .ok backend := by
  intro settings
  have hid : settings.get? Layout.zoneKey = some "+é5".toList := by decide +kernel
  have hread : Zone.read "+é5".toList = .error (.cutInsideCharacter "é5".toList) := by
    decide +kernel
  have hzone : settings.zone Layout.zoneKey = .error (.cutInsideCharacter "é5".toList) := by
    unfold Settings.zone
    rw [hid]
    dsimp only
    rw [hread]
    rfl
  have hlayout := Layout.ofSettings_error hzone
  have hbuild := build_ofSettings settings
  rw [hlayout] at hbuild
  refine ⟨hid, fun layout => ?_, fun backend => ?_⟩
  · rw [hlayout]
    nofun
  · rw [hbuild]
    nofun

end Blueprint

end Logbook
