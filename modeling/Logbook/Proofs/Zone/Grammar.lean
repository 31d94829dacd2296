import Logbook.Proofs.Text.Numeral
import Logbook.Proofs.Zone.Reading

/-!
# Logbook — the grammar of zone ids

An id is UTC by one of its names, or it is an offset: perhaps a mark, a sign, and hours and minutes in
one of three forms. Everything else is left to the regions, and these are not asked once a sign is
seen.

* **`Zone.cutTwoBytes_eq_iff`**, **`cutOffset_colon`**, **`cutOffset_short`**, **`cutOffset_long`** —
  where an unsigned offset is cut.
* **`Zone.IsClock`** — the three forms; `isClock_iff` says that they are what is cut into two
  numerals, and `readOffset_eq_iff` that they are what is read.
* **`Zone.HasSign`**, **`Zone.IsOffset`** — an id with a sign, and an offset with what it denotes.
* **`Zone.readAmong`** — reading, with the regions left open.
* **`Zone.read_follows_grammar`** — the headline.
-/

namespace Logbook

/-! ## Digits and bytes -/

theorem Text.byteLength_of_isDigit {digits : Text} (h : ∀ c ∈ digits, c.isDigit = true) :
    byteLength digits = digits.length := by
  induction digits with
  | nil => rfl
  | cons c rest ih =>
      rw [List.forall_mem_cons] at h
      have hc := (Char.isDigit_iff_toNat.mp h.1).2
      have hsize : c.utf8Size = 1 := by
        rw [Char.utf8Size_eq_one_iff, UInt32.le_iff_toNat_le]
        exact hc.trans (by decide)
      rw [byteLength_cons, hsize, ih h.2, List.length_cons, Nat.add_comm]

theorem Numeral.IsNatural.colon_not_mem {digits : Text} {n : Nat} (h : IsNatural digits n) :
    ':' ∉ digits :=
  fun hcolon => absurd (h.isDigit ':' hcolon) (by decide)

namespace Zone

open Text Numeral

/-! ## Cutting an offset -/

/-- Two bytes are one character or two. -/
theorem byteLength_eq_two_iff {text : Text} :
    byteLength text = 2
      ↔ (∃ c, text = [c] ∧ c.utf8Size = 2)
        ∨ ∃ d c, text = [d, c] ∧ d.utf8Size = 1 ∧ c.utf8Size = 1 := by
  constructor
  · intro hbytes
    match text, hbytes with
    | [c], hbytes => exact .inl ⟨c, rfl, hbytes⟩
    | [d, c], hbytes =>
        have hd := d.utf8Size_pos
        have hc := c.utf8Size_pos
        have hsum : d.utf8Size + c.utf8Size = 2 := hbytes
        exact .inr ⟨d, c, rfl, by omega, by omega⟩
    | b :: d :: c :: rest, hbytes =>
        have hb := b.utf8Size_pos
        have hd := d.utf8Size_pos
        have hc := c.utf8Size_pos
        rw [byteLength_cons, byteLength_cons, byteLength_cons] at hbytes
        omega
  · rintro (⟨c, rfl, hc⟩ | ⟨d, c, rfl, hd, hc⟩)
    · exact hc
    · rw [byteLength_cons, byteLength_cons, hd, hc]
      rfl

theorem cutTwoBytes_eq_iff {digits hours minutes : Text} (hlong : 2 < byteLength digits) :
    cutTwoBytes digits = .ok (hours, minutes)
      ↔ byteLength minutes = 2 ∧ digits = hours ++ minutes := by
  obtain ⟨backwards, rfl⟩ : ∃ backwards : Text, digits = backwards.reverse :=
    ⟨digits.reverse, digits.reverse_reverse.symm⟩
  unfold cutTwoBytes
  rw [List.reverse_reverse, byteLength_eq_two_iff, List.reverse_eq_iff]
  constructor
  · intro hcut
    split at hcut
    · next c d rest =>
      split at hcut
      · next hc =>
        cases hcut
        exact ⟨.inl ⟨c, rfl, hc⟩, by simp⟩
      · split at hcut
        · next hsizes =>
          cases hcut
          exact ⟨.inr ⟨d, c, rfl, hsizes.2, hsizes.1⟩, by simp⟩
        · cases hcut
    · cases hcut
  · rintro ⟨⟨c, rfl, hc⟩ | ⟨d, c, rfl, hd, hc⟩, rfl⟩
    · -- the last character has both bytes, and there is another one in front of it
      have hne : hours ≠ [] := by
        rintro rfl
        rw [List.reverse_reverse, List.nil_append, byteLength_cons, hc] at hlong
        exact absurd hlong (by decide)
      obtain ⟨front, d, rfl⟩ := (List.eq_nil_or_concat' hours).resolve_left hne
      simp [hc]
    · simp [hc, hd]

theorem cutOffset_colon {hours : Text} (hcolon : ':' ∉ hours) (minutes : Text) :
    cutOffset (hours ++ ':' :: minutes) = .ok (hours, minutes) := by
  have hall : ∀ c ∈ hours, (c != ':') = true := fun c hc =>
    bne_iff_ne.mpr fun hsame => hcolon (hsame ▸ hc)
  unfold cutOffset
  rw [if_pos (by simp), List.takeWhile_append_of_pos hall, List.dropWhile_append_of_pos hall]
  simp

theorem cutOffset_short {digits : Text} (hcolon : ':' ∉ digits) (hshort : byteLength digits ≤ 2) :
    cutOffset digits = .ok (digits, ['0']) := by
  unfold cutOffset
  rw [if_neg hcolon, if_pos hshort]

theorem cutOffset_long {digits : Text} (hcolon : ':' ∉ digits) (hlong : 2 < byteLength digits) :
    cutOffset digits = cutTwoBytes digits := by
  unfold cutOffset
  rw [if_neg hcolon, if_neg (Nat.not_le.mpr hlong)]

/-! ## The clock of an offset -/

/-- Hours and minutes without a sign: two numerals with a colon between them, one or two digits for
the hours alone, or the digits of the hours and behind them two of the minutes. -/
inductive IsClock : Text → Nat → Nat → Prop where
  | apart {hours minutes : Text} {h m : Nat} (hhours : IsNatural hours h)
      (hminutes : IsNatural minutes m) : IsClock (hours ++ ':' :: minutes) h m
  | hoursAlone {hours : Text} {h : Nat} (hhours : IsNatural hours h) (hshort : hours.length ≤ 2) :
      IsClock hours h 0
  | joined {hours minutes : Text} {h m : Nat} (hhours : IsNatural hours h)
      (hminutes : IsNatural minutes m) (htwo : minutes.length = 2) : IsClock (hours ++ minutes) h m

/-- **What is cut into two numerals is one of the three forms.** -/
theorem isClock_iff {digits : Text} {h m : Nat} :
    IsClock digits h m
      ↔ ∃ hours minutes, cutOffset digits = .ok (hours, minutes) ∧ IsNatural hours h
          ∧ IsNatural minutes m := by
  constructor
  · intro hclock
    cases hclock with
    | apart hhours hminutes =>
        exact ⟨_, _, cutOffset_colon hhours.colon_not_mem _, hhours, hminutes⟩
    | hoursAlone hhours hshort =>
        have hbytes := byteLength_of_isDigit hhours.isDigit
        exact ⟨_, _, cutOffset_short hhours.colon_not_mem (hbytes.trans_le hshort), hhours,
          readNatural?_eq_some_iff.mp rfl⟩
    | @joined hours minutes _ _ hhours hminutes htwo =>
        have hcolon : ':' ∉ hours ++ minutes := by
          simp [hhours.colon_not_mem, hminutes.colon_not_mem]
        have htwo : byteLength minutes = 2 := (byteLength_of_isDigit hminutes.isDigit).trans htwo
        have hlong : 2 < byteLength (hours ++ minutes) := by
          rw [byteLength_append, htwo, byteLength_of_isDigit hhours.isDigit]
          have := List.length_pos_of_ne_nil hhours.ne_nil
          omega
        refine ⟨hours, minutes, ?_, hhours, hminutes⟩
        rw [cutOffset_long hcolon hlong, cutTwoBytes_eq_iff hlong]
        exact ⟨htwo, rfl⟩
  · rintro ⟨hours, minutes, hcut, hhours, hminutes⟩
    by_cases hcolon : ':' ∈ digits
    · obtain ⟨front, back, rfl, hfront⟩ := List.eq_append_cons_of_mem hcolon
      rw [cutOffset_colon hfront] at hcut
      cases hcut
      exact .apart hhours hminutes
    · rcases Nat.lt_or_ge 2 (byteLength digits) with hlong | hshort
      · rw [cutOffset_long hcolon hlong, cutTwoBytes_eq_iff hlong] at hcut
        obtain ⟨htwo, rfl⟩ := hcut
        exact .joined hhours hminutes ((byteLength_of_isDigit hminutes.isDigit).symm.trans htwo)
      · rw [cutOffset_short hcolon hshort] at hcut
        cases hcut
        rw [byteLength_of_isDigit hhours.isDigit] at hshort
        obtain rfl : 0 = m := hminutes.value_eq
        exact .hoursAlone hhours hshort

/-- **Reading accepts a clock of at most 18 hours and 59 minutes**, and nothing else. -/
theorem readOffset_eq_iff {digits : Text} {east : Int} :
    readOffset digits = .ok (some east)
      ↔ ∃ h m : Nat, IsClock digits h m ∧ h ≤ 18 ∧ m ≤ 59 ∧ east = 3600 * h + 60 * m := by
  unfold readOffset
  simp only [isClock_iff]
  cases hcut : cutOffset digits with
  | error breakdown => simp [bind, Except.bind]
  | ok parts =>
      obtain ⟨hours, minutes⟩ := parts
      simp only [bind, Except.bind, pure, Except.pure]
      constructor
      · intro hread
        simp only [Except.ok.injEq, Option.bind_eq_some_iff, readNatural?_eq_some_iff,
          Option.ite_none_right_eq_some, Option.some.injEq] at hread
        obtain ⟨h, hhours, m, hminutes, ⟨hh, hm⟩, rfl⟩ := hread
        exact ⟨h, m, ⟨hours, minutes, rfl, hhours, hminutes⟩, hh, hm, rfl⟩
      · rintro ⟨h, m, ⟨_, _, hsame, hhours, hminutes⟩, hh, hm, rfl⟩
        cases hsame
        simp [readNatural?_eq_some_iff.mpr hhours, readNatural?_eq_some_iff.mpr hminutes, hh, hm]

/-! ## Ids -/

/-- A sign stands in front, perhaps behind a mark. -/
def HasSign (id : Text) : Prop :=
  ∃ mark ∈ [] :: offsetMarks, ∃ sign ∈ signs, ∃ digits, id = mark ++ sign :: digits

theorem HasSign.isEmpty_eq_false {id : Text} (h : HasSign id) : id.isEmpty = false := by
  obtain ⟨mark, -, sign, -, digits, rfl⟩ := h
  simp

theorem HasSign.not_mem_utcIds {id : Text} (h : HasSign id) : id ∉ utcIds := by
  obtain ⟨mark, -, sign, hsign, digits, rfl⟩ := h
  exact Zone.not_mem_utcIds hsign

/-- The seconds east of UTC that a sign makes of an unsigned offset. -/
def turned (sign : Char) (seconds : Int) : Int :=
  if sign = '-' then -seconds else seconds

/-- An offset as an id, and what it denotes: at most one mark, a sign, and a clock of at most 18 hours
and 59 minutes. -/
inductive IsOffset : Text → Int → Prop where
  | written {mark digits : Text} {sign : Char} {h m : Nat} (hmark : mark ∈ [] :: offsetMarks)
      (hsign : sign ∈ signs) (hclock : IsClock digits h m) (hh : h ≤ 18) (hm : m ≤ 59) :
      IsOffset (mark ++ sign :: digits) (turned sign (3600 * h + 60 * m))

theorem IsOffset.hasSign {id : Text} {east : Int} (h : IsOffset id east) : HasSign id := by
  obtain ⟨hmark, hsign, -, -, -⟩ := h
  exact ⟨_, hmark, _, hsign, _, rfl⟩

/-- An offset is told by what is read behind its sign. -/
theorem isOffset_iff {mark digits : Text} {sign : Char} {east : Int}
    (hmark : mark ∈ [] :: offsetMarks) (hsign : sign ∈ signs) :
    IsOffset (mark ++ sign :: digits) east
      ↔ ∃ seconds, readOffset digits = .ok (some seconds) ∧ turned sign seconds = east := by
  constructor
  · intro hoffset
    generalize hid : mark ++ sign :: digits = id at hoffset
    obtain ⟨hother, hsame, hclock, hh, hm⟩ := hoffset
    next other more found h m =>
    -- there is only one way to take the mark off
    have hdrop := (dropMark_eq_iff hsign).mpr ⟨mark, hmark, hid.symm⟩
    rw [(dropMark_eq_iff hsame).mpr ⟨other, hother, rfl⟩] at hdrop
    obtain ⟨rfl, rfl⟩ := List.cons.inj hdrop
    exact ⟨_, readOffset_eq_iff.mpr ⟨h, m, hclock, hh, hm, rfl⟩, rfl⟩
  · rintro ⟨seconds, hread, rfl⟩
    obtain ⟨h, m, hclock, hh, hm, rfl⟩ := readOffset_eq_iff.mp hread
    exact .written hmark hsign hclock hh hm

/-! ## Reading an id -/

/-- Reads a zone id as `read` does, but with the regions left open. -/
def readAmong (regions : Text → Option Region) (id : Text) : Except Breakdown (Option Zone) :=
  let id := Text.trim id
  if id.isEmpty then .ok none
  else if utcIds.contains id then .ok (some utc)
  else
    match dropMark id with
    | '+' :: digits => do return (← readOffset digits).map fixed
    | '-' :: digits => do return (← readOffset digits).map fun east => fixed (-east)
    | _ => .ok ((regions id).map named)

/-- Behind a mark and a sign an offset is read, whatever the regions. -/
theorem readAmong_signed (regions : Text → Option Region) {id mark digits : Text} {sign : Char}
    (hmark : mark ∈ [] :: offsetMarks) (hsign : sign ∈ signs)
    (hid : Text.trim id = mark ++ sign :: digits) :
    readAmong regions id
      = (readOffset digits).map fun seconds => seconds.map fun s => fixed (turned sign s) := by
  have hsigned : HasSign (Text.trim id) := ⟨mark, hmark, sign, hsign, digits, hid⟩
  have hdrop : dropMark (Text.trim id) = sign :: digits :=
    (dropMark_eq_iff hsign).mpr ⟨mark, hmark, hid⟩
  simp only [readAmong, hsigned.isEmpty_eq_false, List.contains_iff_mem,
    if_neg hsigned.not_mem_utcIds, hdrop, Bool.false_eq_true, if_false]
  simp only [signs, List.mem_cons, List.not_mem_nil, or_false] at hsign
  rcases hsign with rfl | rfl
  · rfl
  · rfl

section Read

variable [CivilTime]

theorem read_eq_readAmong (id : Text) : read id = readAmong CivilTime.region? id := by
  unfold readAmong
  simp only [List.contains_iff_mem]
  rfl

theorem read_blank {id : Text} (hblank : (Text.trim id).isEmpty) : read id = .ok none :=
  if_pos hblank

theorem read_utc {id : Text} (hutc : Text.trim id ∈ utcIds) : read id = .ok (some utc) := by
  have hid : ¬ (Text.trim id).isEmpty := by
    have hnone : ∀ name ∈ utcIds, ¬ name.isEmpty := by decide
    exact hnone _ hutc
  exact (if_neg hid).trans (if_pos hutc)

theorem read_unsigned {id : Text} (hid : ¬ (Text.trim id).isEmpty)
    (hutc : Text.trim id ∉ utcIds) (hsign : ¬ HasSign (Text.trim id)) :
    read id = .ok ((CivilTime.region? (Text.trim id)).map named) := by
  have hdrop : ∀ sign ∈ signs, ∀ digits, dropMark (Text.trim id) ≠ sign :: digits := by
    intro sign hmem digits hdrop
    obtain ⟨mark, hmark, hid⟩ := (dropMark_eq_iff hmem).mp hdrop
    exact hsign ⟨mark, hmark, sign, hmem, digits, hid⟩
  unfold read
  dsimp only
  rw [if_neg hid, if_neg hutc]
  split
  · next digits hplus => exact absurd hplus (hdrop '+' (by decide) digits)
  · next digits hminus => exact absurd hminus (hdrop '-' (by decide) digits)
  · rfl

/-- An id that is neither UTC nor has a sign is a region or nothing. -/
theorem read_ne_of_unsigned {id : Text} (hutc : Text.trim id ∉ utcIds)
    (hsign : ¬ HasSign (Text.trim id)) {zone : Zone} (hzone : ∀ region, named region ≠ zone) :
    read id ≠ .ok (some zone) := by
  by_cases hid : (Text.trim id).isEmpty
  · rw [read_blank hid]
    nofun
  · rw [read_unsigned hid hutc hsign]
    cases CivilTime.region? (Text.trim id) with
    | none => nofun
    | some region => exact fun hread => hzone region (Option.some.inj (Except.ok.inj hread))

theorem readAmong_eq_read {id : Text} (h : HasSign (Text.trim id))
    (regions : Text → Option Region) : readAmong regions id = read id := by
  obtain ⟨mark, hmark, sign, hsign, digits, hid⟩ := h
  rw [read_eq_readAmong, readAmong_signed _ hmark hsign hid, readAmong_signed _ hmark hsign hid]

/-- **Where a sign stands, an id is read as the offset that it is written as**, and as no other
zone. -/
theorem read_signed_eq_iff {id : Text} (h : HasSign (Text.trim id)) (zone : Zone) :
    read id = .ok (some zone) ↔ ∃ east, zone = fixed east ∧ IsOffset (Text.trim id) east := by
  obtain ⟨mark, hmark, sign, hsign, digits, hid⟩ := h
  rw [read_eq_readAmong, readAmong_signed _ hmark hsign hid, hid]
  simp only [isOffset_iff hmark hsign]
  cases hread : readOffset digits with
  | error breakdown => simp [Except.map]
  | ok seconds =>
      cases seconds with
      | none => simp [Except.map]
      | some seconds => simp [Except.map, eq_comm]

/-- **The grammar of zone ids.** Blanks around an id do not count. It is read as UTC just if it is one
of the four names of UTC, and as a fixed offset just if it is written as one, with this offset. If a
sign stands in front, perhaps behind a mark, the regions are not asked: whatever they are, the answer
is the same, and it is no zone but a fixed offset. -/
theorem read_follows_grammar (id : Text) :
    (read id = .ok (some utc)
        ↔ Text.trim id ∈ ["UTC".toList, "GMT".toList, "UT".toList, "Z".toList])
      ∧ (∀ east, read id = .ok (some (fixed east)) ↔ IsOffset (Text.trim id) east)
      ∧ (HasSign (Text.trim id) →
        (∀ regions, readAmong regions id = read id)
          ∧ ∀ zone, read id = .ok (some zone) → ∃ east, zone = fixed east) := by
  by_cases hsign : HasSign (Text.trim id)
  · have hzone := read_signed_eq_iff hsign
    refine ⟨iff_of_false ?_ hsign.not_mem_utcIds, ?_, fun _ => ⟨readAmong_eq_read hsign, ?_⟩⟩
    · rw [hzone]
      rintro ⟨east, hutc, -⟩
      cases hutc
    · intro east
      simp [hzone]
    · intro zone hread
      obtain ⟨east, rfl, -⟩ := (hzone zone).mp hread
      exact ⟨east, rfl⟩
  · have hoffset : ∀ east, ¬ IsOffset (Text.trim id) east := fun east h => hsign h.hasSign
    by_cases hutc : Text.trim id ∈ utcIds
    · rw [read_utc hutc]
      exact ⟨iff_of_true rfl hutc, fun east => iff_of_false nofun (hoffset east), (absurd · hsign)⟩
    · refine ⟨iff_of_false ?_ hutc, fun east => iff_of_false ?_ (hoffset east), (absurd · hsign)⟩
      · exact read_ne_of_unsigned hutc hsign nofun
      · exact read_ne_of_unsigned hutc hsign nofun

end Read

/-- An id with blanks around it, a mark, and the minutes right behind the hours. -/
theorem read_follows_grammar_joined :
    HasSign (Text.trim " GMT-00130\t".toList)
      ∧ read " GMT-00130\t".toList = .ok (some (fixed (-5400)))
      ∧ IsOffset (Text.trim " GMT-00130\t".toList) (-5400)
      ∧ ∀ regions, readAmong regions " GMT-00130\t".toList = .ok (some (fixed (-5400))) := by
  have hsign : HasSign (Text.trim " GMT-00130\t".toList) :=
    ⟨"GMT".toList, by decide, '-', by decide, "00130".toList, by decide⟩
  have hread : read " GMT-00130\t".toList = .ok (some (fixed (-5400))) := by decide +kernel
  obtain ⟨-, hoffset, hregions⟩ := read_follows_grammar " GMT-00130\t".toList
  refine ⟨hsign, hread, (hoffset _).mp hread, fun regions => ?_⟩
  rw [(hregions hsign).1 regions, hread]

end Zone

end Logbook
