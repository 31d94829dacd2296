import Logbook.Proofs.Name.Lineage
import Logbook.Settings

/-!
# Logbook — resolution is longest-prefix match

What holds for a logger name is decided by the first entry along its lineage. For a level only a
value that names one counts: any other value is passed over, with a warning. For the treatment of
stacks every value counts.

* **`LevelOf`**, **`HidesOf`** — the two rules, about any list of names in order of preference.
* **`levelOf_findSomeM`**, **`hidesOf_findSome`** — a search along a list follows them.
* **`LevelOf.unique`**, **`HidesOf.unique`** — the rules leave no choice.
* **`resolve_longest_match`** — the headline: so do the two queries, along the lineage of the stem of
  the name.
-/

namespace Logbook

/-- A level is read from its canonical name, and from no other text. -/
theorem Level.ofName?_eq_some_iff {text : Text} {level : Level} :
    Level.ofName? text = some level ↔ text = level.name := by
  constructor
  · intro h
    have hname := List.find?_some h
    exact (beq_iff_eq.mp hname).symm
  · rintro rfl
    cases level <;> decide

namespace Settings

variable {settings : Settings}

/-! ## The two rules -/

/-- The entry for just this name has the canonical name of the level as its value. -/
def HasLevel (settings : Settings) (name : Text) (level : Level) : Prop :=
  settings.get? (name ++ levelSuffix) = some level.name

/-- The warning that the level entry of a name calls for if its value names no level. -/
def levelWarning? (settings : Settings) (name : Text) : Option Notice :=
  (settings.get? (name ++ levelSuffix)).map fun value => .unknownLevel value (name ++ levelSuffix)

/-- The level that these names decide, and the notices that are left. -/
inductive LevelOf (settings : Settings) (names : List Text) : Reported Level → Prop
  /-- The first name with a level decides, and the unusable entries before it leave warnings. -/
  | found (before : List Text) (name : Text) (after : List Text) (level : Level)
      (hnames : names = before ++ name :: after)
      (hbefore : ∀ earlier ∈ before, ∀ other, ¬ settings.HasLevel earlier other)
      (hlevel : settings.HasLevel name level) :
      LevelOf settings names ⟨level, before.filterMap settings.levelWarning?⟩
  /-- Without one it is INFO, and all unusable entries leave warnings. -/
  | standard (hnames : ∀ name ∈ names, ∀ other, ¬ settings.HasLevel name other) :
      LevelOf settings names ⟨.info, names.filterMap settings.levelWarning?⟩

/-- Whether stacks are hidden by what these names decide. -/
inductive HidesOf (settings : Settings) (names : List Text) : Bool → Prop
  /-- The first name with an entry decides; `true` in any case of its letters hides. -/
  | found (before : List Text) (name : Text) (after : List Text) (value : Text)
      (hnames : names = before ++ name :: after)
      (hbefore : ∀ earlier ∈ before, settings.get? (earlier ++ stacksSuffix) = none)
      (hvalue : settings.get? (name ++ stacksSuffix) = some value) :
      HidesOf settings names (decide (value.map Char.toLower = "true".toList))
  /-- Without one they are shown. -/
  | standard (hnames : ∀ name ∈ names, settings.get? (name ++ stacksSuffix) = none) :
      HidesOf settings names false

/-- A name without a level at the front leaves its warning, if any, and the others decide. -/
theorem LevelOf.cons {name : Text} {names : List Text} {result : Reported Level}
    (h : LevelOf settings names result) (hname : ∀ other, ¬ settings.HasLevel name other) :
    LevelOf settings (name :: names)
      ⟨result.value, (settings.levelWarning? name).toList ++ result.notices⟩ := by
  have hwarning : ∀ rest : List Text, (name :: rest).filterMap settings.levelWarning?
      = (settings.levelWarning? name).toList ++ rest.filterMap settings.levelWarning? := by
    intro rest
    cases hw : settings.levelWarning? name <;> simp [hw]
  cases h with
  | found before first after level hnames hbefore hlevel =>
      have hfound : LevelOf settings (name :: names) _ :=
        .found (name :: before) first after level (by rw [hnames, List.cons_append])
          (by simpa using ⟨hname, hbefore⟩) hlevel
      rwa [hwarning] at hfound
  | standard hnames =>
      have hstandard : LevelOf settings (name :: names) _ :=
        .standard (by simpa using ⟨hname, hnames⟩)
      rwa [hwarning] at hstandard

/-- A name without an entry at the front leaves the decision to the others. -/
theorem HidesOf.cons {name : Text} {names : List Text} {hides : Bool}
    (h : HidesOf settings names hides) (hname : settings.get? (name ++ stacksSuffix) = none) :
    HidesOf settings (name :: names) hides := by
  cases h with
  | found before first after value hnames hbefore hvalue =>
      exact .found (name :: before) first after value (by rw [hnames, List.cons_append])
        (by simpa using ⟨hname, hbefore⟩) hvalue
  | standard hnames => exact .standard (by simpa using ⟨hname, hnames⟩)

/-- The rule for levels leaves warnings, and nothing graver. -/
theorem LevelOf.gravity_eq {names : List Text} {result : Reported Level}
    (h : LevelOf settings names result) : ∀ notice ∈ result.notices, notice.gravity = .warning := by
  have hwarning : ∀ (some : List Text), ∀ notice ∈ some.filterMap settings.levelWarning?,
      notice.gravity = .warning := by
    intro some notice hnotice
    obtain ⟨name, -, hname⟩ := List.mem_filterMap.mp hnotice
    obtain ⟨value, -, rfl⟩ := Option.map_eq_some_iff.mp hname
    rfl
  cases h with
  | found before name after level hnames hbefore hlevel => exact hwarning before
  | standard hnames => exact hwarning names

/-! ## A search follows the rules -/

/-- What the entry of one name has to say about the level. -/
theorem ownLevel_cases (settings : Settings) (name : Text) :
    (∃ level, settings.HasLevel name level ∧ settings.ownLevel name = ⟨some level, []⟩)
      ∨ ((∀ other, ¬ settings.HasLevel name other)
        ∧ settings.ownLevel name = ⟨none, (settings.levelWarning? name).toList⟩) := by
  cases hvalue : settings.get? (name ++ levelSuffix) with
  | none =>
      right
      refine ⟨by simp [HasLevel, hvalue], ?_⟩
      simp only [ownLevel, levelWarning?, hvalue]
      rfl
  | some value =>
      cases hlevel : Level.ofName? value with
      | some level =>
          left
          refine ⟨level, ?_, ?_⟩
          · rw [HasLevel, hvalue, Level.ofName?_eq_some_iff.mp hlevel]
          · simp only [ownLevel, hvalue, hlevel]
            rfl
      | none =>
          right
          constructor
          · intro other hother
            rw [HasLevel, hvalue] at hother
            rw [Level.ofName?_eq_some_iff.mpr (Option.some.inj hother)] at hlevel
            cases hlevel
          · simp only [ownLevel, levelWarning?, hvalue, hlevel]
            rfl

/-- **A search for a level follows the rule.** -/
theorem levelOf_findSomeM (settings : Settings) (names : List Text) :
    LevelOf settings names
      ⟨(names.findSomeM? settings.ownLevel).value.getD Level.standard,
        (names.findSomeM? settings.ownLevel).notices⟩ := by
  induction names with
  | nil => exact .standard nofun
  | cons name names ih =>
      rw [List.findSomeM?_cons]
      rcases settings.ownLevel_cases name with ⟨level, hlevel, hown⟩ | ⟨hname, hown⟩
      · rw [hown]
        exact .found [] name names level rfl nofun hlevel
      · rw [hown]
        exact ih.cons hname

theorem isTrue_eq (value : Text) :
    isTrue value = decide (value.map Char.toLower = "true".toList) := by
  have hlower : "true".toList.map Char.toLower = "true".toList := rfl
  rw [isTrue, Text.sameLetters, hlower, Bool.eq_iff_iff, beq_iff_eq, decide_eq_true_iff]

/-- **A search for the treatment of stacks follows the rule.** -/
theorem hidesOf_findSome (settings : Settings) (names : List Text) :
    HidesOf settings names
      ((names.findSome? settings.ownHidesStacks).getD hidesStacksByDefault) := by
  induction names with
  | nil => exact .standard nofun
  | cons name names ih =>
      rw [List.findSome?_cons]
      cases hvalue : settings.get? (name ++ stacksSuffix) with
      | none =>
          simp only [ownHidesStacks, hvalue, Option.map_none]
          exact ih.cons hvalue
      | some value =>
          simp only [ownHidesStacks, hvalue, Option.map_some, Option.getD_some, isTrue_eq]
          exact .found [] name names value rfl nofun hvalue

/-! ## The rules leave no choice

Names that do not decide leave their warnings, and the search goes on behind them as if they were
not there. So whatever a rule says is what the search finds. -/

theorem findSomeM_append_of_undecided {before : List Text}
    (hbefore : ∀ earlier ∈ before, ∀ other, ¬ settings.HasLevel earlier other)
    (after : List Text) :
    (before ++ after).findSomeM? settings.ownLevel
      = ⟨(after.findSomeM? settings.ownLevel).value,
          before.filterMap settings.levelWarning?
            ++ (after.findSomeM? settings.ownLevel).notices⟩ := by
  induction before with
  | nil => rfl
  | cons name before ih =>
      obtain ⟨hname, hbefore⟩ := List.forall_mem_cons.mp hbefore
      have hown : settings.ownLevel name = ⟨none, (settings.levelWarning? name).toList⟩ := by
        rcases settings.ownLevel_cases name with ⟨level, hlevel, -⟩ | ⟨-, hown⟩
        · exact absurd hlevel (hname level)
        · exact hown
      have hsearch : (name :: (before ++ after)).findSomeM? settings.ownLevel
          = ⟨((before ++ after).findSomeM? settings.ownLevel).value,
              (settings.levelWarning? name).toList
                ++ ((before ++ after).findSomeM? settings.ownLevel).notices⟩ := by
        rw [List.findSomeM?_cons, hown]
        rfl
      rw [List.cons_append, hsearch, ih hbefore, ← List.append_assoc]
      cases hwarning : settings.levelWarning? name <;> simp [hwarning]

theorem LevelOf.eq_findSomeM {names : List Text} {result : Reported Level}
    (h : LevelOf settings names result) :
    result = ⟨(names.findSomeM? settings.ownLevel).value.getD Level.standard,
      (names.findSomeM? settings.ownLevel).notices⟩ := by
  cases h with
  | found before name after level hnames hbefore hlevel =>
      have hown : settings.ownLevel name = ⟨some level, []⟩ := by
        have hvalue : settings.get? (name ++ levelSuffix) = some level.name := hlevel
        simp only [ownLevel, hvalue, Level.ofName?_eq_some_iff.mpr rfl]
        rfl
      have hsearch : (name :: after).findSomeM? settings.ownLevel = ⟨some level, []⟩ := by
        rw [List.findSomeM?_cons, hown]
        rfl
      rw [hnames, findSomeM_append_of_undecided hbefore, hsearch, List.append_nil]
      rfl
  | standard hnames =>
      have hsearch := findSomeM_append_of_undecided hnames []
      rw [List.append_nil] at hsearch
      rw [hsearch]
      exact congrArg (Reported.mk Level.info) (List.append_nil _).symm

/-- **The rule for levels leaves no choice.** -/
theorem LevelOf.unique {names : List Text} {result other : Reported Level}
    (h : LevelOf settings names result) (hother : LevelOf settings names other) : result = other :=
  h.eq_findSomeM.trans hother.eq_findSomeM.symm

theorem HidesOf.eq_findSome {names : List Text} {hides : Bool}
    (h : HidesOf settings names hides) :
    hides = (names.findSome? settings.ownHidesStacks).getD hidesStacksByDefault := by
  have hsilent : ∀ silent : List Text,
      (∀ name ∈ silent, settings.get? (name ++ stacksSuffix) = none) →
      silent.findSome? settings.ownHidesStacks = none := by
    intro silent hsilent
    rw [List.findSome?_eq_none_iff]
    intro name hname
    rw [ownHidesStacks, hsilent name hname, Option.map_none]
  cases h with
  | found before name after value hnames hbefore hvalue =>
      rw [hnames, List.findSome?_append, hsilent before hbefore, Option.none_or,
        List.findSome?_cons]
      simp only [ownHidesStacks, hvalue, Option.map_some, Option.getD_some, isTrue_eq]
  | standard hnames => rw [hsilent names hnames, Option.getD_none, hidesStacksByDefault]

/-- **The rule for stacks leaves no choice.** -/
theorem HidesOf.unique {names : List Text} {hides other : Bool} (h : HidesOf settings names hides)
    (hother : HidesOf settings names other) : hides = other :=
  h.eq_findSome.trans hother.eq_findSome.symm

/-! ## The queries -/

/-- The level of a name is what its walk finds, with no notice of its own. -/
theorem resolveLevel_eq (settings : Settings) (name : Text) :
    settings.resolveLevel name
      = ⟨(Name.walk settings.ownLevel (Name.normalize levelSuffix name)).value.getD Level.standard,
          (Name.walk settings.ownLevel (Name.normalize levelSuffix name)).notices⟩ := by
  change (⟨_, _ ++ []⟩ : Reported Level) = _
  rw [List.append_nil]
  rfl

/-- The level of a name follows the rule along the lineage of the stem. -/
theorem levelOf_resolveLevel (settings : Settings) (name : Text) :
    LevelOf settings (Name.lineage (Name.normalize levelSuffix name))
      (settings.resolveLevel name) := by
  have h := settings.levelOf_findSomeM (Name.lineage (Name.normalize levelSuffix name))
  rw [← Name.walk_eq_findSomeM] at h
  rwa [resolveLevel_eq]

/-- **Resolution is longest-prefix match.** The stem of the name is well defined, and the level and
the treatment of stacks are what the rules say along the lineage of the stem: the stem, every
non-empty prefix of it in front of a dot from the longest to the shortest, and the root. -/
theorem resolve_longest_match (settings : Settings) (name : Text) :
    (∀ stem, Name.IsStem levelSuffix name stem ↔ stem = Name.normalize levelSuffix name)
      ∧ LevelOf settings (Name.lineage (Name.normalize levelSuffix name))
          (settings.resolveLevel name)
      ∧ (∀ stem, Name.IsStem stacksSuffix name stem ↔ stem = Name.normalize stacksSuffix name)
      ∧ HidesOf settings (Name.lineage (Name.normalize stacksSuffix name))
          (settings.resolveHidesStacks name) := by
  refine ⟨fun _ => Name.isStem_iff, settings.levelOf_resolveLevel name,
    fun _ => Name.isStem_iff, ?_⟩
  · rw [resolveHidesStacks, Name.walk_eq_findSomeM, List.idRun_findSomeM?]
    exact settings.hidesOf_findSome (Name.lineage (Name.normalize stacksSuffix name))

/-- The value for `a.b` is no level. It leaves a warning, and `a` decides; about stacks `a.b` has
the say, though there is an entry for the root as well. -/
theorem resolve_longest_match_passed_over :
    let settings := ofPairs [("ROOT.LEVEL".toList, "ERROR".toList),
      ("a.LEVEL".toList, "WARN".toList), ("a.b.LEVEL".toList, "loud".toList),
      ("a.b.STACKS".toList, "True".toList), ("ROOT.STACKS".toList, "false".toList)]
    settings.resolveLevel "a.b.c.".toList
        = ⟨.warn, [.unknownLevel "loud".toList "a.b.LEVEL".toList]⟩
      ∧ settings.resolveHidesStacks "a.b.c.".toList = true := by
  intro settings
  obtain ⟨-, hlevel, -, hhides⟩ := resolve_longest_match settings "a.b.c.".toList
  have hpassed : ∀ earlier ∈ ["a.b.c".toList, "a.b".toList], ∀ other,
      ¬ settings.HasLevel earlier other := by
    have hnone : settings.get? ("a.b.c".toList ++ levelSuffix) = none := by decide +kernel
    have hloud : settings.get? ("a.b".toList ++ levelSuffix) = some "loud".toList := by
      decide +kernel
    have hnoname : ∀ other : Level, "loud".toList ≠ other.name := by
      intro other
      cases other <;> decide
    refine List.forall_mem_cons.mpr ⟨fun other => ?_, List.forall_mem_singleton.mpr fun other => ?_⟩
    · rw [HasLevel, hnone]
      nofun
    · rw [HasLevel, hloud]
      exact fun h => hnoname other (Option.some.inj h)
  have hwarn : settings.HasLevel "a".toList .warn := by
    unfold HasLevel
    decide +kernel
  constructor
  · exact hlevel.unique
      (.found ["a.b.c".toList, "a.b".toList] "a".toList [Name.root] .warn rfl hpassed hwarn)
  · exact hhides.unique
      (.found ["a.b.c".toList] "a.b".toList ["a".toList, Name.root] "True".toList rfl
        (by decide +kernel) (by decide +kernel))

end Settings

end Logbook
