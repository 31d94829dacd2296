import Logbook.Proofs.Session.History

/-!
# Logbook — what a new mute does, by name

A mute is made name by name, and each name may add a logger that a later name finds below itself. Seen
from the names, nothing of this shows: the registry is a map from names to loggers, and what becomes of
the logger of a name is told by the registry before and by the set of the names that the mute is made
for.

* **`Registry.named?`** — the map; `named?_obtainAll` says what requests do to it, and `named?_write`
  what writes do.
* **`Mute.Reaches`**, **`Mute.Takes`** — the loggers that a new mute comes by, and those of them that
  it mutes; `Mute.mem_muted_iff_takes` says that it does.
* **`Session.new_mute_by_names`** — the headline: in every registry that a run leads to, the names that
  are listed decide, and neither their order nor how often each is listed.
-/

namespace Logbook

namespace Registry

/-! ## A registry as a map -/

/-- The logger with this name, if there is one. -/
def named? (registry : Registry) (name : Text) : Option Identity :=
  registry.loggers.find? (·.name == name)

theorem named?_eq_bind (registry : Registry) (name : Text) :
    registry.named? name = (registry.find? name).bind registry.identity? :=
  List.find?_eq_bind_findIdx?_getElem?

theorem isSome_named?_iff {registry : Registry} {name : Text} :
    (registry.named? name).isSome ↔ name ∈ registry.loggers.map (·.name) := by
  simp [named?, List.find?_isSome]

/-- In a registry without two loggers of one name, a place and the name of its logger are as good as
each other. -/
theorem IsDistinct.find?_eq_some_iff {registry : Registry} (hdistinct : registry.IsDistinct)
    {name : Text} {place : Handle} :
    registry.find? name = some place
      ↔ ∃ logger, registry.identity? place = some logger ∧ logger.name = name := by
  constructor
  · exact identity?_find?
  · rintro ⟨logger, hlogger, rfl⟩
    have hmem : logger.name ∈ registry.loggers.map (·.name) :=
      List.mem_map_of_mem (List.mem_of_getElem? hlogger)
    rw [← isSome_named?_iff, named?_eq_bind] at hmem
    cases hfound : registry.find? logger.name with
    | none => simp [hfound] at hmem
    | some found => rw [hdistinct.eq_of_find? hlogger hfound]

theorem IsDistinct.named?_eq_some {registry : Registry} (hdistinct : registry.IsDistinct)
    {place : Handle} {logger : Identity} (hlogger : registry.identity? place = some logger) :
    registry.named? logger.name = some logger := by
  rw [named?_eq_bind, hdistinct.find?_eq_some_iff.mpr ⟨logger, hlogger, rfl⟩]
  exact hlogger

/-- The logger that a request for the name answers with: the one that is there, or else what the name
resolves to under the settings in force. -/
def answer (registry : Registry) (name : Text) : Identity :=
  (registry.named? name).getD (Identity.resolve registry.settings name).value

theorem named?_obtain (registry : Registry) (asked name : Text) :
    (registry.obtain asked).value.2.named? name
      = if name = asked then some (registry.answer asked) else registry.named? name := by
  have hresolved : (Identity.resolve registry.settings asked).value.name = asked := rfl
  rcases registry.obtain_cases asked with ⟨place, hfound, hobtain⟩ | ⟨hnew, hobtain⟩
  · obtain ⟨logger, hlogger, -⟩ := identity?_find? hfound
    have hnamed : registry.named? asked = some logger := by
      rw [named?_eq_bind, hfound]
      exact hlogger
    rw [hobtain, Reported.value_pure, answer, hnamed]
    split
    · next hsame =>
      rw [hsame, hnamed]
      rfl
    · rfl
  · have hnone : registry.named? asked = none := by
      rw [named?_eq_bind, hnew]
      rfl
    rw [hobtain, answer, hnone, named?, List.find?_append, ← named?]
    split
    · next hsame =>
      rw [hsame, hnone]
      simp [hresolved]
    · next hother =>
      have hbeq : ((Identity.resolve registry.settings asked).value.name == name) = false :=
        beq_eq_false_iff_ne.mpr (Ne.symm hother)
      simp [hbeq]

theorem named?_eq_ite (registry : Registry) (name : Text) :
    registry.named? name
      = if (registry.named? name).isSome then some (registry.answer name) else none := by
  unfold answer
  cases registry.named? name with
  | none => rfl
  | some logger => rfl

/-- **Requests add the loggers of their names**, and do nothing to those that are there. -/
theorem named?_obtainAll (registry : Registry) (names : List Text) (name : Text) :
    (registry.obtainAll names).value.named? name
      = if name ∈ names ∨ (registry.named? name).isSome then some (registry.answer name)
        else none := by
  induction names generalizing registry with
  | nil => simpa [obtainAll_nil] using registry.named?_eq_ite name
  | cons asked rest ih =>
      have hobtain := registry.named?_obtain asked name
      have hanswer : (registry.obtain asked).value.2.answer name = registry.answer name := by
        rw [answer, hobtain, settings_obtain]
        split
        · next hsame => rw [hsame, Option.getD_some]
        · rfl
      rw [obtainAll_cons, Reported.value_bind, Reported.value_map, ih, hanswer, hobtain]
      by_cases hsame : name = asked
      · simp [hsame]
      · simp [hsame]

theorem named?_write (registry : Registry) (writes : List (Handle × Bool)) (name : Text) :
    (registry.write writes).named? name
      = (registry.find? name).bind fun place =>
          (registry.identity? place).map (·.rewritten (lastWrite writes place)) := by
  rw [named?_eq_bind, find?_write]
  exact Option.bind_congr fun place _ => registry.identity?_write writes place

end Registry

namespace Mute

open Registry

/-! ## The loggers of a new mute -/

/-- A mute over these names comes by the logger of a name: the name is listed, or its logger is there
already and lies below a listed name. -/
def Reaches (registry : Registry) (names : List Text) (name : Text) : Prop :=
  name ∈ names
    ∨ (registry.named? name).isSome ∧ ∃ parent ∈ names, Name.isBelow parent name = true

/-- A mute over these names mutes the logger of a name: it comes by it, and the logger lets no debug
events through and shows stacks. -/
def Takes (registry : Registry) (names : List Text) (name : Text) : Prop :=
  Reaches registry names name
    ∧ (registry.answer name).level.admits .debug = false
    ∧ (registry.answer name).hidesStacks = false

instance (registry : Registry) (names : List Text) (name : Text) :
    Decidable (Reaches registry names name) :=
  inferInstanceAs (Decidable (_ ∨ _))

instance (registry : Registry) (names : List Text) (name : Text) :
    Decidable (Takes registry names name) :=
  inferInstanceAs (Decidable (_ ∧ _))

theorem applies_iff {logger : Identity} :
    applies logger = true ↔ logger.level.admits .debug = false ∧ logger.hidesStacks = false := by
  simp [applies]

theorem concerns_iff {names : List Text} {name : Text} :
    concerns names name = true ↔ name ∈ names ∨ ∃ parent ∈ names, Name.isBelow parent name = true := by
  simp only [concerns, List.any_eq_true, Bool.or_eq_true, beq_iff_eq]
  constructor
  · rintro ⟨parent, hparent, rfl | hbelow⟩
    · exact .inl hparent
    · exact .inr ⟨parent, hparent, hbelow⟩
  · rintro (hlisted | ⟨parent, hparent, hbelow⟩)
    · exact ⟨name, hlisted, .inl rfl⟩
    · exact ⟨parent, hparent, .inr hbelow⟩

variable {registry : Registry} {names : List Text}

/-- **A new mute has muted the loggers that it takes.** -/
theorem mem_muted_iff_takes (hdistinct : registry.IsDistinct) {place : Handle} {logger : Identity}
    (hlogger : (registry.obtainAll names).value.identity? place = some logger) :
    place ∈ (ofNames registry names).value.1.muted ↔ Takes registry names logger.name := by
  have hnamed := (hdistinct.obtainAll names).named?_eq_some hlogger
  rw [named?_obtainAll, Option.ite_none_right_eq_some, Option.some.injEq] at hnamed
  obtain ⟨hthere, hanswer⟩ := hnamed
  rw [(ofNames_covers hdistinct names).2.mem, IsConcerned, TakesPart, hlogger]
  simp only [Option.some.injEq, exists_eq_left', applies_iff, concerns_iff]
  rw [Takes, Reaches, hanswer]
  -- a logger that is not listed was there already
  refine and_congr_left fun _ => or_congr_right' fun hnew => ?_
  rw [and_iff_right (hthere.resolve_left hnew)]

/-! ## The registry of a new mute -/

/-- **What a new mute leaves of the loggers.** Those of the listed names have been added, the ones that
it takes hide stacks, and nothing else is another than before. -/
theorem named?_ofNames (hdistinct : registry.IsDistinct) (name : Text) :
    (ofNames registry names).value.2.named? name
      = if name ∈ names ∨ (registry.named? name).isSome then
          some { registry.answer name with
            hidesStacks :=
              (registry.answer name).hidesStacks || decide (Takes registry names name) }
        else none := by
  have hbase := registry.named?_obtainAll names name
  rw [(ofNames_covers hdistinct names).2.registry, named?_write]
  rw [named?_eq_bind] at hbase
  cases hfound : (registry.obtainAll names).value.find? name with
  | none =>
      rw [hfound] at hbase
      split at hbase
      · cases hbase
      · next habsent => rw [if_neg habsent, Option.bind_none]
  | some place =>
      obtain ⟨logger, hlogger, hname⟩ := identity?_find? hfound
      have hmuted := mem_muted_iff_takes hdistinct hlogger
      rw [hname] at hmuted
      rw [hfound, Option.bind_some, hlogger] at hbase
      split at hbase
      · next hthere =>
        rw [if_pos hthere, Option.bind_some, hlogger, Option.map_some, lastWrite_map,
          Option.some.inj hbase]
        by_cases htakes : Takes registry names name
        · simp [hmuted, htakes, Identity.rewritten]
        · simp [hmuted, htakes, Identity.rewritten]
      · cases hbase

theorem find?_ofNames (hdistinct : registry.IsDistinct) (name : Text) :
    (ofNames registry names).value.2.find? name
      = (registry.obtainAll names).value.find? name := by
  rw [(ofNames_covers hdistinct names).2.registry, find?_write]

theorem isDistinct_ofNames (hdistinct : registry.IsDistinct) (names : List Text) :
    (ofNames registry names).value.2.IsDistinct := by
  rw [(ofNames_covers hdistinct names).2.registry]
  exact (hdistinct.obtainAll names).write _

theorem mem_muted_ofNames_iff (hdistinct : registry.IsDistinct) {place : Handle} :
    place ∈ (ofNames registry names).value.1.muted
      ↔ ∃ name, (ofNames registry names).value.2.find? name = some place
          ∧ Takes registry names name := by
  simp only [find?_ofNames hdistinct]
  constructor
  · intro hmuted
    obtain ⟨-, logger, hlogger, -⟩ := ((ofNames_covers hdistinct names).2.mem place).mp hmuted
    have hfound := (hdistinct.obtainAll names).find?_eq_some_iff.mpr ⟨logger, hlogger, rfl⟩
    exact ⟨logger.name, hfound, (mem_muted_iff_takes hdistinct hlogger).mp hmuted⟩
  · rintro ⟨name, hfound, htakes⟩
    obtain ⟨logger, hlogger, rfl⟩ := identity?_find? hfound
    exact (mem_muted_iff_takes hdistinct hlogger).mpr htakes

/-- The loggers that the mute takes are there when it is made. -/
theorem Takes.exists_place (hdistinct : registry.IsDistinct) {name : Text}
    (h : Takes registry names name) :
    ∃ place logger, (ofNames registry names).value.2.identity? place = some logger
      ∧ logger.name = name := by
  have hthere : name ∈ names ∨ (registry.named? name).isSome := h.1.imp_right And.left
  have hnamed : (ofNames registry names).value.2.named? name = _ := named?_ofNames hdistinct name
  rw [if_pos hthere, named?_eq_bind, Option.bind_eq_some_iff] at hnamed
  obtain ⟨place, hfound, -⟩ := hnamed
  exact ⟨place, identity?_find? hfound⟩

theorem mem_names_ofNames_iff (hdistinct : registry.IsDistinct) {name : Text} :
    name ∈ (ofNames registry names).value.1.names (ofNames registry names).value.2
      ↔ Takes registry names name := by
  have hafter := isDistinct_ofNames hdistinct names
  rw [Mute.names, (List.mergeSort_perm _ _).mem_iff]
  simp only [List.mem_map, List.mem_filterMap, mem_muted_ofNames_iff hdistinct,
    hafter.find?_eq_some_iff]
  constructor
  · rintro ⟨logger, ⟨place, ⟨other, ⟨found, hfound, rfl⟩, htakes⟩, hlogger⟩, rfl⟩
    obtain rfl := Option.some.inj (hfound.symm.trans hlogger)
    exact htakes
  · intro htakes
    obtain ⟨place, logger, hlogger, rfl⟩ := htakes.exists_place hdistinct
    exact ⟨logger, ⟨place, ⟨logger.name, ⟨logger, hlogger, rfl⟩, htakes⟩, hlogger⟩, rfl⟩

theorem nodup_names_ofNames (hdistinct : registry.IsDistinct) (names : List Text) :
    ((ofNames registry names).value.1.muted.filterMap
      fun place => ((ofNames registry names).value.2.identity? place).map (·.name)).Nodup := by
  have hafter := isDistinct_ofNames hdistinct names
  refine List.Nodup.filterMap ?_ (ofNames_covers hdistinct names).2.nodup
  intro place other name hplace hother
  rw [Option.mem_def, Option.map_eq_some_iff] at hplace hother
  exact Option.some.inj ((hafter.find?_eq_some_iff.mpr hplace).symm.trans
    (hafter.find?_eq_some_iff.mpr hother))

/-! ## The order of the names -/

variable {others : List Text}

theorem takes_congr (hsame : ∀ name, name ∈ others ↔ name ∈ names) (name : Text) :
    Takes registry others name ↔ Takes registry names name := by
  simp only [Takes, Reaches, hsame]

theorem named?_ofNames_congr (hdistinct : registry.IsDistinct)
    (hsame : ∀ name, name ∈ others ↔ name ∈ names) (name : Text) :
    (ofNames registry others).value.2.named? name
      = (ofNames registry names).value.2.named? name := by
  rw [named?_ofNames hdistinct, named?_ofNames hdistinct]
  simp only [hsame, takes_congr hsame]

theorem registryNames_ofNames_congr (hdistinct : registry.IsDistinct)
    (hsame : ∀ name, name ∈ others ↔ name ∈ names) :
    (ofNames registry others).value.2.names = (ofNames registry names).value.2.names := by
  refine Text.mergeSort_congr ((List.perm_ext_iff_of_nodup (isDistinct_ofNames hdistinct others)
    (isDistinct_ofNames hdistinct names)).mpr fun name => ?_)
  rw [← isSome_named?_iff, ← isSome_named?_iff, named?_ofNames_congr hdistinct hsame]

theorem names_ofNames_congr (hdistinct : registry.IsDistinct)
    (hsame : ∀ name, name ∈ others ↔ name ∈ names) :
    (ofNames registry others).value.1.names (ofNames registry others).value.2
      = (ofNames registry names).value.1.names (ofNames registry names).value.2 := by
  have hmem : ∀ name, name ∈ (ofNames registry others).value.1.names
      (ofNames registry others).value.2
        ↔ name ∈ (ofNames registry names).value.1.names (ofNames registry names).value.2 := by
    intro name
    rw [mem_names_ofNames_iff hdistinct, mem_names_ofNames_iff hdistinct, takes_congr hsame]
  unfold Mute.names at hmem ⊢
  rw [List.map_filterMap, List.map_filterMap] at hmem ⊢
  simp only [(List.mergeSort_perm _ _).mem_iff] at hmem
  exact Text.mergeSort_congr ((List.perm_ext_iff_of_nodup (nodup_names_ofNames hdistinct others)
    (nodup_names_ofNames hdistinct names)).mpr hmem)

theorem settings_ofNames (hdistinct : registry.IsDistinct) (names : List Text) :
    (ofNames registry names).value.2.settings = registry.settings := by
  rw [(ofNames_covers hdistinct names).2.registry, settings_write, settings_obtainAll]

end Mute

namespace Session

/-- **A new mute by the names that are listed.** In any registry that a run leads to, a mute over some
names leaves this: each listed name has a logger, which was there or is what the name resolves to under
the settings in force; no other name has got one, and none has moved. The mute holds, each once, the
loggers that are listed or that were there already and lie below a listed name, without those that let
debug events through and those that hide stacks anyway. These hide stacks now, and every other logger
is as it was. So for the same names in another order, or with some of them repeated, the loggers, the
flags and the names of those that are muted are the same. -/
theorem new_mute_by_names {α : Type} [CivilTime] [Appender α] (settings : Settings)
    (layout : Layout) (appender : α) (operations : List Operation) (names : List Text) :
    let registry := ((Session.new (Backend.new settings layout appender)).run operations).value.registry
    let made := Mute.ofNames registry names
    let mute := made.value.1
    let after := made.value.2
    (∀ name, after.named? name
        = if name ∈ names ∨ (registry.named? name).isSome then
            some { registry.answer name with
              hidesStacks :=
                (registry.answer name).hidesStacks || decide (Mute.Takes registry names name) }
          else none)
      ∧ made.notices = (registry.obtainAll names).notices
      ∧ after.settings = registry.settings
      ∧ (∀ name place, registry.find? name = some place → after.find? name = some place)
      ∧ mute.muted.Nodup
      ∧ (∀ place, place ∈ mute.muted
          ↔ ∃ name, after.find? name = some place ∧ Mute.Takes registry names name)
      ∧ ∀ others, (∀ name, name ∈ others ↔ name ∈ names) →
          let other := (Mute.ofNames registry others).value
          (∀ name, other.2.named? name = after.named? name)
            ∧ other.2.names = after.names
            ∧ other.1.names other.2 = mute.names after := by
  intro registry made mute after
  have hdistinct : registry.IsDistinct :=
    (run_recorded (recorded_new settings layout appender) operations).1.isDistinct
  obtain ⟨hnotices, hcovers⟩ := Mute.ofNames_covers hdistinct names
  refine ⟨Mute.named?_ofNames hdistinct, hnotices, Mute.settings_ofNames hdistinct names, ?_,
    hcovers.nodup, fun place => Mute.mem_muted_ofNames_iff hdistinct, fun others hsame =>
      ⟨Mute.named?_ofNames_congr hdistinct hsame,
        Mute.registryNames_ofNames_congr hdistinct hsame,
        Mute.names_ofNames_congr hdistinct hsame⟩⟩
  intro name place hfound
  obtain ⟨logger, hlogger, rfl⟩ := Registry.identity?_find? hfound
  obtain ⟨later, hlater, hsettled⟩ := (Mute.meets_ofNames registry names).value.identity? hlogger
  have hname := congrArg Identity.name hsettled
  exact (Mute.isDistinct_ofNames hdistinct names).find?_eq_some_iff.mpr ⟨later, hlater, hname⟩

/-- A logger far below the names of the mute, one that hides stacks anyway, and one beside. -/
def family : List Operation :=
  [.obtain "a.b.c".toList, .obtain "a.q".toList, .setHidesStacks 1 true, .obtain "x".toList]

/-- The loggers of the family. -/
def familyRegistry : Registry :=
  ((Session.new (Backend.new Settings.empty {} Memory.empty)).run family).value.registry

/-- Names that lie below each other, one of them twice: a logger that was there stays at its place, and
the names that are muted are those of the shorter list. -/
theorem new_mute_by_names_nested :
    familyRegistry.find? "a.b.c".toList = some 0
      ∧ (Mute.ofNames familyRegistry ["a.b".toList, "a".toList, "a.b".toList]).value.2.find?
          "a.b.c".toList = some 0
      ∧ (Mute.ofNames familyRegistry ["a.b".toList, "a".toList, "a.b".toList]).value.1.muted
          = [3, 0, 4]
      ∧ (Mute.ofNames familyRegistry ["a".toList, "a.b".toList]).value.2.names
          = (Mute.ofNames familyRegistry ["a.b".toList, "a".toList, "a.b".toList]).value.2.names := by
  have hsame : ∀ name : Text, name ∈ ["a".toList, "a.b".toList]
      ↔ name ∈ ["a.b".toList, "a".toList, "a.b".toList] := by
    intro name
    simp only [List.mem_cons, List.not_mem_nil, or_false]
    tauto
  have hfound : familyRegistry.find? "a.b.c".toList = some 0 := by decide +kernel
  obtain ⟨-, -, -, hstays, -, -, horder⟩ :=
    new_mute_by_names Settings.empty {} Memory.empty family
      ["a.b".toList, "a".toList, "a.b".toList]
  refine ⟨hfound, hstays _ _ hfound, ?_, (horder _ hsame).2.1⟩
  decide +kernel

end Session

end Logbook
