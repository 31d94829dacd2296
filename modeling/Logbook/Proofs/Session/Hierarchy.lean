import Logbook.Proofs.Session.History
import Logbook.Proofs.Settings.Inheritance

/-!
# Logbook — muting goes where the settings go

The loggers below a name are found by looking at how their names begin, and a mute relies on it. The
settings are found by cutting names at their dots. Both go by the same tree of names.

* **`Registry.Visits`** — which loggers a visit comes by, whatever the visitor does.
* **`Registry.mem_descendants_iff_probed`** — it comes by those whose walk probes the name.
* **`Registry.mem_muted_iff_probed`** — so does a mute over the name, which takes in the logger of the
  name as well.
* **`Session.muting_follows_resolution`** — the headline: at every point of a run, a mute reaches the
  loggers that inherit from the name.
-/

namespace Logbook

namespace Registry

/-! ## Visits -/

/-- A visit below the parent takes these loggers to the visitor, in this order, whatever the visitor
does with them and with the registry. -/
def Visits (registry : Registry) (parent : Text) (visited : List Handle) : Prop :=
  ∀ visitor : Handle → Registry → Reported Registry,
    registry.visitDescendants parent visitor
      = visited.foldlM (fun now place => visitor place now) registry

theorem visits_descendants (registry : Registry) (parent : Text) :
    registry.Visits parent (registry.descendants parent) :=
  fun _ => rfl

theorem nodup_descendants (registry : Registry) (parent : Text) :
    (registry.descendants parent).Nodup :=
  List.nodup_range.filter _

/-- **Below a name are the loggers whose walk probes it**, and below the empty name all that have
one. -/
theorem mem_descendants_iff_probed (registry : Registry) {parent : Text}
    (hdot : parent.getLast? ≠ some '.') (hroot : parent ≠ Name.root) (place : Handle) :
    place ∈ registry.descendants parent
      ↔ ∃ logger, registry.identity? place = some logger ∧ logger.name ≠ parent
          ∧ (parent = [] ∨ parent ∈ Name.probed logger.name) := by
  rw [mem_descendants_iff]
  refine exists_congr fun logger => and_congr_right fun _ => ?_
  rcases eq_or_ne parent [] with rfl | hparent
  · simpa using Name.isBelow_nil_iff
  · simpa [hparent] using Name.isBelow_iff_mem_probed hparent hdot hroot

/-! ## A mute over one name -/

theorem concerns_iff_probed {parent name : Text} (hparent : parent ≠ [])
    (hdot : parent.getLast? ≠ some '.') (hroot : parent ≠ Name.root) :
    Mute.concerns [parent] name = true ↔ parent ∈ Name.probed name := by
  rw [Mute.concerns_singleton, Bool.or_eq_true, beq_iff_eq,
    Name.isBelow_iff_mem_probed hparent hdot hroot]
  constructor
  · rintro (rfl | ⟨-, hprobed⟩)
    · exact Name.self_mem_probed hparent
    · exact hprobed
  · intro hprobed
    by_cases hsame : name = parent
    · exact Or.inl hsame
    · exact Or.inr ⟨hsame, hprobed⟩

/-- **A mute over a name holds the loggers whose walk probes the name**, as far as they take part. The
logger of the name itself may be new; the mute makes it first. -/
theorem mem_muted_iff_probed {registry : Registry} (hdistinct : registry.IsDistinct) {parent : Text}
    (hparent : parent ≠ []) (hdot : parent.getLast? ≠ some '.') (hroot : parent ≠ Name.root)
    {place : Handle} {logger : Identity}
    (hlogger : (registry.obtain parent).value.2.identity? place = some logger) :
    place ∈ (Mute.ofNames registry [parent]).value.1.muted
      ↔ Mute.applies logger = true ∧ parent ∈ Name.probed logger.name := by
  have hgrown : (registry.obtainAll [parent]).value = (registry.obtain parent).value.2 := rfl
  have hcovers := (Mute.ofNames_covers hdistinct [parent]).2
  rw [hcovers.mem, hgrown, IsConcerned, TakesPart, hlogger]
  simp only [Option.some.injEq, exists_eq_left']
  rw [concerns_iff_probed hparent hdot hroot, and_comm]

end Registry

namespace Session

/-! ## At every point of a run -/

/-- **Muting follows resolution.** Take a name that does not end in a dot and is not the root name. At
any point of a run, a visit below it comes by no logger twice, and just by those of another name whose
walk to the root probes it; below the empty name, by all of another name. A mute over the name, if it
is not empty, holds just those loggers that take part in muting and whose walk probes the name. If
normalising leaves their own name as it is, these are the ones that inherit the level of the name
whenever nothing more specific is said, and likewise its treatment of stacks. -/
theorem muting_follows_resolution {α : Type} [CivilTime] [Appender α] (settings : Settings)
    (layout : Layout) (appender : α) (operations : List Operation) (parent : Text)
    (hdot : parent.getLast? ≠ some '.') (hroot : parent ≠ Name.root) :
    let now := ((Session.new (Backend.new settings layout appender)).run operations).value
    let mute := (now.backend.mute [parent]).value.1
    (∃ visited, now.registry.Visits parent visited ∧ visited.Nodup
      ∧ ∀ place, place ∈ visited
          ↔ ∃ logger, now.registry.identity? place = some logger ∧ logger.name ≠ parent
              ∧ (parent = [] ∨ parent ∈ Name.probed logger.name))
      ∧ (parent ≠ [] → ∀ place logger,
          (now.registry.obtain parent).value.2.identity? place = some logger →
            (place ∈ mute.muted ↔ Mute.applies logger = true ∧ parent ∈ Name.probed logger.name)
              ∧ (Name.normalize Settings.levelSuffix logger.name = logger.name →
                (place ∈ mute.muted ↔ Mute.applies logger = true
                  ∧ Settings.PassesOn Settings.entryLevel? Settings.levelOf parent logger.name))
              ∧ (Name.normalize Settings.stacksSuffix logger.name = logger.name →
                (place ∈ mute.muted ↔ Mute.applies logger = true
                  ∧ Settings.PassesOn Settings.ownHidesStacks Settings.resolveHidesStacks parent
                      logger.name))) := by
  intro now mute
  have hdistinct : now.registry.IsDistinct :=
    (run_recorded (recorded_new settings layout appender) operations).1.isDistinct
  refine ⟨⟨now.registry.descendants parent, now.registry.visits_descendants parent,
    now.registry.nodup_descendants parent,
    now.registry.mem_descendants_iff_probed hdot hroot⟩, ?_⟩
  intro hparent place logger hlogger
  have hmuted := Registry.mem_muted_iff_probed hdistinct hparent hdot hroot hlogger
  refine ⟨hmuted, fun hname => hmuted.trans ?_, fun hname => hmuted.trans ?_⟩
  · rw [Settings.passesOnLevel_iff hroot hname]
  · rw [Settings.passesOnStacks_iff hroot hname]

/-- A logger below a name, behind an empty segment, and one with a name that only begins alike. -/
def alike : List Operation :=
  [.obtain "a.b..d".toList, .obtain "a.bc".toList]

theorem muting_follows_resolution_alike :
    let parent : Text := "a.b".toList
    let now := ((Session.new (Backend.new Settings.empty {} Memory.empty)).run alike).value
    (parent.getLast? ≠ some '.' ∧ parent ≠ Name.root ∧ parent ≠ [])
      ∧ (∃ visited, now.registry.Visits parent visited ∧ 0 ∈ visited ∧ 1 ∉ visited)
      ∧ Settings.PassesOn Settings.entryLevel? Settings.levelOf parent "a.b..d".toList
      ∧ ¬ Settings.PassesOn Settings.ownHidesStacks Settings.resolveHidesStacks parent
          "a.bc".toList := by
  intro parent now
  have hparent : parent.getLast? ≠ some '.' ∧ parent ≠ Name.root ∧ parent ≠ [] := by decide
  obtain ⟨⟨visited, hvisits, -, hvisited⟩, hmuted⟩ :=
    muting_follows_resolution Settings.empty {} Memory.empty alike parent hparent.1 hparent.2.1
  have hbelow : now.registry.identity? 0 = some (Identity.new "a.b..d".toList .info false) := by
    decide +kernel
  have hbeside : now.registry.identity? 1 = some (Identity.new "a.bc".toList .info false) := by
    decide +kernel
  have hreached := hmuted hparent.2.2 0 (Identity.new "a.b..d".toList .info false) (by decide +kernel)
  have hspared := hmuted hparent.2.2 1 (Identity.new "a.bc".toList .info false) (by decide +kernel)
  have hheld := hreached.1.mp (by decide +kernel)
  refine ⟨hparent, ⟨visited, hvisits, ?_, ?_⟩, ?_, ?_⟩
  · exact (hvisited 0).mpr ⟨_, hbelow, by decide, Or.inr hheld.2⟩
  · intro hvisited1
    obtain ⟨logger, hlogger, -, hempty | hprobed⟩ := (hvisited 1).mp hvisited1
    · exact hparent.2.2 hempty
    · rw [hbeside, Option.some.injEq] at hlogger
      subst hlogger
      exact absurd (hspared.1.mpr ⟨rfl, hprobed⟩) (by decide +kernel)
  · exact ((hreached.2.1 (by decide)).mp (by decide +kernel)).2
  · intro hpasses
    exact absurd ((hspared.2.2 (by decide)).mpr ⟨rfl, hpasses⟩) (by decide +kernel)

end Session

end Logbook
