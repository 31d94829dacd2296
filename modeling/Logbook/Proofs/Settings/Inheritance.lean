import Logbook.Proofs.Settings.Resolution

/-!
# Logbook — which names inherit from which

A name is below another one if it starts with that name and a dot. A name inherits from another one
if its walk to the root comes by there. The first is a test on characters, the second a series of cuts
at the last dot; they come to the same.

* **`Name.probed`** — the names that a walk asks about if it never gets an answer, kept by the probe
  itself; `probed_eq` says that they are the lineage.
* **`Name.isBelow_iff_mem_probed`** — below means probed on the way, for all names but the root, the
  empty name and those that end in a dot.
* **`Settings.PassesOn`** — the entry of a name decides for another one unless something more specific
  does.
* **`passesOnLevel_iff`**, **`passesOnStacks_iff`** — that is so exactly where the walk of the other
  one comes by.
-/

namespace Logbook

namespace Name

/-! ## The names that are probed -/

/-- A probe that never answers, and keeps the names it was asked about. -/
def keepProbed (name : Text) : StateM (List Text) (Option Unit) :=
  fun seen => (none, seen ++ [name])

/-- The names that a walk probes if no probe answers, in order. -/
def probed (name : Text) : List Text :=
  ((walk keepProbed name).run []).2

theorem findSomeM_keepProbed (names seen : List Text) :
    (names.findSomeM? keepProbed).run seen = (none, seen ++ names) := by
  induction names generalizing seen with
  | nil => rw [List.append_nil]; rfl
  | cons name names ih =>
      rw [List.findSomeM?_cons]
      show (names.findSomeM? keepProbed).run (seen ++ [name]) = _
      rw [ih, List.append_assoc]
      rfl

theorem probed_eq (name : Text) : probed name = lineage name := by
  unfold probed
  rw [walk_eq_findSomeM, findSomeM_keepProbed]
  rfl

theorem mem_lineage_iff {name p : Text} (hroot : p ≠ root) :
    p ∈ lineage name ↔ p ∈ ancestry name := by
  simp [lineage, hroot]

/-! ## Below -/

theorem isBelow_nil_iff {name : Text} : isBelow [] name = true ↔ name ≠ [] := by
  simp [isBelow]

theorem isBelow_iff {parent name : Text} (hparent : parent ≠ [])
    (hdot : parent.getLast? ≠ some '.') :
    isBelow parent name = true ↔ name ≠ parent ∧ parent ++ ['.'] <+: name := by
  simp [isBelow, hparent, hdot]

/-- **Below a name lie those whose walk comes by there**, apart from the name itself. -/
theorem isBelow_iff_mem_probed {parent name : Text} (hparent : parent ≠ [])
    (hdot : parent.getLast? ≠ some '.') (hroot : parent ≠ root) :
    isBelow parent name = true ↔ name ≠ parent ∧ parent ∈ probed name := by
  rw [isBelow_iff hparent hdot, probed_eq, mem_lineage_iff hroot, mem_ancestry_iff]
  constructor
  · rintro ⟨hne, hprefix⟩
    exact ⟨hne, hparent, Or.inr hprefix⟩
  · rintro ⟨hne, -, hsame | hprefix⟩
    · exact absurd hsame.symm hne
    · exact ⟨hne, hprefix⟩

theorem self_mem_probed {name : Text} (hname : name ≠ []) : name ∈ probed name := by
  rw [probed_eq, lineage]
  exact List.mem_append_left _ (mem_ancestry_iff.mpr ⟨hname, Or.inl rfl⟩)

end Name

/-! ## Inheriting -/

namespace Settings

variable {α : Type}

/-- Whatever the settings are: if the entry of the ancestor has something to say, and those of the
longer names that the name is or lies below have nothing, then the ancestor decides for the name. -/
def PassesOn (own : Settings → Text → Option α) (resolve : Settings → Text → α)
    (ancestor name : Text) : Prop :=
  ∀ settings answer, own settings ancestor = some answer →
    (∀ p ∈ Name.ancestry name, ancestor.length < p.length → own settings p = none) →
      resolve settings name = answer

theorem findSome_lineage {name ancestor : Text} {own : Text → Option α} {answer : α}
    (hmem : ancestor ∈ Name.ancestry name) (hown : own ancestor = some answer)
    (hlonger : ∀ p ∈ Name.ancestry name, ancestor.length < p.length → own p = none) :
    (Name.lineage name).findSome? own = some answer := by
  -- the lineage gets shorter on the way, so what stands in front of the ancestor is longer
  obtain ⟨before, after, hsplit⟩ := List.append_of_mem hmem
  have hpairs := Name.pairwise_length_ancestry name
  rw [hsplit, List.pairwise_append] at hpairs
  have hnone : before.findSome? own = none := by
    rw [List.findSome?_eq_none_iff]
    intro p hp
    refine hlonger p ?_ (hpairs.2.2 p hp ancestor List.mem_cons_self)
    rw [hsplit]
    exact List.mem_append_left _ hp
  rw [Name.lineage, hsplit, List.append_assoc, List.findSome?_append, hnone, Option.none_or,
    List.cons_append, List.findSome?_cons_of_isSome (by rw [hown]; rfl), hown]

/-- A query that takes the first answer along the lineage, or else one that no entry need give, passes
on from exactly the names of the lineage. -/
theorem passesOn_iff {own : Settings → Text → Option α} {resolve : Settings → Text → α}
    {ancestor name : Text} {default other : α} (hroot : ancestor ≠ Name.root)
    (hresolve : ∀ settings, resolve settings name
      = ((Name.lineage name).findSome? (own settings)).getD default)
    (halone : ∃ settings, own settings ancestor = some other
      ∧ ∀ p, p ≠ ancestor → own settings p = none)
    (hother : other ≠ default) :
    PassesOn own resolve ancestor name ↔ ancestor ∈ Name.probed name := by
  rw [Name.probed_eq, Name.mem_lineage_iff hroot]
  constructor
  · intro hpasses
    by_contra habsent
    -- an entry for the ancestor alone has no say if the walk does not come by
    obtain ⟨settings, hown, hnone⟩ := halone
    have hlonger : ∀ p ∈ Name.ancestry name, ancestor.length < p.length → own settings p = none := by
      intro p hp _
      exact hnone p fun hsame => habsent (hsame ▸ hp)
    have hnothing : (Name.lineage name).findSome? (own settings) = none := by
      rw [List.findSome?_eq_none_iff]
      intro p hp
      refine hnone p fun hsame => habsent ?_
      rwa [← Name.mem_lineage_iff hroot, ← hsame]
    have hanswer := hpasses settings other hown hlonger
    rw [hresolve, hnothing] at hanswer
    exact hother hanswer.symm
  · intro hmem settings answer hown hlonger
    rw [hresolve, findSome_lineage hmem hown hlonger]
    rfl

/-! ## Levels and stacks -/

/-- The level that the entry for just this name gives, if it gives one. -/
def entryLevel? (settings : Settings) (name : Text) : Option Level :=
  (settings.ownLevel name).value

def levelOf (settings : Settings) (name : Text) : Level :=
  (settings.resolveLevel name).value

theorem value_findSomeM (settings : Settings) (names : List Text) :
    (names.findSomeM? settings.ownLevel).value = names.findSome? settings.entryLevel? := by
  induction names with
  | nil => rfl
  | cons name names ih =>
      rw [List.findSomeM?_cons, List.findSome?_cons, Reported.value_bind, entryLevel?]
      cases (settings.ownLevel name).value with
      | some level => rfl
      | none => exact ih

theorem levelOf_eq (settings : Settings) {name : Text}
    (hname : Name.normalize levelSuffix name = name) :
    settings.levelOf name
      = ((Name.lineage name).findSome? settings.entryLevel?).getD Level.standard := by
  rw [levelOf, resolveLevel_eq, hname, Name.walk_eq_findSomeM, value_findSomeM]

theorem resolveHidesStacks_eq (settings : Settings) {name : Text}
    (hname : Name.normalize stacksSuffix name = name) :
    settings.resolveHidesStacks name
      = ((Name.lineage name).findSome? settings.ownHidesStacks).getD hidesStacksByDefault := by
  rw [resolveHidesStacks, hname, Name.walk_eq_findSomeM, List.idRun_findSomeM?]
  rfl

theorem get?_singleton (key value wanted : Text) :
    (Settings.mk [(key, value)]).get? wanted = if wanted = key then some value else none := by
  unfold get?
  rw [List.lookup_cons]
  by_cases hkey : wanted = key
  · simp [hkey]
  · have hbeq : (wanted == key) = false := beq_eq_false_iff_ne.mpr hkey
    rw [hbeq, if_neg hkey, List.lookup_nil]

/-- **A level is inherited from exactly the names that the walk comes by.** -/
theorem passesOnLevel_iff {ancestor name : Text} (hroot : ancestor ≠ Name.root)
    (hname : Name.normalize levelSuffix name = name) :
    PassesOn entryLevel? levelOf ancestor name ↔ ancestor ∈ Name.probed name := by
  refine passesOn_iff hroot (fun settings => settings.levelOf_eq hname)
    ⟨⟨[(ancestor ++ levelSuffix, Level.error.name)]⟩, ?_, fun p hp => ?_⟩
    (by decide : Level.error ≠ Level.standard)
  · unfold entryLevel? ownLevel
    dsimp only
    rw [get?_singleton, if_pos rfl]
    rfl
  · have hkey : p ++ levelSuffix ≠ ancestor ++ levelSuffix := fun h =>
      hp (List.append_cancel_right h)
    unfold entryLevel? ownLevel
    dsimp only
    rw [get?_singleton, if_neg hkey]
    rfl

/-- **The treatment of stacks is inherited from exactly the names that the walk comes by.** -/
theorem passesOnStacks_iff {ancestor name : Text} (hroot : ancestor ≠ Name.root)
    (hname : Name.normalize stacksSuffix name = name) :
    PassesOn ownHidesStacks resolveHidesStacks ancestor name ↔ ancestor ∈ Name.probed name := by
  refine passesOn_iff hroot (fun settings => settings.resolveHidesStacks_eq hname)
    ⟨⟨[(ancestor ++ stacksSuffix, "true".toList)]⟩, ?_, fun p hp => ?_⟩
    (by decide : true ≠ hidesStacksByDefault)
  · unfold ownHidesStacks
    rw [get?_singleton, if_pos rfl]
    rfl
  · have hkey : p ++ stacksSuffix ≠ ancestor ++ stacksSuffix := fun h =>
      hp (List.append_cancel_right h)
    unfold ownHidesStacks
    rw [get?_singleton, if_neg hkey]
    rfl

end Settings

end Logbook
