import Logbook.Proofs.Settings.Inheritance

/-!
# Logbook — the spellings of a query

A query may be asked for a name, for the name with dots behind it, or for the key of its entry.
These come to the same, because normalization leads back to the name: it drops the dots at the end
first, and then one suffix. It looks at the end only and at the suffix of its own query only, so any
other name is walked as it is.

* **`Name.normalize_dots`**, **`Name.normalize_key`**, **`Name.normalize_name`** — what becomes of
  the three spellings.
* **`Settings.resolveLevel_congr`**, **`Settings.resolveHidesStacks_congr`** — a query depends on
  the normalized name alone.
* **`Settings.spellings_resolve_alike`** — the headline.
-/

namespace Logbook

namespace Name

variable {suffix name : Text}

theorem normalize_dots (suffix name : Text) (dots : Nat) :
    normalize suffix (name ++ List.replicate dots '.') = normalize suffix name := by
  unfold normalize
  rw [Text.dropTrailing_append_replicate]

/-- A name that has its suffix behind it comes out as it is, whatever it ends in. -/
theorem normalize_key (hsuffix : suffix ≠ []) (hdot : suffix.getLast? ≠ some '.') (name : Text)
    (dots : Nat) : normalize suffix (name ++ suffix ++ List.replicate dots '.') = name := by
  have hlast : (name ++ suffix).getLast? ≠ some '.' := by
    rw [List.getLast?_append_of_ne_nil name hsuffix]
    exact hdot
  exact (isStem_iff.mp ⟨name ++ suffix, dots, rfl, hlast, Or.inl rfl⟩).symm

/-- So does a name without a dot or the suffix at its end, whatever it has elsewhere. -/
theorem normalize_name (hdot : name.getLast? ≠ some '.') (hsuffix : ¬ suffix <:+ name) :
    normalize suffix name = name := by
  have hname : name = name ++ List.replicate 0 '.' := (List.append_nil name).symm
  exact (isStem_iff.mp ⟨name, 0, hname, hdot, Or.inr ⟨rfl, hsuffix⟩⟩).symm

end Name

namespace Settings

variable {settings : Settings} {name other : Text}

theorem resolveLevel_congr
    (h : Name.normalize levelSuffix name = Name.normalize levelSuffix other) :
    settings.resolveLevel name = settings.resolveLevel other := by
  unfold resolveLevel
  rw [h]

theorem resolveHidesStacks_congr
    (h : Name.normalize stacksSuffix name = Name.normalize stacksSuffix other) :
    settings.resolveHidesStacks name = settings.resolveHidesStacks other := by
  unfold resolveHidesStacks
  rw [h]

/-- **The spellings of a query resolve alike.** Dots behind a name change neither the level nor the
notices nor the treatment of stacks. A name that ends neither in a dot nor in the suffix of the
query resolves as the key of its entry does, with or without dots behind that, and what decides is
its own lineage: whatever it has of the suffixes elsewhere, or of the other one at its end, is part
of the name. -/
theorem spellings_resolve_alike (settings : Settings) (name : Text) (dots : Nat) :
    let dotted := fun spelling : Text => spelling ++ List.replicate dots '.'
    settings.resolveLevel (dotted name) = settings.resolveLevel name
      ∧ settings.resolveHidesStacks (dotted name) = settings.resolveHidesStacks name
      ∧ (name.getLast? ≠ some '.' → ¬ levelSuffix <:+ name →
          settings.resolveLevel (dotted (name ++ levelSuffix)) = settings.resolveLevel name
            ∧ LevelOf settings (Name.lineage name) (settings.resolveLevel name))
      ∧ (name.getLast? ≠ some '.' → ¬ stacksSuffix <:+ name →
          settings.resolveHidesStacks (dotted (name ++ stacksSuffix))
              = settings.resolveHidesStacks name
            ∧ HidesOf settings (Name.lineage name) (settings.resolveHidesStacks name)) := by
  intro dotted
  refine ⟨resolveLevel_congr (Name.normalize_dots levelSuffix name dots),
    resolveHidesStacks_congr (Name.normalize_dots stacksSuffix name dots), ?_, ?_⟩
  · intro hdot hsuffix
    have hname := Name.normalize_name hdot hsuffix
    have hkey : Name.normalize levelSuffix (dotted (name ++ levelSuffix)) = name :=
      Name.normalize_key (by decide) (by decide) name dots
    have hlevel := settings.levelOf_resolveLevel name
    rw [hname] at hlevel
    exact ⟨resolveLevel_congr (hkey.trans hname.symm), hlevel⟩
  · intro hdot hsuffix
    have hname := Name.normalize_name hdot hsuffix
    have hkey : Name.normalize stacksSuffix (dotted (name ++ stacksSuffix)) = name :=
      Name.normalize_key (by decide) (by decide) name dots
    have hhides := settings.hidesOf_findSome (Name.lineage name)
    rw [← settings.resolveHidesStacks_eq hname] at hhides
    exact ⟨resolveHidesStacks_congr (hkey.trans hname.symm), hhides⟩

/-- A name with both suffixes inside: for either query its key, with dots behind, resolves as the
name does, and the walk cuts at the dots of the suffixes as at any other. -/
theorem spellings_resolve_alike_suffixed :
    let settings : Settings := ⟨[("a.STACKS.b.LEVEL.c.LEVEL".toList, "warn".toList),
      ("a.STACKS.LEVEL".toList, "DEBUG".toList), ("a.STACKS.b.STACKS".toList, "True".toList)]⟩
    let name := "a.STACKS.b.LEVEL.c".toList
    settings.resolveLevel "a.STACKS.b.LEVEL.c.LEVEL..".toList = settings.resolveLevel name
      ∧ LevelOf settings (Name.lineage name) (settings.resolveLevel name)
      ∧ settings.resolveHidesStacks "a.STACKS.b.LEVEL.c.STACKS..".toList
          = settings.resolveHidesStacks name
      ∧ HidesOf settings (Name.lineage name) (settings.resolveHidesStacks name) := by
  intro settings name
  obtain ⟨-, -, hlevel, hhides⟩ := spellings_resolve_alike settings name 2
  obtain ⟨hkey, hrule⟩ := hlevel (by decide) (by decide)
  obtain ⟨hkey', hrule'⟩ := hhides (by decide) (by decide)
  exact ⟨hkey, hrule, hkey', hrule'⟩

end Settings

end Logbook
