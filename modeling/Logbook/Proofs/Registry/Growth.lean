import Logbook.Mute
import Logbook.Proofs.Settings.Resolution

/-!
# Logbook — a registry only grows

Nothing that is done to a registry takes a logger away, moves it, or changes its name or its level.
What may change is whether a logger hides stacks, and loggers may be added at the end.

* **`Reported.Meets`** — a postcondition, with warnings as the only notices.
* **`Identity.settled`** — what of a logger is for good.
* **`Registry.Grows`** — the relation between an earlier and a later registry, with one lemma for
  each operation.
-/

namespace Logbook

/-! ## Postconditions -/

/-- The value has the property, and the notices left on the way to it are warnings. -/
structure Reported.Meets {α : Type} (x : Reported α) (p : α → Prop) : Prop where
  value : p x.value
  notices : ∀ notice ∈ x.notices, notice.gravity = .warning

namespace Reported

variable {α β : Type} {p : α → Prop} {q : β → Prop}

theorem meets_pure {a : α} (h : p a) : (pure a : Reported α).Meets p :=
  ⟨h, nofun⟩

theorem Meets.bind {x : Reported α} {f : α → Reported β} (hx : x.Meets p)
    (hf : ∀ a, p a → (f a).Meets q) : (x >>= f).Meets q := by
  have hnext := hf x.value hx.value
  exact ⟨hnext.value, List.forall_mem_append.mpr ⟨hx.notices, hnext.notices⟩⟩

/-- A property that every step keeps is kept by all of them. -/
theorem meets_foldlM {f : α → β → Reported α} (hf : ∀ a b, p a → (f a b).Meets p) (items : List β)
    {a : α} (ha : p a) : (items.foldlM f a).Meets p := by
  induction items generalizing a with
  | nil => exact meets_pure ha
  | cons b items ih =>
      rw [List.foldlM_cons]
      exact (hf a b ha).bind fun next hnext => ih hnext

end Reported

/-! ## What is for good -/

/-- The logger without its treatment of stacks. -/
def Identity.settled (identity : Identity) : Identity :=
  { identity with hidesStacks := false }

namespace Registry

/-- The later registry has every logger of the earlier one, at its place and with what is for good
unchanged. -/
def Grows (before after : Registry) : Prop :=
  before.loggers.map Identity.settled <+: after.loggers.map Identity.settled

theorem Grows.refl (registry : Registry) : registry.Grows registry :=
  List.prefix_rfl

theorem Grows.trans {a b c : Registry} (hab : a.Grows b) (hbc : b.Grows c) : a.Grows c :=
  List.IsPrefix.trans hab hbc

/-- A logger stays at its place, with its name and its level. -/
theorem Grows.identity? {before after : Registry} (h : before.Grows after) {handle : Handle}
    {logger : Identity} (hlogger : before.identity? handle = some logger) :
    ∃ later, after.identity? handle = some later ∧ later.settled = logger.settled := by
  -- looked up among what is for good, where the earlier list begins the later one
  have hsettled : (before.loggers.map Identity.settled)[handle]? = some logger.settled := by
    rw [List.getElem?_map, ← Registry.identity?, hlogger, Option.map_some]
  obtain ⟨rest, hrest⟩ := h
  have hafter : (after.loggers.map Identity.settled)[handle]? = some logger.settled := by
    rw [← hrest, List.getElem?_append_left (List.getElem?_eq_some_iff.mp hsettled).1]
    exact hsettled
  rw [List.getElem?_map] at hafter
  exact Option.map_eq_some_iff.mp hafter

/-! ## The operations -/

theorem grows_replaceSettings (registry : Registry) (settings : Settings) :
    registry.Grows (registry.replaceSettings settings) :=
  Grows.refl registry

theorem settled_setHidesStacks (registry : Registry) (handle : Handle) (hides : Bool) :
    (registry.setHidesStacks handle hides).loggers.map Identity.settled
      = registry.loggers.map Identity.settled := by
  -- place by place: only the flag at `handle` may be another one, and the flag is left out
  refine List.ext_getElem? fun place => ?_
  rw [List.getElem?_map, List.getElem?_map, setHidesStacks, List.getElem?_modify]
  cases registry.loggers[place]? with
  | none => rfl
  | some logger =>
      by_cases hplace : handle = place
      · simp [hplace, Identity.settled]
      · simp [hplace]

theorem grows_setHidesStacks (registry : Registry) (handle : Handle) (hides : Bool) :
    registry.Grows (registry.setHidesStacks handle hides) := by
  rw [Grows, settled_setHidesStacks]

theorem meets_obtain (registry : Registry) (name : Text) :
    (registry.obtain name).Meets fun obtained => registry.Grows obtained.2 := by
  unfold obtain
  cases registry.find? name with
  | some handle => exact Reported.meets_pure (Grows.refl registry)
  | none =>
      have hlevel : (registry.settings.resolveLevel name).Meets fun _ => True :=
        ⟨trivial, (registry.settings.levelOf_resolveLevel name).gravity_eq⟩
      have hresolve : (Identity.resolve registry.settings name).Meets fun _ => True :=
        hlevel.bind fun _ _ => Reported.meets_pure trivial
      refine hresolve.bind fun identity _ => Reported.meets_pure ?_
      rw [Grows, List.map_append]
      exact List.prefix_append _ _

/-- A visit grows the registry if the visitor does. -/
theorem meets_visitDescendants {visitor : Handle → Registry → Reported Registry}
    (hvisitor : ∀ handle registry, (visitor handle registry).Meets registry.Grows)
    (registry : Registry) (parent : Text) :
    (registry.visitDescendants parent visitor).Meets registry.Grows := by
  refine Reported.meets_foldlM (fun now handle hnow => ?_) _ (Grows.refl registry)
  obtain ⟨hgrows, hnotices⟩ := hvisitor handle now
  exact ⟨hnow.trans hgrows, hnotices⟩

end Registry

namespace Mute

open Registry

theorem grows_add (mute : Mute) (registry : Registry) (handle : Handle) :
    registry.Grows (mute.add registry handle).2 := by
  unfold add
  split
  · exact grows_setHidesStacks registry handle true
  · exact Grows.refl registry

theorem grows_addAll (mute : Mute) (registry : Registry) (handles : List Handle) :
    registry.Grows (mute.addAll registry handles).2 := by
  unfold addAll
  -- the mute collects loggers on the way, so it has to stay free along with the registry
  induction handles generalizing mute registry with
  | nil => exact Grows.refl registry
  | cons handle rest ih => exact (grows_add mute registry handle).trans (ih _ _)

theorem meets_addTree (mute : Mute) (registry : Registry) (name : Text) :
    (mute.addTree registry name).Meets fun state => registry.Grows state.2 := by
  refine (meets_obtain registry name).bind fun obtained hobtained => Reported.meets_pure ?_
  exact hobtained.trans ((grows_add mute obtained.2 obtained.1).trans (grows_addAll _ _ _))

theorem meets_ofNames (registry : Registry) (names : List Text) :
    (Mute.ofNames registry names).Meets fun state => registry.Grows state.2 := by
  refine Reported.meets_foldlM (fun state name hstate => ?_) names (Grows.refl registry)
  obtain ⟨hgrows, hnotices⟩ := meets_addTree state.1 state.2 name
  exact ⟨hstate.trans hgrows, hnotices⟩

theorem grows_drop (mute : Mute) (registry : Registry) : registry.Grows (mute.drop registry) := by
  unfold drop
  induction mute.muted generalizing registry with
  | nil => exact Grows.refl registry
  | cons handle rest ih => exact (grows_setHidesStacks registry handle false).trans (ih _)

end Mute

end Logbook
