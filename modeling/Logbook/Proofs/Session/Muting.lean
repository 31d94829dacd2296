import Logbook.Proofs.Session.History
import Mathlib.Data.List.Perm.Basic

/-!
# Logbook — mutes own what they mute

Dropping a mute shows the stacks of the loggers it muted, and asks nobody. This is right because no
two live mutes have muted the same logger, as long as nobody else writes flags. So a logger hides
stacks for one of two reasons only: it was made so, or it belongs to one live mute.

* **`Session.Owns`** — the invariant, kept by `perform_owns` and `run_owns`.
* **`Session.mutes_own_what_they_mute`** — what it means for the loggers at any point of a run.
* **`Session.mute_hides_until_owner_dropped`** — how long a mute hides what it covers; and
  `live_mute_shows_stacks`, where it does not.
-/

namespace Logbook

/-- Whether an operation writes a flag by itself, and not through a mute. -/
def Operation.isDirect : Operation → Bool
  | .setHidesStacks _ _ => true
  | .obtain _ => false
  | .visit _ _ => false
  | .replaceSettings _ => false
  | .mute _ _ => false
  | .unmute _ => false
  | .log _ _ => false
  | .emit _ _ => false

/-- The label that an operation takes away from the mute that has it. -/
def Operation.freed? : Operation → Option Text
  | .mute label _ => some label
  | .unmute label => some label
  | .obtain _ => none
  | .visit _ _ => none
  | .replaceSettings _ => none
  | .setHidesStacks _ _ => none
  | .log _ _ => none
  | .emit _ _ => none

namespace Registry

/-- A logger that takes part in muting shows stacks, so a shown one is as it was. -/
theorem TakesPart.rewritten_eq {registry : Registry} {place : Handle}
    (hpart : registry.TakesPart place) :
    (registry.identity? place).map (·.rewritten (some false)) = registry.identity? place := by
  obtain ⟨logger, hlogger, happlies⟩ := hpart
  have hshown : logger.hidesStacks = false := by
    simp only [Mute.applies, Bool.and_eq_true, Bool.not_eq_true'] at happlies
    exact happlies.2
  rw [hlogger, Option.map_some, Identity.rewritten, Option.getD_some, ← hshown]

/-- Muting some loggers and then showing part of them again comes to muting the others. -/
theorem write_hidden_shown {registry : Registry} {hidden shown rest : List Handle}
    (hperm : hidden.Perm (shown ++ rest)) (hnodup : hidden.Nodup)
    (hpart : ∀ place ∈ hidden, registry.TakesPart place) :
    (registry.write (hidden.map (·, true))).write (shown.map (·, false))
      = registry.write (rest.map (·, true)) := by
  rw [← write_append]
  refine ext_identity? (by rw [settings_write, settings_write]) fun place => ?_
  rw [identity?_write, identity?_write, lastWrite_append, lastWrite_map, lastWrite_map,
    lastWrite_map]
  have hmem : place ∈ hidden ↔ place ∈ shown ∨ place ∈ rest := by
    rw [hperm.mem_iff, List.mem_append]
  by_cases hshown : place ∈ shown
  · -- shown again, and not muted by anyone else
    have hfree : place ∉ rest :=
      (List.disjoint_of_nodup_append (hperm.nodup_iff.mp hnodup)) hshown
    have hback := (hpart place (hmem.mpr (.inl hshown))).rewritten_eq
    simpa [hshown, hfree, Identity.rewritten_none] using hback
  · simp [hshown, hmem]

end Registry

namespace Session

variable {α : Type}

/-! ## The live mutes -/

/-- What the live mutes hold is what the mute of one label holds, and what the others hold. -/
theorem perm_muted {session : Session α} (hlabels : (session.mutes.map (·.1)).Nodup) (label : Text) :
    session.muted.Perm (session.mutedUnder label ++ (session.unmute label).2.muted) := by
  rw [muted, muted, mutes_unmute, mutedUnder]
  cases hmute : session.mutes.lookup label with
  | none =>
      rw [List.lookup_eq_none_iff] at hmute
      have hall : session.mutes.filter (·.1 != label) = session.mutes :=
        List.filter_eq_self.mpr fun entry hentry => by
          rw [bne_comm]
          exact hmute entry hentry
      rw [hall]
      exact List.Perm.refl _
  | some mute =>
      obtain ⟨before, after, hmutes, hbefore⟩ := List.lookup_eq_some_iff.mp hmute
      rw [hmutes, List.map_append, List.map_cons] at hlabels
      -- no other mute has this label, so dropping it leaves all the others
      have hafter : ∀ entry ∈ after, entry.1 != label := by
        intro entry hentry
        have hnot := (List.nodup_cons.mp (List.nodup_append.mp hlabels).2.1).1
        exact bne_iff_ne.mpr fun hsame => hnot (List.mem_map.mpr ⟨entry, hentry, hsame⟩)
      have hothers : session.mutes.filter (·.1 != label) = before ++ after := by
        rw [hmutes, List.filter_append, List.filter_cons_of_neg (by simp),
          List.filter_eq_self.mpr hafter, List.filter_eq_self.mpr fun entry hentry => by
            rw [bne_comm]
            exact hbefore entry hentry]
      rw [hothers, hmutes]
      exact List.Perm.flatMap_right _ List.perm_middle

/-- The session has a mute of its own for each label, and its registry is that of the requests, with
the loggers hidden that the live mutes hold: each one once, and only such as take part. -/
structure Owns (session : Session α) (requests : List Request) : Prop where
  registry : session.registry
    = (Registry.ofRequests session.registry.settings requests).write (session.muted.map (·, true))
  nodup : session.muted.Nodup
  part : ∀ place ∈ session.muted,
    (Registry.ofRequests session.registry.settings requests).TakesPart place
  labels : (session.mutes.map (·.1)).Nodup

variable {session : Session α} {requests : List Request}

theorem owns_new (settings : Settings) (layout : Layout) (appender : α) :
    (Session.new (Backend.new settings layout appender)).Owns [] :=
  ⟨rfl, List.nodup_nil, nofun, List.nodup_nil⟩

theorem Owns.recorded (h : session.Owns requests) :
    session.Recorded requests (session.muted.map (·, true)) := by
  have hlive : ∀ place ∈ session.muted, place < session.registry.size := by
    intro place hplace
    obtain ⟨logger, hlogger, -⟩ := h.part place hplace
    rw [h.registry, Registry.size_write]
    exact Registry.lt_size_of_identity? hlogger
  refine ⟨h.registry, fun write hwrite => ?_, hlive⟩
  obtain ⟨place, hplace, rfl⟩ := List.mem_map.mp hwrite
  exact hlive place hplace

theorem takesPart_ofRequests_append {settings : Settings} {place : Handle}
    (hpart : (Registry.ofRequests settings requests).TakesPart place) (later : Settings)
    (more : List Request) : (Registry.ofRequests later (requests ++ more)).TakesPart place := by
  obtain ⟨logger, hlogger, happlies⟩ := hpart
  refine ⟨logger, ?_, happlies⟩
  rw [Registry.identity?_ofRequests] at hlogger ⊢
  obtain ⟨request, hrequest, rfl⟩ := Option.map_eq_some_iff.mp hlogger
  rw [Request.firsts_append, List.getElem?_append_left (List.getElem?_eq_some_iff.mp hrequest).1,
    hrequest]
  rfl

/-- Where nothing but mutes writes flags, a logger hides stacks if it was made so or if a live mute
holds it. -/
theorem Owns.identity? (h : session.Owns requests) (place : Handle) :
    session.registry.identity? place = ((Request.firsts requests)[place]?).map fun first =>
      first.identity.rewritten
        (some (first.identity.hidesStacks || decide (place ∈ session.muted))) := by
  rw [h.registry, Registry.identity?_write, Registry.identity?_ofRequests,
    Registry.lastWrite_map, Option.map_map]
  refine congrArg (fun change => Option.map change (Request.firsts requests)[place]?) ?_
  funext first
  by_cases hmuted : place ∈ session.muted <;> simp [hmuted, Identity.rewritten]

theorem Owns.applies (h : session.Owns requests) {place : Handle} {first : Request}
    (hfirst : (Request.firsts requests)[place]? = some first) (hmuted : place ∈ session.muted) :
    first.identity.hidesStacks = false ∧ first.identity.level.admits .debug = false := by
  obtain ⟨logger, hlogger, happlies⟩ := h.part place hmuted
  rw [Registry.identity?_ofRequests, hfirst, Option.map_some, Option.some.injEq] at hlogger
  subst hlogger
  simp only [Mute.applies, Bool.and_eq_true, Bool.not_eq_true'] at happlies
  exact ⟨happlies.2, happlies.1⟩

/-- What a new mute has muted takes part, and belongs to none of the mutes that were live before. -/
theorem Owns.takesPart_new (h : session.Owns requests) (label : Text) (names : List Text)
    {place : Handle} (hplace : place ∈ (session.backend.mute names).value.1.muted) :
    (Registry.ofRequests session.registry.settings
        (requests ++ session.requested (.mute label names))).TakesPart place
      ∧ place ∉ session.muted := by
  have hcovers := (Mute.ofNames_covers h.recorded.isDistinct names).2
  have hpart := ((hcovers.mem place).mp hplace).2
  have hobtain := congrArg Reported.value (h.recorded.obtainAll (.mute label names))
  rw [asked] at hobtain
  rw [hobtain] at hpart
  exact (Mute.takesPart_write_iff _ _ place).mp hpart

theorem Owns.hidesStacks_of_muted (h : session.Owns requests) {place : Handle} {logger : Identity}
    (hmuted : place ∈ session.muted) (hlogger : session.registry.identity? place = some logger) :
    logger.hidesStacks = true := by
  rw [h.identity?] at hlogger
  obtain ⟨first, -, rfl⟩ := Option.map_eq_some_iff.mp hlogger
  simp [Identity.rewritten, hmuted]

/-- Whatever a new mute is to hide and what lets no debug events through was made hiding stacks, or
is held by a mute that was live already, or is held by the new one. -/
theorem Owns.covered_cases (h : session.Owns requests) (label : Text) (names : List Text)
    {place : Handle} {first : Request}
    (hfirst : (Request.firsts (requests ++ session.requested (.mute label names)))[place]?
      = some first)
    (hconcerned : Mute.concerns names first.name = true)
    (hdebug : first.identity.level.admits .debug = false) :
    first.identity.hidesStacks = true ∨ place ∈ session.muted
      ∨ place ∈ (session.backend.mute names).value.1.muted := by
  rw [or_iff_not_imp_left, or_iff_not_imp_left]
  intro hshown hfree
  have hcovers := (Mute.ofNames_covers h.recorded.isDistinct names).2
  have hobtain := congrArg Reported.value (h.recorded.obtainAll (.mute label names))
  rw [asked] at hobtain
  refine (hcovers.mem place).mpr ?_
  rw [hobtain]
  -- it was made showing stacks and no live mute holds it, so it takes part in the new one
  refine ⟨?_, (Mute.takesPart_write_iff _ _ place).mpr ⟨⟨first.identity, ?_, ?_⟩, hfree⟩⟩
  · refine ⟨first.identity.rewritten
      (Registry.lastWrite (session.muted.map (·, true)) place), ?_, hconcerned⟩
    rw [Registry.identity?_write, Registry.identity?_ofRequests, hfirst]
    rfl
  · rw [Registry.identity?_ofRequests, hfirst]
    rfl
  · simp [Mute.applies, hdebug, hshown]

/-! ## Operations and runs -/

section

variable [CivilTime] [Appender α]

theorem Owns.of_same (h : session.Owns requests) {operation : Operation}
    (hmutes : (session.perform operation).value.mutes = session.mutes)
    (hwritten : session.written operation = []) :
    (session.perform operation).value.Owns (requests ++ session.requested operation) := by
  have hmuted : (session.perform operation).value.muted = session.muted := by
    rw [muted, hmutes, muted]
  have hrecorded := perform_recorded h.recorded operation
  refine ⟨?_, by rw [hmuted]; exact h.nodup, ?_, by rw [hmutes]; exact h.labels⟩
  · have hregistry := hrecorded.registry
    rwa [hwritten, List.append_nil, ← hmuted] at hregistry
  · intro place hplace
    rw [hmuted] at hplace
    exact takesPart_ofRequests_append (h.part place hplace) _ _

/-- An operation that drops the mute of a label and may have made a new one before that. -/
theorem Owns.of_dropped (h : session.Owns requests) {operation : Operation} {label : Text}
    {new : List Handle}
    (hwritten : session.written operation
      = new.map (·, true) ++ (session.mutedUnder label).map (·, false))
    (hmuted : (session.perform operation).value.muted = (session.unmute label).2.muted ++ new)
    (hnodup : (session.muted ++ new).Nodup)
    (hpart : ∀ place ∈ new, (Registry.ofRequests (session.perform operation).value.registry.settings
      (requests ++ session.requested operation)).TakesPart place)
    (hlabels : ((session.perform operation).value.mutes.map (·.1)).Nodup) :
    (session.perform operation).value.Owns (requests ++ session.requested operation) := by
  -- what is held for a moment by the old mutes and the new one is what is held in the end, and what
  -- the label held before
  have hperm : (session.muted ++ new).Perm
      (session.mutedUnder label ++ (session.perform operation).value.muted) := by
    rw [hmuted, ← List.append_assoc]
    exact (perm_muted h.labels label).append_right new
  have hall : ∀ place ∈ session.muted ++ new,
      (Registry.ofRequests (session.perform operation).value.registry.settings
        (requests ++ session.requested operation)).TakesPart place := by
    intro place hplace
    rcases List.mem_append.mp hplace with hold | hnew
    · exact takesPart_ofRequests_append (h.part place hold) _ _
    · exact hpart place hnew
  refine ⟨?_, ?_, fun place hplace => ?_, hlabels⟩
  · have hregistry := (perform_recorded h.recorded operation).registry
    rw [hwritten, ← List.append_assoc, ← List.map_append, Registry.write_append,
      Registry.write_hidden_shown hperm hnodup hall] at hregistry
    exact hregistry
  · exact (List.nodup_append.mp (hperm.nodup_iff.mp hnodup)).2.1
  · exact hall place (hperm.mem_iff.mpr (List.mem_append_right _ hplace))

/-- **Every operation but a direct write keeps the ownership.** -/
theorem perform_owns (h : session.Owns requests) {operation : Operation}
    (hindirect : operation.isDirect = false) :
    (session.perform operation).value.Owns (requests ++ session.requested operation) := by
  cases operation with
  | obtain name => exact h.of_same rfl rfl
  | visit parent asks => exact h.of_same rfl rfl
  | replaceSettings settings => exact h.of_same rfl rfl
  | log handle event => exact h.of_same rfl rfl
  | emit handle event => exact h.of_same rfl rfl
  | setHidesStacks handle hides => cases hindirect
  | unmute label =>
      have hlabels : ((session.unmute label).2.mutes.map (·.1)).Nodup := by
        rw [mutes_unmute]
        exact h.labels.sublist (List.filter_sublist.map _)
      have hnodup : (session.muted ++ []).Nodup := by
        rw [List.append_nil]
        exact h.nodup
      have hmuted : (session.perform (.unmute label)).value.muted
          = (session.unmute label).2.muted ++ [] := (List.append_nil _).symm
      have hwritten : session.written (.unmute label)
          = ([] : List Handle).map (·, true) ++ (session.mutedUnder label).map (·, false) := rfl
      exact h.of_dropped hwritten hmuted hnodup nofun hlabels
  | mute label names =>
      have hcovers := (Mute.ofNames_covers h.recorded.isDistinct names).2
      have hnodup : (session.muted ++ (session.backend.mute names).value.1.muted).Nodup := by
        refine List.nodup_append'.mpr ⟨h.nodup, hcovers.nodup, ?_⟩
        exact fun place hold hnew => (h.takesPart_new label names hnew).2 hold
      have hlabels : ((session.perform (.mute label names)).value.mutes.map (·.1)).Nodup := by
        rw [mutes_mute, mutes_unmute, List.map_append, List.map_singleton]
        refine List.nodup_append'.mpr ⟨h.labels.sublist (List.filter_sublist.map _),
          List.nodup_singleton label, List.disjoint_singleton.mpr fun hlabel => ?_⟩
        obtain ⟨entry, hentry, hsame⟩ := List.mem_map.mp hlabel
        exact bne_iff_ne.mp (List.mem_filter.mp hentry).2 hsame
      refine h.of_dropped rfl (session.muted_mute label names) hnodup (fun place hnew => ?_) hlabels
      rw [settings_perform h.recorded.isDistinct]
      exact (h.takesPart_new label names hnew).1

/-- **Every run without a direct write keeps the ownership.** -/
theorem run_owns (h : session.Owns requests) {operations : List Operation}
    (hindirect : ∀ operation ∈ operations, operation.isDirect = false) :
    (session.run operations).value.Owns (requests ++ session.requests operations) := by
  induction operations generalizing session requests with
  | nil =>
      rw [Session.requests, List.append_nil]
      exact h
  | cons operation rest ih =>
      rw [List.forall_mem_cons] at hindirect
      rw [run_cons, Session.requests, ← List.append_assoc]
      exact ih (perform_owns h hindirect.1) hindirect.2

/-- **Mutes own what they mute, and everything is restored.** At the end of any run in which nothing
but mutes writes flags, and so at any point of one: no logger is held twice by the live mutes, whether
by one of them or by two. A logger hides stacks if it was made so or if a live mute holds it, and a
held one was made showing stacks and lets no debug events through. No level is another one than that
the logger was made with. Without live mutes the loggers are as they were made. -/
theorem mutes_own_what_they_mute (settings : Settings) (layout : Layout) (appender : α)
    (operations : List Operation)
    (hindirect : ∀ operation ∈ operations, operation.isDirect = false) :
    let session := Session.new (Backend.new settings layout appender)
    let now := (session.run operations).value
    let made := (Request.firsts (session.requests operations)).map Request.identity
    now.muted.Nodup
      ∧ (now.registry.size = made.length ∧ ∀ place ∈ now.muted, place < made.length)
      ∧ (∀ place logger original, now.registry.identity? place = some logger →
          made[place]? = some original →
            (logger.hidesStacks = true ↔ original.hidesStacks = true ∨ place ∈ now.muted)
              ∧ logger.level = original.level
              ∧ (place ∈ now.muted →
                original.hidesStacks = false ∧ logger.level.admits .debug = false))
      ∧ (now.mutes = [] → now.registry.loggers = made) := by
  intro session now made
  have howns : now.Owns (session.requests operations) :=
    run_owns (owns_new settings layout appender) hindirect
  have hsize : now.registry.size = made.length := by
    rw [howns.registry, Registry.size_write]
    rfl
  refine ⟨howns.nodup, ⟨hsize, fun place hplace => ?_⟩, ?_, fun hmutes => ?_⟩
  · rw [← hsize]
    exact howns.recorded.live place hplace
  · intro place logger original hlogger horiginal
    rw [List.getElem?_map] at horiginal
    obtain ⟨first, hfirst, rfl⟩ := Option.map_eq_some_iff.mp horiginal
    rw [howns.identity?, hfirst, Option.map_some, Option.some.injEq] at hlogger
    subst hlogger
    refine ⟨?_, rfl, fun hmuted => howns.applies hfirst hmuted⟩
    simp [Identity.rewritten]
  · have hempty : now.muted = [] := by
      rw [muted, hmutes]
      rfl
    rw [howns.registry, hempty]
    rfl

end

/-- Two mutes that overlap, dropped in the order in which they were made. -/
def overlap : List Operation :=
  [.obtain "a.b".toList, .mute "one".toList ["a".toList],
    .mute "two".toList ["c".toList, "a.b".toList], .unmute "one".toList, .unmute "two".toList]

theorem mutes_own_what_they_mute_overlap :
    let session := Session.new (Backend.new Settings.empty {} Memory.empty)
    let now := (session.run overlap).value
    (∀ operation ∈ overlap, operation.isDirect = false)
      ∧ now.mutes = []
      ∧ now.registry.loggers = (Request.firsts (session.requests overlap)).map Request.identity
      ∧ now.registry.size = 3 := by
  have hindirect : ∀ operation ∈ overlap, operation.isDirect = false := by
    simp [overlap, Operation.isDirect]
  have hmutes : ((Session.new (Backend.new Settings.empty {} Memory.empty)).run overlap).value.mutes
      = [] := by decide +kernel
  have howned := mutes_own_what_they_mute Settings.empty {} Memory.empty overlap hindirect
  exact ⟨hindirect, hmutes, howned.2.2.2 hmutes, by decide +kernel⟩

/-! ## How long a mute hides -/

section

variable [CivilTime] [Appender α]

/-- A mute stays live until its label is given to another one or dropped. -/
theorem mem_mutes_perform {operation : Operation} {entry : Text × Mute}
    (hentry : entry ∈ session.mutes) (hkept : operation.freed? ≠ some entry.1) :
    entry ∈ (session.perform operation).value.mutes := by
  have hfiltered : ∀ label : Text, some label ≠ some entry.1 →
      entry ∈ (session.unmute label).2.mutes := by
    intro label hlabel
    rw [mutes_unmute]
    exact List.mem_filter.mpr ⟨hentry, bne_iff_ne.mpr fun hsame => hlabel (by rw [hsame])⟩
  cases operation with
  | obtain name => exact hentry
  | visit parent asks => exact hentry
  | replaceSettings settings => exact hentry
  | setHidesStacks handle hides => exact hentry
  | log handle event => exact hentry
  | emit handle event => exact hentry
  | unmute label => exact hfiltered label hkept
  | mute label names =>
      rw [mutes_mute]
      exact List.mem_append_left _ (hfiltered label hkept)

theorem mem_mutes_run {operations : List Operation} {entry : Text × Mute}
    (hentry : entry ∈ session.mutes)
    (hkept : entry.1 ∉ operations.filterMap Operation.freed?) :
    entry ∈ (session.run operations).value.mutes := by
  induction operations generalizing session with
  | nil => exact hentry
  | cons operation rest ih =>
      rw [run_cons, Reported.value_bind]
      have hrest : entry.1 ∉ rest.filterMap Operation.freed? := fun hmem =>
        hkept (((List.sublist_cons_self operation rest).filterMap _).subset hmem)
      refine ih (mem_mutes_perform hentry fun hfreed => hkept ?_) hrest
      exact List.mem_filterMap.mpr ⟨operation, List.mem_cons_self, hfreed⟩

/-- A mute that stays live hides what it covers, but for what another mute owned that was dropped. -/
theorem Owns.hides_covered (h : session.Owns requests) {label : Text} {names : List Text}
    {later : List Operation} (hindirect : ∀ operation ∈ later, operation.isDirect = false)
    (hlive : (label, (session.backend.mute names).value.1)
      ∈ ((session.run (.mute label names :: later)).value).mutes)
    {place : Handle} {logger : Identity}
    (hthere : place < (session.perform (.mute label names)).value.registry.size)
    (hlogger : (session.run (.mute label names :: later)).value.registry.identity? place
      = some logger)
    (hconcerned : Mute.concerns names logger.name = true)
    (hdebug : logger.level.admits .debug = false) :
    logger.hidesStacks = true ∨ ∃ owner ∈ session.mutes, place ∈ owner.2.muted
      ∧ owner.1 ∈ (Operation.mute label names :: later).filterMap Operation.freed? := by
  have hstarted : (session.perform (.mute label names)).value.Owns _ := perform_owns h rfl
  have hnow : (session.run (.mute label names :: later)).value.Owns _ := run_owns hstarted hindirect
  have hheld : place ∈ (session.run (.mute label names :: later)).value.muted →
      logger.hidesStacks = true := fun hmuted => hnow.hidesStacks_of_muted hmuted hlogger
  -- the logger is still the one of its first request, which is older than the mute or part of it
  rw [hnow.identity?] at hlogger
  obtain ⟨first, hfirst, rfl⟩ := Option.map_eq_some_iff.mp hlogger
  rw [hstarted.registry, Registry.size_write, Registry.size, Registry.ofRequests, List.length_map]
    at hthere
  rw [Request.firsts_append, List.getElem?_append_left hthere] at hfirst
  rcases h.covered_cases label names hfirst hconcerned hdebug with hmade | hold | hnew
  · exact .inl (by simp [Identity.rewritten, hmade])
  · obtain ⟨owner, howner, hmuted⟩ := List.mem_flatMap.mp hold
    by_cases hfreed : owner.1 ∈ (Operation.mute label names :: later).filterMap Operation.freed?
    · exact .inr ⟨owner, howner, hmuted, hfreed⟩
    · exact .inl (hheld (List.mem_flatMap.mpr ⟨owner, mem_mutes_run howner hfreed, hmuted⟩))
  · exact .inl (hheld (List.mem_flatMap.mpr ⟨_, hlive, hnew⟩))

/-- **A mute hides until it is dropped, but for what another mute owns.** At any point of a run in
which nothing but mutes writes flags, and at which a mute is still live: a logger that it was made
for, or that was there below one, and that lets no debug events through, hides stacks, unless a mute
that was live already when this one was made held the logger and has been dropped since. What the
live mutes hold themselves hides stacks in any case. -/
theorem mute_hides_until_owner_dropped (settings : Settings) (layout : Layout) (appender : α)
    (earlier later : List Operation) (label : Text) (names : List Text)
    (hindirect : ∀ operation ∈ earlier ++ later, operation.isDirect = false)
    (hkept : label ∉ later.filterMap Operation.freed?) :
    let before := ((Session.new (Backend.new settings layout appender)).run earlier).value
    let started := (before.perform (.mute label names)).value
    let now := (before.run (.mute label names :: later)).value
    let mute := (before.backend.mute names).value.1
    (label, mute) ∈ now.mutes
      ∧ (∀ place logger, place < started.registry.size → now.registry.identity? place = some logger →
          Mute.concerns names logger.name = true → logger.level.admits .debug = false →
            logger.hidesStacks = true ∨ ∃ owner ∈ before.mutes, place ∈ owner.2.muted
              ∧ owner.1 ∈ (Operation.mute label names :: later).filterMap Operation.freed?)
      ∧ ∀ entry ∈ now.mutes, ∀ place ∈ entry.2.muted, ∀ logger,
          now.registry.identity? place = some logger → logger.hidesStacks = true := by
  intro before started now mute
  obtain ⟨hearlier, hlater⟩ := List.forall_mem_append.mp hindirect
  have hbefore : before.Owns ((Session.new _).requests earlier) :=
    run_owns (owns_new settings layout appender) hearlier
  have hnew : (label, mute) ∈ started.mutes := by
    rw [mutes_mute]
    exact List.mem_append_right _ (List.mem_singleton_self _)
  have hlive : (label, mute) ∈ (started.run later).value.mutes := mem_mutes_run hnew hkept
  refine ⟨hlive, fun place logger hthere hlogger => hbefore.hides_covered hlater hlive hthere hlogger,
    fun entry hentry place hplace logger hlogger => ?_⟩
  have hstarted : started.Owns _ := perform_owns hbefore rfl
  have hnow : now.Owns _ := run_owns hstarted hlater
  exact hnow.hidesStacks_of_muted (List.mem_flatMap.mpr ⟨entry, hentry, hplace⟩) hlogger

end

/-- A mute hides a logger below its name while others come and go. -/
theorem mute_hides_until_owner_dropped_below :
    let before := ((Session.new (Backend.new Settings.empty {} Memory.empty)).run
      [.obtain "x.y".toList]).value
    let later := [Operation.mute "b".toList ["x.y".toList], .unmute "b".toList]
    let now := (before.run (.mute "a".toList ["x".toList] :: later)).value
    (∀ operation ∈ [.obtain "x.y".toList] ++ later, operation.isDirect = false)
      ∧ "a".toList ∉ later.filterMap Operation.freed?
      ∧ ∃ logger, now.registry.identity? 0 = some logger ∧ logger.hidesStacks = true := by
  have hindirect : ∀ operation ∈ [.obtain "x.y".toList] ++
      [Operation.mute "b".toList ["x.y".toList], .unmute "b".toList],
      operation.isDirect = false := by
    simp [Operation.isDirect]
  have hkept : "a".toList ∉ [Operation.mute "b".toList ["x.y".toList], .unmute "b".toList].filterMap
      Operation.freed? := by decide
  have hhides := mute_hides_until_owner_dropped Settings.empty {} Memory.empty _ _ _ ["x".toList]
    hindirect hkept
  refine ⟨hindirect, hkept, Identity.new "x.y".toList .info true, by decide +kernel, ?_⟩
  refine (hhides.2.1 0 _ (by decide +kernel) (by decide +kernel) (by decide) (by decide)).resolve_right ?_
  rintro ⟨owner, howner, -⟩
  exact nomatch howner

/-- A mute over a logger that another one holds already owns nothing of it, and when the other one is
dropped the stacks are shown. -/
def overtaken : List Operation :=
  [.obtain "x".toList, .mute "a".toList ["x".toList], .mute "b".toList ["x".toList],
    .unmute "a".toList]

theorem live_mute_shows_stacks :
    let now := ((Session.new (Backend.new Settings.empty {} Memory.empty)).run overtaken).value
    (∀ operation ∈ overtaken, operation.isDirect = false)
      ∧ now.mutes.map (·.1) = ["b".toList]
      ∧ now.registry.identity? 0 = some (Identity.new "x".toList .info false)
      ∧ Mute.concerns ["x".toList] "x".toList = true
      ∧ Level.info.admits .debug = false := by
  have hindirect : ∀ operation ∈ overtaken, operation.isDirect = false := by
    simp [overtaken, Operation.isDirect]
  exact ⟨hindirect, by decide +kernel⟩

end Session

end Logbook
