import Logbook.Appender.Memory
import Logbook.Proofs.Mute.Coverage

/-!
# Logbook — the history of a session

What a run leaves in the registry can be read off two lists: the requests for names that were made
during the run, each with the settings in force at that moment, and the writes of flags. Nothing else
that happens is of any consequence.

* **`Session.asked`**, **`Session.written`** — the part of one operation in the two lists;
  `perform_registry` says that this is all an operation does.
* **`Session.requests`**, **`Session.writes`** — the two lists of a run.
* **`Session.Recorded`** — a registry as the two lists tell it, kept by `perform_recorded` and
  `run_recorded`.
* **`Session.registry_tells_history`** — the headline.
-/

namespace Logbook

/-! ## One operation -/

/-- The settings that an operation puts in force. -/
def Operation.settings? : Operation → Option Settings
  | .replaceSettings settings => some settings
  | .obtain _ => none
  | .visit _ _ => none
  | .setHidesStacks _ _ => none
  | .mute _ _ => none
  | .unmute _ => none
  | .log _ _ => none
  | .emit _ _ => none

/-- What a visitor asks for, at one logger after the other. -/
def Registry.visitAsks (asks : Registry → Handle → List Text) (registry : Registry) :
    List Handle → List Text
  | [] => []
  | handle :: rest =>
    asks registry handle
      ++ visitAsks asks (registry.obtainAll (asks registry handle)).value rest

theorem Registry.visitDescendants_eq (asks : Registry → Handle → List Text) (registry : Registry)
    (parent : Text) :
    registry.visitDescendants parent (fun handle registry => registry.obtainAll (asks registry handle))
      = registry.obtainAll (registry.visitAsks asks (registry.descendants parent)) := by
  unfold visitDescendants
  generalize registry.descendants parent = handles
  induction handles generalizing registry with
  | nil => rfl
  | cons handle rest ih =>
      rw [List.foldlM_cons, visitAsks, obtainAll_append]
      exact Reported.bind_congr (ih _)

namespace Notice

/-- The warnings among some notices. -/
def warnings (notices : List Notice) : List Notice :=
  notices.filter (·.gravity = .warning)

theorem warnings_eq_self {notices : List Notice}
    (h : ∀ notice ∈ notices, notice.gravity = .warning) : warnings notices = notices :=
  List.filter_eq_self.mpr fun notice hnotice => decide_eq_true (h notice hnotice)

theorem warnings_append (notices more : List Notice) :
    warnings (notices ++ more) = warnings notices ++ warnings more :=
  List.filter_append notices more

end Notice

theorem Backend.warnings_emit {α : Type} [CivilTime] [Appender α] (backend : Backend α)
    (handle : Handle) (event : Event) : Notice.warnings (backend.emit handle event).notices = [] := by
  unfold Backend.emit
  cases backend.registry.identity? handle with
  | none => rfl
  | some logger =>
      dsimp only [Backend.deliver]
      generalize Appender.append backend.appender _ = outcome
      obtain ⟨delivery, appender⟩ := outcome
      cases delivery <;> rfl

theorem Backend.warnings_log {α : Type} [CivilTime] [Appender α] (backend : Backend α)
    (handle : Handle) (event : Event) : Notice.warnings (backend.log handle event).notices = [] := by
  unfold Backend.log
  split
  · exact backend.warnings_emit handle event
  · rfl

theorem Registry.replaceSettings_write (registry : Registry) (writes : List (Handle × Bool))
    (settings : Settings) :
    (registry.write writes).replaceSettings settings
      = (registry.replaceSettings settings).write writes := by
  induction writes generalizing registry with
  | nil => rfl
  | cons write rest ih => exact ih (registry.setHidesStacks write.1 write.2)

namespace Session

variable {α : Type}

/-- The loggers that the mute with this label has muted. -/
def mutedUnder (session : Session α) (label : Text) : List Handle :=
  ((session.mutes.lookup label).map Mute.muted).getD []

/-- The loggers that the live mutes have muted, all together. -/
def muted (session : Session α) : List Handle :=
  session.mutes.flatMap (·.2.muted)

theorem mutedUnder_subset (session : Session α) (label : Text) :
    session.mutedUnder label ⊆ session.muted := by
  unfold mutedUnder
  cases hmute : session.mutes.lookup label with
  | none => exact List.nil_subset _
  | some mute =>
      obtain ⟨before, after, hmutes, -⟩ := List.lookup_eq_some_iff.mp hmute
      intro handle hhandle
      rw [muted, hmutes, List.flatMap_append, List.flatMap_cons]
      exact List.mem_append_right _ (List.mem_append_left _ hhandle)

/-- The names that an operation requests, in order. -/
def asked (session : Session α) : Operation → List Text
  | .obtain name => [name]
  | .visit parent asks => session.registry.visitAsks asks (session.registry.descendants parent)
  | .mute _ names => names
  | .replaceSettings _ => []
  | .setHidesStacks _ _ => []
  | .unmute _ => []
  | .log _ _ => []
  | .emit _ _ => []

/-- The flags that an operation writes, in order. -/
def written (session : Session α) : Operation → List (Handle × Bool)
  | .setHidesStacks handle hides =>
    (session.registry.identity? handle).toList.map fun _ => (handle, hides)
  | .mute label names =>
    (session.backend.mute names).value.1.muted.map (·, true)
      ++ (session.mutedUnder label).map (·, false)
  | .unmute label => (session.mutedUnder label).map (·, false)
  | .obtain _ => []
  | .visit _ _ => []
  | .replaceSettings _ => []
  | .log _ _ => []
  | .emit _ _ => []

theorem registry_unmute (session : Session α) (label : Text) :
    (session.unmute label).2.registry
      = session.registry.write ((session.mutedUnder label).map (·, false)) := by
  unfold Session.unmute mutedUnder
  cases session.mutes.lookup label with
  | none => rfl
  | some mute => exact mute.drop_eq_write session.registry

theorem registry_mute {session : Session α} (hdistinct : session.registry.IsDistinct)
    (label : Text) (names : List Text) :
    (session.mute label names).value.2.registry
      = (session.registry.obtainAll names).value.write (session.written (.mute label names)) := by
  obtain ⟨-, hcovers⟩ := Mute.ofNames_covers hdistinct names
  have hmade : (session.backend.mute names).value.2.registry
      = (session.registry.obtainAll names).value.write
          ((session.backend.mute names).value.1.muted.map (·, true)) := hcovers.registry
  -- the new mute is made first, and only then the one that had the label before is dropped
  have hdropped := registry_unmute
    ({ session with backend := (session.backend.mute names).value.2 } : Session α) label
  have hregistry : ({ session with backend := (session.backend.mute names).value.2 } :
      Session α).registry = (session.backend.mute names).value.2.registry := rfl
  rw [hregistry, hmade, ← Registry.write_append] at hdropped
  exact hdropped

theorem mutes_unmute (session : Session α) (label : Text) :
    (session.unmute label).2.mutes = session.mutes.filter (·.1 != label) := by
  unfold Session.unmute
  cases hmute : session.mutes.lookup label with
  | some mute => rfl
  | none =>
      -- without a mute of this label there is nothing to leave out
      rw [List.lookup_eq_none_iff] at hmute
      refine (List.filter_eq_self.mpr fun entry hentry => ?_).symm
      rw [bne_comm]
      exact hmute entry hentry

theorem muted_unmute_subset (session : Session α) (label : Text) :
    (session.unmute label).2.muted ⊆ session.muted := by
  intro place hplace
  obtain ⟨entry, hentry, hmuted⟩ := List.mem_flatMap.mp hplace
  rw [mutes_unmute] at hentry
  exact List.mem_flatMap.mpr ⟨entry, List.mem_of_mem_filter hentry, hmuted⟩

/-! ## The record -/

/-- The requests that an operation makes. -/
def requested (session : Session α) (operation : Operation) : List Request :=
  (session.asked operation).map (⟨·, session.registry.settings⟩)

/-- The registry of a session is told by the requests and the writes so far, and the live mutes hold
loggers of it. -/
structure Recorded (session : Session α) (requests : List Request)
    (writes : List (Handle × Bool)) : Prop where
  registry : session.registry
    = (Registry.ofRequests session.registry.settings requests).write writes
  fits : session.registry.Fits writes
  live : ∀ place ∈ session.muted, place < session.registry.size

variable {session : Session α} {made : List Request} {done : List (Handle × Bool)}

theorem recorded_new (settings : Settings) (layout : Layout) (appender : α) :
    (Session.new (Backend.new settings layout appender)).Recorded [] [] :=
  ⟨rfl, nofun, nofun⟩

theorem Recorded.isDistinct (h : session.Recorded made done) : session.registry.IsDistinct := by
  rw [h.registry]
  exact (Registry.isDistinct_ofRequests _ made).write done

/-- The requests of an operation on a registry that is told by requests and writes. -/
theorem Recorded.obtainAll (h : session.Recorded made done) (operation : Operation) :
    session.registry.obtainAll (session.asked operation)
      = ⟨(Registry.ofRequests session.registry.settings
            (made ++ session.requested operation)).write done,
          (Request.fresh (made.map Request.name) (session.requested operation)).flatMap
            Request.warnings⟩ := by
  have hfits : (Registry.ofRequests session.registry.settings made).Fits done := by
    have hsize := congrArg Registry.size h.registry
    rw [Registry.size_write] at hsize
    intro write hwrite
    rw [← hsize]
    exact h.fits write hwrite
  have hobtain := Registry.write_obtainAll hfits (session.asked operation)
  rw [← h.registry] at hobtain
  rw [hobtain, Registry.obtainAll_ofRequests]
  exact Reported.ext rfl (Reported.notices_map _ _)

/-! ## What an operation does -/

section

variable [CivilTime] [Appender α]

/-- **All that an operation does to a registry**: it makes its requests, perhaps puts other settings
in force, and writes its flags. -/
theorem registry_perform {session : Session α} (hdistinct : session.registry.IsDistinct)
    (operation : Operation) :
    (session.perform operation).value.registry
      = ((session.registry.obtainAll (session.asked operation)).value.replaceSettings
          (operation.settings?.getD session.registry.settings)).write
            (session.written operation) := by
  have hsame : (session.registry.obtainAll (session.asked operation)).value.replaceSettings
        session.registry.settings
      = (session.registry.obtainAll (session.asked operation)).value := by
    rw [← session.registry.settings_obtainAll (session.asked operation)]
    rfl
  cases operation with
  | obtain name => exact hsame.symm
  | visit parent asks =>
      have hvisit := congrArg Reported.value (session.registry.visitDescendants_eq asks parent)
      exact hvisit.trans hsame.symm
  | replaceSettings settings => rfl
  | setHidesStacks handle hides =>
      have hset : session.registry.setHidesStacks handle hides
          = session.registry.write (session.written (.setHidesStacks handle hides)) := by
        cases hlogger : session.registry.identity? handle with
        | some logger =>
            simp only [written, hlogger]
            rfl
        | none =>
            -- nobody is at this place
            have hbeyond := Registry.identity?_eq_none_iff.mp hlogger
            rw [Registry.setHidesStacks, List.modify_eq_self hbeyond]
            simp only [written, hlogger]
            rfl
      exact hset
  | mute label names =>
      have hmute := registry_mute hdistinct label names
      exact hmute.trans (congrArg (Registry.write · _) hsame.symm)
  | unmute label => exact session.registry_unmute label
  | log handle event => exact session.backend.registry_log handle event
  | emit handle event => exact session.backend.registry_emit handle event

/-- **The warnings that an operation leaves** are those of its requests. -/
theorem warnings_perform {session : Session α} (hdistinct : session.registry.IsDistinct)
    (operation : Operation) :
    Notice.warnings (session.perform operation).notices
      = (session.registry.obtainAll (session.asked operation)).notices := by
  have hclerical : (session.perform operation).notices
        = (session.registry.obtainAll (session.asked operation)).notices →
      Notice.warnings (session.perform operation).notices
        = (session.registry.obtainAll (session.asked operation)).notices := by
    intro hsame
    rw [hsame]
    exact Notice.warnings_eq_self (session.registry.meets_obtainAll _).notices
  cases operation with
  | obtain name =>
      refine hclerical ?_
      simp [perform, Backend.logger, asked, Registry.obtainAll, registry]
  | visit parent asks =>
      refine hclerical ?_
      have hvisit := session.registry.visitDescendants_eq asks parent
      simp [perform, hvisit, asked]
  | mute label names =>
      refine hclerical ?_
      have hmade := (Mute.ofNames_covers hdistinct names).1
      rw [asked, ← hmade]
      simp [perform, Session.mute, Backend.mute, registry]
  | replaceSettings settings => rfl
  | setHidesStacks handle hides => rfl
  | unmute label => rfl
  | log handle event =>
      have hlog := session.backend.warnings_log handle event
      simpa [perform, asked, Registry.obtainAll_nil] using hlog
  | emit handle event =>
      have hemit := session.backend.warnings_emit handle event
      simpa [perform, asked, Registry.obtainAll_nil] using hemit

/-! ## A run -/

/-- The requests that operations make, in order. -/
def requests (session : Session α) : List Operation → List Request
  | [] => []
  | operation :: rest =>
    session.requested operation ++ requests (session.perform operation).value rest

/-- The flags that operations write, in order. -/
def writes (session : Session α) : List Operation → List (Handle × Bool)
  | [] => []
  | operation :: rest =>
    session.written operation ++ writes (session.perform operation).value rest

theorem requests_append (session : Session α) (operations more : List Operation) :
    session.requests (operations ++ more)
      = session.requests operations ++ (session.run operations).value.requests more := by
  induction operations generalizing session with
  | nil => rfl
  | cons operation rest ih =>
      rw [List.cons_append, requests, requests, ih, run_cons, List.append_assoc]
      rfl

theorem settings_perform (hdistinct : session.registry.IsDistinct) (operation : Operation) :
    (session.perform operation).value.registry.settings
      = operation.settings?.getD session.registry.settings := by
  rw [registry_perform hdistinct, Registry.settings_write]
  rfl

theorem size_perform (hdistinct : session.registry.IsDistinct) (operation : Operation) :
    (session.perform operation).value.registry.size
      = (session.registry.obtainAll (session.asked operation)).value.size := by
  rw [registry_perform hdistinct, Registry.size_write]
  rfl

theorem mutes_mute (session : Session α) (label : Text) (names : List Text) :
    (session.perform (.mute label names)).value.mutes
      = (session.unmute label).2.mutes ++ [(label, (session.backend.mute names).value.1)] := by
  rw [mutes_unmute, ← mutes_unmute { session with backend := (session.backend.mute names).value.2 }]
  rfl

theorem muted_mute (session : Session α) (label : Text) (names : List Text) :
    (session.perform (.mute label names)).value.muted
      = (session.unmute label).2.muted ++ (session.backend.mute names).value.1.muted := by
  rw [muted, mutes_mute, List.flatMap_append, List.flatMap_singleton]
  rfl

theorem mem_muted_perform {operation : Operation} {place : Handle}
    (hplace : place ∈ (session.perform operation).value.muted) :
    place ∈ session.muted ∨ (place, true) ∈ session.written operation := by
  cases operation with
  | obtain name => exact .inl hplace
  | visit parent asks => exact .inl hplace
  | replaceSettings settings => exact .inl hplace
  | setHidesStacks handle hides => exact .inl hplace
  | log handle event => exact .inl hplace
  | emit handle event => exact .inl hplace
  | unmute label => exact .inl (muted_unmute_subset session label hplace)
  | mute label names =>
      rw [muted_mute] at hplace
      rcases List.mem_append.mp hplace with hold | hnew
      · exact .inl (muted_unmute_subset session label hold)
      · exact .inr (List.mem_append_left _ (List.mem_map_of_mem hnew))

theorem Recorded.fits_written (h : session.Recorded made done) (operation : Operation) :
    (session.perform operation).value.registry.Fits (session.written operation) := by
  have hgrown := session.registry.size_le_obtainAll (session.asked operation)
  rw [← size_perform h.isDistinct operation] at hgrown
  have hdropped : ∀ (label : Text), ∀ write ∈ (session.mutedUnder label).map (·, false),
      write.1 < (session.perform operation).value.registry.size := by
    intro label write hwrite
    obtain ⟨place, hplace, rfl⟩ := List.mem_map.mp hwrite
    exact (h.live place (session.mutedUnder_subset label hplace)).trans_le hgrown
  intro write hwrite
  cases operation with
  | obtain name => cases hwrite
  | visit parent asks => cases hwrite
  | replaceSettings settings => cases hwrite
  | log handle event => cases hwrite
  | emit handle event => cases hwrite
  | setHidesStacks handle hides =>
      obtain ⟨logger, hlogger, rfl⟩ := List.mem_map.mp hwrite
      exact (Registry.lt_size_of_identity? (Option.mem_toList.mp hlogger)).trans_le hgrown
  | unmute label => exact hdropped label write hwrite
  | mute label names =>
      rcases List.mem_append.mp hwrite with hnew | hold
      · rw [size_perform h.isDistinct]
        exact (Mute.ofNames_covers h.isDistinct names).2.fits write hnew
      · exact hdropped label write hold

/-- **An operation adds its requests and its writes to the record.** -/
theorem perform_recorded (h : session.Recorded made done) (operation : Operation) :
    (session.perform operation).value.Recorded (made ++ session.requested operation)
      (done ++ session.written operation) := by
  have hgrown := session.registry.size_le_obtainAll (session.asked operation)
  rw [← size_perform h.isDistinct operation] at hgrown
  have hfits := h.fits_written operation
  refine ⟨?_, ?_, ?_⟩
  · rw [settings_perform h.isDistinct, registry_perform h.isDistinct, h.obtainAll,
      Registry.replaceSettings_write, Registry.write_append]
    rfl
  · refine List.forall_mem_append.mpr ⟨fun write hwrite => ?_, hfits⟩
    exact (h.fits write hwrite).trans_le hgrown
  · intro place hplace
    rcases mem_muted_perform hplace with hold | hnew
    · exact (h.live place hold).trans_le hgrown
    · exact hfits _ hnew

/-- **A run adds its requests and its writes to the record**, and the warnings it leaves are those of
the requests that are the first ones for their names. -/
theorem run_recorded (h : session.Recorded made done) (operations : List Operation) :
    (session.run operations).value.Recorded (made ++ session.requests operations)
        (done ++ session.writes operations)
      ∧ Notice.warnings (session.run operations).notices
        = (Request.fresh (made.map Request.name) (session.requests operations)).flatMap
            Request.warnings := by
  induction operations generalizing session made done with
  | nil =>
      rw [requests, writes, List.append_nil, List.append_nil]
      exact ⟨h, rfl⟩
  | cons operation rest ih =>
      obtain ⟨hrecorded, hwarnings⟩ := ih (perform_recorded h operation)
      rw [run_cons, requests, writes, ← List.append_assoc, ← List.append_assoc]
      refine ⟨hrecorded, ?_⟩
      -- the rest leaves warnings for the names that are new after the operation, too
      rw [Reported.notices_bind, Notice.warnings_append, warnings_perform h.isDistinct, h.obtainAll,
        hwarnings, Request.fresh_append, List.flatMap_append, List.map_append]

theorem settings_run (h : session.Recorded made done) (operations : List Operation) :
    (session.run operations).value.registry.settings
      = (operations.filterMap Operation.settings?).getLastD session.registry.settings := by
  induction operations generalizing session made done with
  | nil => rfl
  | cons operation rest ih =>
      have hrest := ih (perform_recorded h operation)
      rw [settings_perform h.isDistinct] at hrest
      rw [run_cons, Reported.value_bind, hrest]
      cases hsettings : operation.settings? with
      | none => rw [List.filterMap_cons_none hsettings, Option.getD_none]
      | some settings =>
          rw [List.filterMap_cons_some hsettings, Option.getD_some, List.getLastD_cons]

/-- **A registry is told by its history.** At the end of any run, and so at any point of one, the
loggers are those of the names that were requested, one for each, in the order of their first
requests. Each is what its name resolved to under the settings in force at its first request, but for
the flag last written to it. A name is found at the place of its first request from then on, where a
further request finds it and neither changes nor leaves anything; the warnings are those of the first
requests. Other settings concern no logger that is there, and the sorted names are those that were
requested. -/
theorem registry_tells_history (settings : Settings) (layout : Layout) (appender : α)
    (operations : List Operation) :
    let session := Session.new (Backend.new settings layout appender)
    let outcome := session.run operations
    let registry := outcome.value.registry
    let requests := session.requests operations
    let firsts := Request.firsts requests
    ((firsts.map Request.name).Nodup
        ∧ ∀ name, firsts.find? (·.name == name) = requests.find? (·.name == name))
      ∧ (registry.size = firsts.length
        ∧ ∀ place, registry.identity? place = (firsts[place]?).map fun first =>
            { first.identity with
              hidesStacks := (Registry.lastWrite (session.writes operations) place).getD
                first.identity.hidesStacks })
      ∧ (∀ name, registry.find? name = firsts.findIdx? (·.name == name))
      ∧ (∀ name place, registry.find? name = some place →
          registry.obtain name = pure (place, registry))
      ∧ (∀ name, (registry.obtain name).value.2.find? name
          = some (registry.obtain name).value.1)
      ∧ (∀ earlier, earlier <+: operations → ∀ name place,
          (session.run earlier).value.registry.find? name = some place →
            registry.find? name = some place)
      ∧ Notice.warnings outcome.notices
        = (firsts.flatMap fun first => (first.settings.resolveLevel first.name).notices)
      ∧ registry.settings = (operations.filterMap Operation.settings?).getLastD settings
      ∧ (∀ others, (registry.replaceSettings others).loggers = registry.loggers)
      ∧ registry.names.Pairwise Text.ComesBefore
      ∧ ∀ name, name ∈ registry.names ↔ name ∈ requests.map Request.name := by
  intro session outcome registry requests firsts
  have hnew : session.Recorded [] [] := recorded_new settings layout appender
  obtain ⟨hrecorded, hwarnings⟩ := run_recorded hnew operations
  have hregistry : registry
      = (Registry.ofRequests registry.settings requests).write (session.writes operations) :=
    hrecorded.registry
  have hnames : registry.loggers.map (·.name) = firsts.map Request.name := by
    rw [hregistry, Registry.names_write, Registry.names_ofRequests]
  have hfind : ∀ name, registry.find? name = firsts.findIdx? (·.name == name) := by
    intro name
    rw [hregistry, Registry.find?_write, Registry.find?_ofRequests]
  have hdistinct := Request.nodup_names_firsts requests
  refine ⟨⟨hdistinct, Request.find?_firsts requests⟩, ⟨?_, fun place => ?_⟩, hfind, ?_,
    registry.find?_obtain, ?_, hwarnings, settings_run hnew operations, fun _ => rfl, ?_, ?_⟩
  · have hlength := congrArg List.length hnames
    rwa [List.length_map, List.length_map] at hlength
  · rw [hregistry, Registry.identity?_write, Registry.identity?_ofRequests, Option.map_map]
    rfl
  · intro name place hfound
    rcases registry.obtain_cases name with ⟨found, hsame, hobtain⟩ | ⟨hnone, -⟩
    · obtain rfl := Option.some.inj (hfound.symm.trans hsame)
      exact hobtain
    · rw [hnone] at hfound
      cases hfound
  · rintro earlier ⟨rest, hrest⟩ name place hfound
    have hearlier := (run_recorded hnew earlier).1.registry
    rw [hearlier, Registry.find?_write] at hfound
    have hrequests : requests = session.requests earlier
        ++ (session.run earlier).value.requests rest := by
      rw [← requests_append, hrest]
    rw [hregistry, Registry.find?_write, hrequests]
    exact Registry.find?_ofRequests_append hfound
  · exact Text.pairwise_comesBefore_mergeSort (by rw [hnames]; exact hdistinct)
  · intro name
    rw [← Request.mem_names_firsts_iff, ← hnames, Registry.names]
    exact (List.mergeSort_perm _ _).mem_iff

end

/-- A name is requested, then other settings are in force, then a mute requests it again along with a
new one. -/
theorem registry_tells_history_twice_requested :
    let session := Session.new (Backend.new Settings.empty {} Memory.empty)
    let operations := [Operation.obtain "a".toList,
      .replaceSettings (Settings.ofPairs [("a.LEVEL".toList, "WARN".toList)]),
      .mute "m".toList ["a.b".toList, "a".toList]]
    let registry := (session.run operations).value.registry
    (registry.find? "a".toList = some 0 ∧ registry.obtain "a".toList = pure (0, registry))
      ∧ ((session.run [.obtain "a".toList]).value.registry.find? "a".toList = some 0
        ∧ registry.find? "a".toList = some 0)
      ∧ registry.find? "a.b".toList = some 1 := by
  intro session operations registry
  have hlate := registry_tells_history Settings.empty {} Memory.empty operations
  have hearly := registry_tells_history Settings.empty {} Memory.empty [.obtain "a".toList]
  have hfirst : (session.run [.obtain "a".toList]).value.registry.find? "a".toList = some 0 :=
    (hearly.2.2.1 _).trans (by decide)
  have hfound : registry.find? "a".toList = some 0 := (hlate.2.2.1 _).trans (by decide)
  refine ⟨⟨hfound, hlate.2.2.2.1 _ _ hfound⟩, ⟨hfirst, ?_⟩, (hlate.2.2.1 _).trans (by decide)⟩
  exact hlate.2.2.2.2.2.1 [.obtain "a".toList] ⟨_, rfl⟩ _ _ hfirst

end Session

end Logbook
