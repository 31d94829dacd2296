import Logbook.Proofs.Session.Run

/-!
# Logbook — writes to a registry

Whether a logger hides stacks is the one thing about it that changes. It changes by writes to its
place, and a write meets nothing else: the loggers that are found, asked for and made are the same
with and without it.

* **`Registry.write`**, **`Registry.lastWrite`** — several writes, and what they leave at a place;
  `identity?_write` ties the two together.
* **`write_obtainAll`** — writes and requests for names do not meet.
* **`obtain_cases`** — all that a request for a name can do.
-/

namespace Logbook

theorem Reported.ext {α : Type} {one other : Reported α} (hvalue : one.value = other.value)
    (hnotices : one.notices = other.notices) : one = other := by
  cases one
  cases other
  cases hvalue
  cases hnotices
  rfl

@[simp] theorem Reported.value_map {α β : Type} (f : α → β) (x : Reported α) :
    (f <$> x).value = f x.value := rfl

@[simp] theorem Reported.notices_map {α β : Type} (f : α → β) (x : Reported α) :
    (f <$> x).notices = x.notices :=
  List.append_nil x.notices

/-- What comes next matters at the value that was reached only. -/
theorem Reported.bind_congr {α β : Type} {x : Reported α} {f g : α → Reported β}
    (h : f x.value = g x.value) : (x >>= f) = (x >>= g) := by
  refine Reported.ext ?_ ?_
  · rw [value_bind, value_bind, h]
  · rw [notices_bind, notices_bind, h]

/-- The logger with another treatment of stacks, if one is given. -/
def Identity.rewritten (identity : Identity) (hides : Option Bool) : Identity :=
  { identity with hidesStacks := hides.getD identity.hidesStacks }

theorem Identity.rewritten_none (identity : Identity) : identity.rewritten none = identity := rfl

theorem Identity.rewritten_rewritten (identity : Identity) (earlier later : Option Bool) :
    (identity.rewritten earlier).rewritten later = identity.rewritten (later.or earlier) := by
  cases later <;> rfl

namespace Registry

/-- Two registries are the same if they have the same settings and, at each place, the same logger. -/
theorem ext_identity? {one other : Registry} (hsettings : one.settings = other.settings)
    (hidentity : ∀ place, one.identity? place = other.identity? place) : one = other := by
  obtain ⟨settings, loggers⟩ := one
  obtain ⟨_, others⟩ := other
  obtain rfl : settings = _ := hsettings
  obtain rfl : loggers = others := List.ext_getElem? hidentity
  rfl

theorem identity?_eq_none_iff {registry : Registry} {place : Handle} :
    registry.identity? place = none ↔ registry.size ≤ place :=
  List.getElem?_eq_none_iff

theorem lt_size_of_identity? {registry : Registry} {place : Handle} {logger : Identity}
    (h : registry.identity? place = some logger) : place < registry.size :=
  (List.getElem?_eq_some_iff.mp h).1

/-- A name is looked for among the names, so nothing but them matters. -/
theorem find?_eq_findIdx?_names (registry : Registry) (name : Text) :
    registry.find? name = (registry.loggers.map (·.name)).findIdx? (· == name) := by
  rw [List.findIdx?_map]
  rfl

/-! ## One write -/

theorem identity?_setHidesStacks (registry : Registry) (handle place : Handle) (hides : Bool) :
    (registry.setHidesStacks handle hides).identity? place
      = (registry.identity? place).map
          (·.rewritten (if handle = place then some hides else none)) := by
  rw [identity?, setHidesStacks, List.getElem?_modify, ← identity?]
  by_cases h : handle = place <;> simp [h, Identity.rewritten]

theorem names_setHidesStacks (registry : Registry) (handle : Handle) (hides : Bool) :
    (registry.setHidesStacks handle hides).loggers.map (·.name) = registry.loggers.map (·.name) := by
  have hsettled := congrArg (List.map (·.name)) (registry.settled_setHidesStacks handle hides)
  rw [List.map_map, List.map_map] at hsettled
  exact hsettled

theorem size_setHidesStacks (registry : Registry) (handle : Handle) (hides : Bool) :
    (registry.setHidesStacks handle hides).size = registry.size := by
  have hlength := congrArg List.length (registry.names_setHidesStacks handle hides)
  rw [List.length_map, List.length_map] at hlength
  exact hlength

theorem find?_setHidesStacks (registry : Registry) (handle : Handle) (hides : Bool) (name : Text) :
    (registry.setHidesStacks handle hides).find? name = registry.find? name := by
  rw [find?_eq_findIdx?_names, find?_eq_findIdx?_names, names_setHidesStacks]

/-! ## Requests -/

/-- **All that a request for a name can do**: find the logger of the name, or make it. -/
theorem obtain_cases (registry : Registry) (name : Text) :
    (∃ handle, registry.find? name = some handle
        ∧ registry.obtain name = pure (handle, registry))
      ∨ (registry.find? name = none
        ∧ registry.obtain name
          = ⟨(registry.size, { registry with loggers :=
                registry.loggers ++ [(Identity.resolve registry.settings name).value] }),
              (Identity.resolve registry.settings name).notices⟩) := by
  unfold obtain
  cases registry.find? name with
  | some handle => exact .inl ⟨handle, rfl, rfl⟩
  | none =>
      refine .inr ⟨rfl, ?_⟩
      exact Reported.ext rfl (List.append_nil _)

theorem find?_obtain (registry : Registry) (name : Text) :
    (registry.obtain name).value.2.find? name = some (registry.obtain name).value.1 := by
  rcases registry.obtain_cases name with ⟨handle, hfound, hobtain⟩ | ⟨hnew, hobtain⟩
  · rw [hobtain]
    exact hfound
  · rw [hobtain]
    rw [find?] at hnew
    have hname : (Identity.resolve registry.settings name).value.name = name := rfl
    simp [find?, List.findIdx?_append, hnew, hname, size, List.findIdx?_cons]

theorem settings_obtain (registry : Registry) (name : Text) :
    (registry.obtain name).value.2.settings = registry.settings := by
  rcases registry.obtain_cases name with ⟨_, _, hobtain⟩ | ⟨_, hobtain⟩
  · rw [hobtain]
    rfl
  · rw [hobtain]

theorem size_le_obtain (registry : Registry) (name : Text) :
    registry.size ≤ (registry.obtain name).value.2.size := by
  rcases registry.obtain_cases name with ⟨_, _, hobtain⟩ | ⟨_, hobtain⟩
  · rw [hobtain]
    exact le_refl registry.size
  · rw [hobtain]
    simp [size]

theorem identity?_obtain (registry : Registry) (name : Text) {place : Handle}
    (hplace : place < registry.size) :
    (registry.obtain name).value.2.identity? place = registry.identity? place := by
  rcases registry.obtain_cases name with ⟨_, _, hobtain⟩ | ⟨_, hobtain⟩
  · rw [hobtain]
    rfl
  · rw [hobtain]
    exact List.getElem?_append_left hplace

/-- A write to a logger that is there does not meet a request. -/
theorem setHidesStacks_obtain (registry : Registry) {handle : Handle}
    (hhandle : handle < registry.size) (hides : Bool) (name : Text) :
    (registry.setHidesStacks handle hides).obtain name
      = (fun answer => (answer.1, answer.2.setHidesStacks handle hides))
          <$> registry.obtain name := by
  have hfind := registry.find?_setHidesStacks handle hides name
  rcases registry.obtain_cases name with ⟨place, hfound, hobtain⟩ | ⟨hnew, hobtain⟩
  · rw [hobtain, map_pure, obtain, hfind, hfound]
  · -- the new logger comes behind the place that is written to
    have hmodify : (registry.loggers ++ [(Identity.resolve registry.settings name).value]).modify
          handle (fun logger => { logger with hidesStacks := hides })
        = registry.loggers.modify handle (fun logger => { logger with hidesStacks := hides })
          ++ [(Identity.resolve registry.settings name).value] := by
      refine List.ext_getElem? fun place => ?_
      rw [List.getElem?_modify]
      rcases Nat.lt_or_ge place registry.loggers.length with hlt | hge
      · rw [List.getElem?_append_left hlt, List.getElem?_append_left (by simpa using hlt),
          List.getElem?_modify]
      · have hother : handle ≠ place := (Nat.lt_of_lt_of_le hhandle hge).ne
        rw [List.getElem?_append_right hge, List.getElem?_append_right (by simpa using hge),
          List.length_modify]
        simp [hother]
    rcases (registry.setHidesStacks handle hides).obtain_cases name with
      ⟨place, hfound, _⟩ | ⟨_, hwritten⟩
    · rw [hfind, hnew] at hfound
      cases hfound
    · rw [hwritten, hobtain]
      refine Reported.ext (Prod.ext (registry.size_setHidesStacks handle hides) ?_) ?_
      · exact congrArg (Registry.mk registry.settings) hmodify.symm
      · rw [Reported.notices_map]
        rfl

/-! ## Several requests -/

theorem obtainAll_nil (registry : Registry) : registry.obtainAll [] = pure registry := rfl

theorem obtainAll_cons (registry : Registry) (name : Text) (rest : List Text) :
    registry.obtainAll (name :: rest)
      = ((·.2) <$> registry.obtain name) >>= fun next => next.obtainAll rest :=
  List.foldlM_cons

theorem obtainAll_append (registry : Registry) (names more : List Text) :
    registry.obtainAll (names ++ more)
      = registry.obtainAll names >>= fun next => next.obtainAll more :=
  List.foldlM_append

theorem settings_obtainAll (registry : Registry) (names : List Text) :
    (registry.obtainAll names).value.settings = registry.settings := by
  induction names generalizing registry with
  | nil => rfl
  | cons name rest ih =>
      rw [obtainAll_cons, Reported.value_bind, ih, Reported.value_map, settings_obtain]

theorem size_le_obtainAll (registry : Registry) (names : List Text) :
    registry.size ≤ (registry.obtainAll names).value.size := by
  induction names generalizing registry with
  | nil => exact le_refl registry.size
  | cons name rest ih => exact (registry.size_le_obtain name).trans (ih _)

/-! ## Several writes -/

/-- Makes loggers hide or show stacks, one after the other. -/
def write (registry : Registry) (writes : List (Handle × Bool)) : Registry :=
  writes.foldl (fun registry write => registry.setHidesStacks write.1 write.2) registry

/-- What was last written to a place, if anything was. -/
def lastWrite (writes : List (Handle × Bool)) (place : Handle) : Option Bool :=
  writes.reverse.lookup place

theorem lastWrite_append (writes more : List (Handle × Bool)) (place : Handle) :
    lastWrite (writes ++ more) place = (lastWrite more place).or (lastWrite writes place) := by
  rw [lastWrite, List.reverse_append, List.lookup_append]
  rfl

/-- The same value written to several places is what they hold. -/
theorem lastWrite_map (handles : List Handle) (hides : Bool) (place : Handle) :
    lastWrite (handles.map (·, hides)) place = if place ∈ handles then some hides else none := by
  induction handles with
  | nil => rfl
  | cons handle rest ih =>
      have hsingle : lastWrite [(handle, hides)] place
          = if place = handle then some hides else none := by
        by_cases h : place = handle
        · simp [lastWrite, h]
        · have hkey : (place == handle) = false := beq_eq_false_iff_ne.mpr h
          simp [lastWrite, List.lookup_cons, hkey, h]
      rw [List.map_cons, ← List.singleton_append, lastWrite_append, ih, hsingle]
      by_cases hrest : place ∈ rest <;> simp [hrest]

theorem write_nil (registry : Registry) : registry.write [] = registry := rfl

theorem write_cons (registry : Registry) (write : Handle × Bool) (rest : List (Handle × Bool)) :
    registry.write (write :: rest) = (registry.setHidesStacks write.1 write.2).write rest := rfl

theorem write_append (registry : Registry) (writes more : List (Handle × Bool)) :
    registry.write (writes ++ more) = (registry.write writes).write more :=
  List.foldl_append

/-- **A place holds what was last written to it.** -/
theorem identity?_write (registry : Registry) (writes : List (Handle × Bool)) (place : Handle) :
    (registry.write writes).identity? place
      = (registry.identity? place).map (·.rewritten (lastWrite writes place)) := by
  induction writes generalizing registry with
  | nil =>
      rw [write_nil]
      cases registry.identity? place <;> rfl
  | cons write rest ih =>
      have hfirst : lastWrite [write] place = if write.1 = place then some write.2 else none := by
        have hmap := lastWrite_map [write.1] write.2 place
        simpa [eq_comm] using hmap
      rw [write_cons, ih, identity?_setHidesStacks, Option.map_map, ← List.singleton_append,
        lastWrite_append, hfirst]
      refine congrArg (fun change => Option.map change (registry.identity? place)) ?_
      funext logger
      exact logger.rewritten_rewritten _ _

theorem settings_write (registry : Registry) (writes : List (Handle × Bool)) :
    (registry.write writes).settings = registry.settings := by
  induction writes generalizing registry with
  | nil => rfl
  | cons write rest ih => exact ih (registry.setHidesStacks write.1 write.2)

theorem names_write (registry : Registry) (writes : List (Handle × Bool)) :
    (registry.write writes).loggers.map (·.name) = registry.loggers.map (·.name) := by
  induction writes generalizing registry with
  | nil => rfl
  | cons write rest ih => rw [write_cons, ih, names_setHidesStacks]

theorem size_write (registry : Registry) (writes : List (Handle × Bool)) :
    (registry.write writes).size = registry.size := by
  have hlength := congrArg List.length (registry.names_write writes)
  rw [List.length_map, List.length_map] at hlength
  exact hlength

theorem find?_write (registry : Registry) (writes : List (Handle × Bool)) (name : Text) :
    (registry.write writes).find? name = registry.find? name := by
  rw [find?_eq_findIdx?_names, find?_eq_findIdx?_names, names_write]

/-- The places that are written to are those of loggers that are there. -/
def Fits (registry : Registry) (writes : List (Handle × Bool)) : Prop :=
  ∀ write ∈ writes, write.1 < registry.size

theorem write_obtain {registry : Registry} {writes : List (Handle × Bool)}
    (hfits : registry.Fits writes) (name : Text) :
    (registry.write writes).obtain name
      = (fun answer => (answer.1, answer.2.write writes)) <$> registry.obtain name := by
  induction writes generalizing registry with
  | nil => exact (id_map (registry.obtain name)).symm
  | cons write rest ih =>
      have hwrite : write.1 < registry.size := hfits write List.mem_cons_self
      have hrest : (registry.setHidesStacks write.1 write.2).Fits rest := by
        intro later hlater
        rw [size_setHidesStacks]
        exact hfits later (List.mem_cons_of_mem write hlater)
      rw [write_cons, ih hrest, setHidesStacks_obtain registry hwrite, ← comp_map]
      rfl

/-- **Writes and requests do not meet.** -/
theorem write_obtainAll {registry : Registry} {writes : List (Handle × Bool)}
    (hfits : registry.Fits writes) (names : List Text) :
    (registry.write writes).obtainAll names = (·.write writes) <$> registry.obtainAll names := by
  induction names generalizing registry with
  | nil => rfl
  | cons name rest ih =>
      have hnext : (registry.obtain name).value.2.Fits writes := fun write hwrite =>
        (hfits write hwrite).trans_le (registry.size_le_obtain name)
      -- the first answer without its writes, and the others with them, by induction
      calc (registry.write writes).obtainAll (name :: rest)
          = ((·.2.write writes) <$> registry.obtain name) >>= fun next => next.obtainAll rest := by
            rw [obtainAll_cons, write_obtain hfits, ← comp_map]
            rfl
        _ = ((·.2) <$> registry.obtain name) >>= fun next =>
              (next.write writes).obtainAll rest := by
            rw [bind_map_left, bind_map_left]
        _ = ((·.2) <$> registry.obtain name) >>= fun next =>
              (·.write writes) <$> next.obtainAll rest := by
            exact Reported.bind_congr (ih hnext)
        _ = (·.write writes) <$> registry.obtainAll (name :: rest) := by
            rw [obtainAll_cons, map_bind]

end Registry

end Logbook
