import Logbook.Proofs.Registry.Writes
import Logbook.Proofs.Text.Order

/-!
# Logbook — a registry is made of first requests

Every logger goes back to the first request for its name, and to the settings that were in force
then. A later request for the name resolves nothing, under whatever settings.

* **`Request`**, **`Request.identity`**, **`Request.warnings`** — a request, the logger it makes if it
  is the first one for its name, and what is left on the way.
* **`Request.firsts`** — the first request for each name; `find?_firsts` and `nodup_firsts` say that
  it is.
* **`Registry.ofRequests`** — the registry of the first requests. One more request gives the registry
  of one more request: `obtain_ofRequests`, `obtainAll_ofRequests`.
-/

namespace Logbook

/-! ## Requests -/

/-- A request for the logger of a name, and the settings that are in force. -/
structure Request where
  name : Text
  settings : Settings

namespace Request

/-- The logger that the request makes: its level and its treatment of stacks are what the name
resolves to. -/
def identity (request : Request) : Identity :=
  Identity.new request.name (request.settings.resolveLevel request.name).value
    (request.settings.resolveHidesStacks request.name)

/-- What resolving the name leaves. -/
def warnings (request : Request) : List Notice :=
  (request.settings.resolveLevel request.name).notices

theorem resolve_eq (request : Request) :
    Identity.resolve request.settings request.name = ⟨request.identity, request.warnings⟩ :=
  Reported.ext rfl (List.append_nil _)

/-- The requests whose name is not among the known ones and was not requested before. -/
def fresh : List Text → List Request → List Request
  | _, [] => []
  | known, request :: rest =>
    let later := fresh (known ++ [request.name]) rest
    if known.contains request.name then later else request :: later

/-- The first request for each name. -/
def firsts (requests : List Request) : List Request :=
  fresh [] requests

theorem fresh_cons (known : List Text) (request : Request) (rest : List Request) :
    fresh known (request :: rest)
      = if request.name ∈ known then fresh (known ++ [request.name]) rest
        else request :: fresh (known ++ [request.name]) rest := by
  rw [fresh]
  exact if_congr List.contains_iff_mem rfl rfl

theorem fresh_append (known : List Text) (requests more : List Request) :
    fresh known (requests ++ more)
      = fresh known requests ++ fresh (known ++ requests.map name) more := by
  induction requests generalizing known with
  | nil => simp [fresh]
  | cons request rest ih =>
      simp only [List.cons_append, fresh_cons, ih, List.map_cons, List.append_assoc]
      split <;> rfl

theorem firsts_append (requests more : List Request) :
    firsts (requests ++ more) = firsts requests ++ fresh (requests.map name) more := by
  rw [firsts, fresh_append, List.nil_append]
  rfl

theorem fresh_singleton (known : List Text) (request : Request) :
    fresh known [request] = if request.name ∈ known then [] else [request] :=
  fresh_cons known request []

/-- A name that is not known is first requested by the request that is kept for it. -/
theorem find?_fresh {known : List Text} {wanted : Text} (hwanted : wanted ∉ known)
    (requests : List Request) :
    (fresh known requests).find? (·.name == wanted) = requests.find? (·.name == wanted) := by
  induction requests generalizing known with
  | nil => rfl
  | cons request rest ih =>
      rw [fresh_cons]
      by_cases hname : request.name = wanted
      · subst hname
        simp [hwanted]
      · -- whether the request is kept or not, it is for another name
        have hother : (request.name == wanted) = false := beq_eq_false_iff_ne.mpr hname
        have hunknown : wanted ∉ known ++ [request.name] := by simp [hwanted, Ne.symm hname]
        have hrest := ih hunknown
        split
        · rw [hrest, List.find?_cons_of_neg (by simp [hother])]
        · rw [List.find?_cons_of_neg (by simp [hother]), hrest,
            List.find?_cons_of_neg (by simp [hother])]

theorem find?_firsts (requests : List Request) (wanted : Text) :
    (firsts requests).find? (·.name == wanted) = requests.find? (·.name == wanted) :=
  find?_fresh (by simp) requests

theorem mem_names_iff_find? {requests : List Request} {wanted : Text} :
    wanted ∈ requests.map name ↔ (requests.find? (·.name == wanted)).isSome := by
  simp [List.find?_isSome]

theorem mem_names_firsts_iff {requests : List Request} {wanted : Text} :
    wanted ∈ (firsts requests).map name ↔ wanted ∈ requests.map name := by
  rw [mem_names_iff_find?, mem_names_iff_find?, find?_firsts]

theorem name_not_mem_of_mem_fresh {known : List Text} {requests : List Request} {kept : Request}
    (hkept : kept ∈ fresh known requests) : kept.name ∉ known := by
  induction requests generalizing known with
  | nil => cases hkept
  | cons request rest ih =>
      have hrest : kept ∈ fresh (known ++ [request.name]) rest → kept.name ∉ known :=
        fun hlater hknown => ih hlater (List.mem_append_left _ hknown)
      rw [fresh_cons] at hkept
      split at hkept
      · exact hrest hkept
      · next hnew =>
        rcases List.mem_cons.mp hkept with rfl | hlater
        · exact hnew
        · exact hrest hlater

theorem nodup_names_fresh (known : List Text) (requests : List Request) :
    ((fresh known requests).map name).Nodup := by
  induction requests generalizing known with
  | nil => exact List.nodup_nil
  | cons request rest ih =>
      rw [fresh_cons]
      split
      · exact ih _
      · refine List.nodup_cons.mpr ⟨fun hlater => ?_, ih _⟩
        obtain ⟨kept, hkept, hname⟩ := List.mem_map.mp hlater
        exact name_not_mem_of_mem_fresh hkept (by simp [hname])

theorem nodup_names_firsts (requests : List Request) : ((firsts requests).map name).Nodup :=
  nodup_names_fresh [] requests

end Request

/-! ## The registry of the first requests -/

namespace Registry

open Request

/-- The loggers that the first request for each name makes, in this order. -/
def ofRequests (settings : Settings) (requests : List Request) : Registry :=
  ⟨settings, (firsts requests).map identity⟩

theorem names_ofRequests (settings : Settings) (requests : List Request) :
    (ofRequests settings requests).loggers.map (·.name) = (firsts requests).map Request.name := by
  rw [ofRequests, List.map_map]
  rfl

theorem identity?_ofRequests (settings : Settings) (requests : List Request) (place : Handle) :
    (ofRequests settings requests).identity? place
      = ((firsts requests)[place]?).map Request.identity :=
  List.getElem?_map

theorem find?_ofRequests (settings : Settings) (requests : List Request) (wanted : Text) :
    (ofRequests settings requests).find? wanted
      = (firsts requests).findIdx? (·.name == wanted) := by
  rw [find?_eq_findIdx?_names, names_ofRequests, List.findIdx?_map]
  rfl

theorem find?_ofRequests_eq_none_iff {settings : Settings} {requests : List Request}
    {wanted : Text} :
    (ofRequests settings requests).find? wanted = none ↔ wanted ∉ requests.map Request.name := by
  rw [find?_ofRequests, List.findIdx?_eq_none_iff, ← mem_names_firsts_iff]
  simp

/-- A logger that was found once is found at the same place ever after. -/
theorem find?_ofRequests_append {settings later : Settings} {requests more : List Request}
    {wanted : Text} {place : Handle}
    (hfound : (ofRequests settings requests).find? wanted = some place) :
    (ofRequests later (requests ++ more)).find? wanted = some place := by
  rw [find?_ofRequests] at hfound ⊢
  rw [firsts_append, List.findIdx?_append, hfound, Option.some_or]

/-- **One more request gives the registry of one more request.** -/
theorem obtain_ofRequests (settings : Settings) (requests : List Request) (wanted : Text) :
    (·.2) <$> (ofRequests settings requests).obtain wanted
      = ⟨ofRequests settings (requests ++ [⟨wanted, settings⟩]),
          (fresh (requests.map Request.name) [⟨wanted, settings⟩]).flatMap warnings⟩ := by
  have hmore := firsts_append requests [⟨wanted, settings⟩]
  rw [fresh_singleton] at hmore ⊢
  rcases (ofRequests settings requests).obtain_cases wanted with
    ⟨place, hfound, hobtain⟩ | ⟨hnew, hobtain⟩
  · have hknown : wanted ∈ requests.map Request.name := by
      by_contra hunknown
      rw [find?_ofRequests_eq_none_iff.mpr hunknown] at hfound
      cases hfound
    rw [hobtain, map_pure]
    rw [if_pos hknown] at hmore ⊢
    rw [ofRequests, ofRequests, hmore, List.append_nil]
    rfl
  · have hunknown := find?_ofRequests_eq_none_iff.mp hnew
    have hresolve := resolve_eq ⟨wanted, settings⟩
    rw [if_neg hunknown] at hmore ⊢
    refine Reported.ext ?_ ?_
    · rw [hobtain, Reported.value_map, ofRequests, ofRequests, hmore, List.map_append]
      rfl
    · rw [hobtain, Reported.notices_map, ofRequests, hresolve, List.flatMap_singleton]

/-- **Several more requests give the registry of several more requests.** What is left on the way
comes from those that are the first ones for their names. -/
theorem obtainAll_ofRequests (settings : Settings) (requests : List Request) (names : List Text) :
    (ofRequests settings requests).obtainAll names
      = ⟨ofRequests settings (requests ++ names.map (⟨·, settings⟩)),
          (fresh (requests.map Request.name) (names.map (⟨·, settings⟩))).flatMap warnings⟩ := by
  induction names generalizing requests with
  | nil =>
      rw [obtainAll_nil, List.map_nil, List.append_nil]
      rfl
  | cons wanted rest ih =>
      have hfresh := fresh_append (requests.map Request.name) [⟨wanted, settings⟩]
        (rest.map (⟨·, settings⟩))
      rw [obtainAll_cons, obtain_ofRequests]
      refine Reported.ext ?_ ?_
      · rw [Reported.value_bind, ih, List.append_assoc]
        rfl
      · have hnotices := congrArg (List.flatMap warnings) hfresh
        rw [List.flatMap_append] at hnotices
        rw [Reported.notices_bind, ih, List.map_append]
        exact hnotices.symm

end Registry

end Logbook
