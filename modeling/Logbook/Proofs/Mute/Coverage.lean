import Logbook.Proofs.Registry.Requests
import Mathlib.Data.List.Nodup

/-!
# Logbook — what a mute covers

A mute is made name by name, while the registry grows with the names. What comes out does not show
it: the registry is that of the requests for the names, and just those loggers are muted that take
part and are named or lie below a name.

* **`Mute.concerns`** — the loggers that a list of names stands for.
* **`Mute.Covers`** — a mute halfway: which loggers it was offered, and what it did to them. One lemma
  for each step: `Covers.add`, `Covers.addAll`, `Covers.addTree`.
* **`Mute.ofNames_covers`** — the finished mute; **`Mute.drop_eq_write`** — its end.
-/

namespace Logbook

namespace Mute

/-- Whether a list of names stands for a logger: its name is one of them or lies below one. -/
def concerns (names : List Text) (logger : Text) : Bool :=
  names.any fun name => logger == name || Name.isBelow name logger

theorem concerns_append (names more : List Text) (logger : Text) :
    concerns (names ++ more) logger = (concerns names logger || concerns more logger) :=
  List.any_append

theorem concerns_singleton (name logger : Text) :
    concerns [name] logger = (logger == name || Name.isBelow name logger) :=
  Bool.or_false _

end Mute

namespace Registry

/-- The logger at a place is one that the names stand for. -/
def IsConcerned (registry : Registry) (names : List Text) (place : Handle) : Prop :=
  ∃ logger, registry.identity? place = some logger ∧ Mute.concerns names logger.name = true

/-- The logger at a place takes part in muting. -/
def TakesPart (registry : Registry) (place : Handle) : Prop :=
  ∃ logger, registry.identity? place = some logger ∧ Mute.applies logger = true

/-- No two loggers have the same name. -/
def IsDistinct (registry : Registry) : Prop :=
  (registry.loggers.map (·.name)).Nodup

theorem any_identity?_iff {registry : Registry} {place : Handle} {p : Identity → Bool} :
    (registry.identity? place).any p = true
      ↔ ∃ logger, registry.identity? place = some logger ∧ p logger = true := by
  cases registry.identity? place <;> simp

theorem mem_descendants_iff {registry : Registry} {parent : Text} {place : Handle} :
    place ∈ registry.descendants parent
      ↔ ∃ logger, registry.identity? place = some logger
          ∧ Name.isBelow parent logger.name = true := by
  rw [descendants, List.mem_filter, any_identity?_iff, List.mem_range, and_iff_right_iff_imp]
  rintro ⟨logger, hlogger, -⟩
  exact lt_size_of_identity? hlogger

theorem identity?_find? {registry : Registry} {name : Text} {place : Handle}
    (hfound : registry.find? name = some place) :
    ∃ logger, registry.identity? place = some logger ∧ logger.name = name := by
  obtain ⟨hbound, hname, _⟩ := List.findIdx?_eq_some_iff_getElem.mp hfound
  exact ⟨_, List.getElem?_eq_getElem hbound, beq_iff_eq.mp hname⟩

theorem descendants_write (registry : Registry) (writes : List (Handle × Bool)) (parent : Text) :
    (registry.write writes).descendants parent = registry.descendants parent := by
  rw [descendants, descendants, size_write]
  refine List.filter_congr fun place _ => ?_
  rw [identity?_write]
  cases registry.identity? place <;> rfl

/-- The place that is found for a name is the only one with a logger of this name. -/
theorem IsDistinct.eq_of_find? {registry : Registry} (hdistinct : registry.IsDistinct)
    {place found : Handle} {logger : Identity} (hlogger : registry.identity? place = some logger)
    (hfound : registry.find? logger.name = some found) : place = found := by
  obtain ⟨other, hother, hname⟩ := identity?_find? hfound
  have hnames : ∀ {at_ : Handle} {found : Identity}, registry.identity? at_ = some found →
      (registry.loggers.map (·.name))[at_]? = some found.name := by
    intro at_ found h
    rw [List.getElem?_map, ← identity?, h]
    rfl
  have hlt : place < (registry.loggers.map (·.name)).length :=
    (List.getElem?_eq_some_iff.mp (hnames hlogger)).1
  refine (List.getElem?_inj hlt hdistinct).mp ?_
  rw [hnames hlogger, hnames hother, hname]

theorem IsDistinct.obtain {registry : Registry} (hdistinct : registry.IsDistinct) (name : Text) :
    (registry.obtain name).value.2.IsDistinct := by
  rcases registry.obtain_cases name with ⟨_, _, hobtain⟩ | ⟨hnew, hobtain⟩
  · rw [hobtain]
    exact hdistinct
  · rw [hobtain]
    have habsent : name ∉ registry.loggers.map (·.name) := by
      rw [find?_eq_findIdx?_names, List.findIdx?_eq_none_iff] at hnew
      intro hmem
      simpa using hnew name hmem
    unfold IsDistinct
    rw [List.map_append, List.map_singleton]
    exact List.nodup_append'.mpr ⟨hdistinct, List.nodup_singleton name,
      List.disjoint_singleton.mpr habsent⟩

theorem IsDistinct.obtainAll {registry : Registry} (hdistinct : registry.IsDistinct)
    (names : List Text) : (registry.obtainAll names).value.IsDistinct := by
  induction names generalizing registry with
  | nil => exact hdistinct
  | cons name rest ih => exact ih (hdistinct.obtain name)

theorem isDistinct_ofRequests (settings : Settings) (requests : List Request) :
    (ofRequests settings requests).IsDistinct := by
  rw [IsDistinct, names_ofRequests]
  exact Request.nodup_names_firsts requests

theorem IsDistinct.write {registry : Registry} (hdistinct : registry.IsDistinct)
    (writes : List (Handle × Bool)) : (registry.write writes).IsDistinct := by
  rw [IsDistinct, names_write]
  exact hdistinct

end Registry

namespace Mute

open Registry

/-! ## A mute halfway -/

/-- The mute was offered the loggers at the reached places of a registry, one after the other: it has
muted those of them that take part, each once, and has done nothing else. -/
structure Covers (base : Registry) (reached : Handle → Prop) (state : Mute × Registry) : Prop where
  registry : state.2 = base.write (state.1.muted.map (·, true))
  nodup : state.1.muted.Nodup
  mem : ∀ place, place ∈ state.1.muted ↔ reached place ∧ base.TakesPart place

variable {base : Registry} {reached : Handle → Prop} {mute : Mute} {registry : Registry}

theorem Covers.fits {state : Mute × Registry} (h : Covers base reached state) :
    base.Fits (state.1.muted.map (·, true)) := by
  intro write hwrite
  obtain ⟨place, hplace, rfl⟩ := List.mem_map.mp hwrite
  obtain ⟨-, logger, hlogger, -⟩ := (h.mem place).mp hplace
  exact lt_size_of_identity? hlogger

/-- A logger that is muted already does not take part any more; the others take part as before. -/
theorem takesPart_write_iff (base : Registry) (muted : List Handle) (place : Handle) :
    (base.write (muted.map (·, true))).TakesPart place ↔ base.TakesPart place ∧ place ∉ muted := by
  unfold TakesPart
  rw [identity?_write, lastWrite_map]
  by_cases hmuted : place ∈ muted
  · cases base.identity? place <;> simp [hmuted, Identity.rewritten, applies]
  · simp [hmuted, Identity.rewritten_none]

theorem Covers.congr {state : Mute × Registry} {other : Handle → Prop}
    (h : Covers base reached state)
    (hiff : ∀ place, base.TakesPart place → (reached place ↔ other place)) :
    Covers base other state := by
  refine ⟨h.registry, h.nodup, fun place => (h.mem place).trans ?_⟩
  constructor
  · rintro ⟨hreached, hpart⟩
    exact ⟨(hiff place hpart).mp hreached, hpart⟩
  · rintro ⟨hother, hpart⟩
    exact ⟨(hiff place hpart).mpr hother, hpart⟩

theorem Covers.add (h : Covers base reached (mute, registry)) (handle : Handle) :
    Covers base (fun place => reached place ∨ place = handle) (mute.add registry handle) := by
  have hregistry : registry = base.write (mute.muted.map (·, true)) := h.registry
  have hmem : ∀ place, place ∈ mute.muted ↔ reached place ∧ base.TakesPart place := h.mem
  have htakes := takesPart_write_iff base mute.muted handle
  rw [← hregistry] at htakes
  unfold Mute.add
  split
  · next happlies =>
    obtain ⟨hpart, hfree⟩ := htakes.mp (any_identity?_iff.mp happlies)
    refine ⟨?_, ?_, fun place => ?_⟩
    · rw [hregistry, List.map_append, write_append]
      rfl
    · exact List.nodup_append'.mpr ⟨h.nodup, List.nodup_singleton handle,
        List.disjoint_singleton.mpr hfree⟩
    · rw [List.mem_append, List.mem_singleton, hmem]
      constructor
      · rintro (⟨hreached, hplace⟩ | rfl)
        · exact ⟨.inl hreached, hplace⟩
        · exact ⟨.inr rfl, hpart⟩
      · rintro ⟨hreached | rfl, hplace⟩
        · exact .inl ⟨hreached, hplace⟩
        · exact .inr rfl
  · next hnot =>
    refine ⟨h.registry, h.nodup, fun place => ?_⟩
    constructor
    · intro hplace
      obtain ⟨hreached, hpart⟩ := (hmem place).mp hplace
      exact ⟨.inl hreached, hpart⟩
    · rintro ⟨hreached | rfl, hpart⟩
      · exact (hmem place).mpr ⟨hreached, hpart⟩
      · -- it takes part in the base but not any more, so it is muted
        by_contra hfree
        exact hnot (any_identity?_iff.mpr (htakes.mpr ⟨hpart, hfree⟩))

theorem Covers.addAll (h : Covers base reached (mute, registry)) (handles : List Handle) :
    Covers base (fun place => reached place ∨ place ∈ handles) (mute.addAll registry handles) := by
  unfold Mute.addAll
  induction handles generalizing mute registry reached with
  | nil => simpa using h
  | cons handle rest ih =>
      have hnext : Covers base _ ((mute.add registry handle).1, (mute.add registry handle).2) :=
        h.add handle
      refine (ih hnext).congr fun place _ => ?_
      rw [List.mem_cons, or_assoc]

/-! ## A mute over names -/

/-- With one more name, the names stand for the logger of this name and for those below it. -/
theorem isConcerned_concat_iff (hdistinct : base.IsDistinct) (names : List Text) (name : Text)
    (place : Handle) :
    (base.obtain name).value.2.IsConcerned (names ++ [name]) place
      ↔ (base.IsConcerned names place ∨ place = (base.obtain name).value.1)
        ∨ place ∈ (base.obtain name).value.2.descendants name := by
  have hfound := base.find?_obtain name
  obtain ⟨named, hnamed, hname⟩ := identity?_find? hfound
  rw [mem_descendants_iff]
  unfold IsConcerned
  constructor
  · rintro ⟨logger, hlogger, hconcerns⟩
    rw [concerns_append, concerns_singleton, Bool.or_eq_true, Bool.or_eq_true, beq_iff_eq]
      at hconcerns
    rcases hconcerns with hearlier | rfl | hbelow
    · rcases Nat.lt_or_ge place base.size with hlt | hge
      · rw [base.identity?_obtain name hlt] at hlogger
        exact .inl (.inl ⟨logger, hlogger, hearlier⟩)
      · -- the only logger that was not there before is that of the name itself
        refine .inl (.inr ?_)
        rcases base.obtain_cases name with ⟨_, _, hobtain⟩ | ⟨_, hobtain⟩
        · rw [hobtain] at hlogger
          exact absurd (lt_size_of_identity? hlogger) (Nat.not_lt.mpr hge)
        · rw [hobtain] at hlogger ⊢
          have hlt : place < (base.loggers ++ [_]).length := lt_size_of_identity? hlogger
          rw [List.length_append, List.length_singleton] at hlt
          exact Nat.le_antisymm (Nat.le_of_lt_succ hlt) hge
    · exact .inl (.inr ((hdistinct.obtain _).eq_of_find? hlogger hfound))
    · exact .inr ⟨logger, hlogger, hbelow⟩
  · rintro ((⟨logger, hlogger, hconcerns⟩ | rfl) | ⟨logger, hlogger, hbelow⟩)
    · refine ⟨logger, ?_, by simp [concerns_append, hconcerns]⟩
      rw [base.identity?_obtain name (lt_size_of_identity? hlogger), hlogger]
    · exact ⟨named, hnamed, by simp [concerns_append, concerns_singleton, hname]⟩
    · exact ⟨logger, hlogger, by simp [concerns_append, concerns_singleton, hbelow]⟩

/-- The names of a mute are taken up one after the other; here comes one more. -/
theorem Covers.addTree {names : List Text}
    (h : Covers base (base.IsConcerned names) (mute, registry)) (hdistinct : base.IsDistinct)
    (name : Text) :
    (mute.addTree registry name).notices = (base.obtain name).notices
      ∧ Covers (base.obtain name).value.2
          ((base.obtain name).value.2.IsConcerned (names ++ [name]))
          (mute.addTree registry name).value := by
  have hobtain : registry.obtain name
      = (fun answer => (answer.1, answer.2.write (mute.muted.map (·, true))))
          <$> base.obtain name := by
    have hregistry : registry = base.write (mute.muted.map (·, true)) := h.registry
    rw [hregistry]
    exact write_obtain h.fits name
  -- what was muted so far is still what it should be, now that the registry has grown
  have hgrown : Covers (base.obtain name).value.2 (base.IsConcerned names)
      (mute, (base.obtain name).value.2.write (mute.muted.map (·, true))) := by
    refine ⟨rfl, h.nodup, fun place => (h.mem place).trans ?_⟩
    refine and_congr_right fun hconcerned => ?_
    obtain ⟨logger, hlogger, -⟩ := hconcerned
    unfold TakesPart
    rw [base.identity?_obtain name (lt_size_of_identity? hlogger)]
  have hnamed := hgrown.add (base.obtain name).value.1
  have hbelow := hnamed.addAll ((base.obtain name).value.2.descendants name)
  have hmade : mute.addTree registry name
      = ⟨(mute.add ((base.obtain name).value.2.write (mute.muted.map (·, true)))
            (base.obtain name).value.1).1.addAll
          (mute.add ((base.obtain name).value.2.write (mute.muted.map (·, true)))
            (base.obtain name).value.1).2 ((base.obtain name).value.2.descendants name),
        (base.obtain name).notices⟩ := by
    have hdescendants := congrArg (descendants · name) hnamed.registry
    rw [descendants_write] at hdescendants
    rw [Mute.addTree, hobtain]
    refine Reported.ext ?_ ?_
    · simp only [Reported.value_bind, Reported.value_map, Reported.value_pure, hdescendants]
    · simp only [Reported.notices_bind, Reported.notices_map, Reported.notices_pure,
        List.append_nil]
  rw [hmade]
  exact ⟨rfl, hbelow.congr fun place _ => (isConcerned_concat_iff hdistinct names name place).symm⟩

theorem covers_foldlM {names : List Text} {state : Mute × Registry}
    (h : Covers base (base.IsConcerned names) state) (hdistinct : base.IsDistinct)
    (more : List Text) :
    let made := more.foldlM (fun state name => state.1.addTree state.2 name) state
    made.notices = (base.obtainAll more).notices
      ∧ Covers (base.obtainAll more).value
          ((base.obtainAll more).value.IsConcerned (names ++ more)) made.value := by
  -- the registry without the muting grows along
  induction more generalizing base names state with
  | nil =>
      rw [List.append_nil]
      exact ⟨rfl, h⟩
  | cons name rest ih =>
      obtain ⟨hnotices, hcovers⟩ := h.addTree hdistinct name
      have hrest := ih hcovers (hdistinct.obtain name)
      rw [List.append_assoc, List.singleton_append] at hrest
      rw [List.foldlM_cons, obtainAll_cons]
      refine ⟨?_, hrest.2⟩
      rw [Reported.notices_bind, Reported.notices_bind, hnotices, hrest.1, Reported.notices_map]
      rfl

/-- **What a mute covers.** Its names are requested, with the notices this leaves. It has muted just
those loggers that take part and are named or lie below a name, each once. -/
theorem ofNames_covers {registry : Registry} (hdistinct : registry.IsDistinct) (names : List Text) :
    (ofNames registry names).notices = (registry.obtainAll names).notices
      ∧ Covers (registry.obtainAll names).value
          ((registry.obtainAll names).value.IsConcerned names) (ofNames registry names).value := by
  have hempty : Covers registry (registry.IsConcerned []) (⟨[]⟩, registry) := by
    refine ⟨rfl, List.nodup_nil, fun place => ?_⟩
    simp [IsConcerned, concerns]
  exact covers_foldlM hempty hdistinct names

theorem drop_eq_write (mute : Mute) (registry : Registry) :
    mute.drop registry = registry.write (mute.muted.map (·, false)) := by
  rw [write, List.foldl_map]
  rfl

end Mute

end Logbook
