import Logbook.Proofs.Name.Lineage

/-!
# Logbook — what a walk asks

A walk asks a probe about one name after the other. The probe may remember what it was asked before,
so which names it is asked about, and in which order, is part of what the walk does.

* **`Search`** — asking a probe about the names of a list until it accepts one; `TurnsDown` is the
  part in front of that.
* **`noting`** — a probe that keeps the names it is asked about, next to whatever else it keeps.
* **`search_findSomeM`** — a search by a noting probe is the search by the probe itself, and what is
  noted is what was asked.
* **`length_ancestry_le`** — a name has at most one more name in its ancestry than it has dots.
* **`walk_asks_lineage`** — the headline.
-/

namespace Logbook.Name

variable {σ α : Type}

/-! ## Searching a list -/

/-- Asked about these names in order, the probe turns all of them down and gets from one state to
another. -/
inductive TurnsDown (probe : Text → StateM σ (Option α)) : List Text → σ → σ → Prop where
  | nil (s : σ) : TurnsDown probe [] s s
  | cons {name : Text} {names : List Text} {s t u : σ} (hname : (probe name).run s = (none, t))
      (hnames : TurnsDown probe names t u) : TurnsDown probe (name :: names) s u

/-- Asking the probe about names in order, from a state on: the names it was asked about, the answer
and the state in the end. -/
inductive Search (probe : Text → StateM σ (Option α)) (names : List Text) (s : σ) :
    List Text → Option α → σ → Prop where
  /-- The first name that the probe accepts is the last one it is asked about. -/
  | accepted {before after : List Text} {name : Text} {found : α} {t u : σ}
      (hnames : names = before ++ name :: after) (hbefore : TurnsDown probe before s t)
      (hname : (probe name).run t = (some found, u)) :
      Search probe names s (before ++ [name]) (some found) u
  /-- Or it was asked about all names. -/
  | exhausted {t : σ} (hnames : TurnsDown probe names s t) : Search probe names s names none t

variable {probe : Text → StateM σ (Option α)} {name : Text} {names asked : List Text} {s t u : σ}
  {answer : Option α}

theorem Search.cons (hname : (probe name).run s = (none, t))
    (h : Search probe names t asked answer u) :
    Search probe (name :: names) s (name :: asked) answer u := by
  cases h with
  | accepted hnames hbefore hfound =>
      rw [hnames]
      exact .accepted rfl (.cons hname hbefore) hfound
  | exhausted hnames => exact .exhausted (.cons hname hnames)

theorem Search.asked_prefix (h : Search probe names s asked answer t) : asked <+: names := by
  cases h with
  | @accepted before after name _ _ _ hnames _ _ =>
      rw [hnames, List.append_cons before name after]
      exact List.prefix_append (before ++ [name]) after
  | exhausted _ => exact List.prefix_refl names

/-! ## Noting what is asked -/

/-- The probe, which also keeps the names that it is asked about. -/
def noting (probe : Text → StateM σ (Option α)) (name : Text) :
    StateM (σ × List Text) (Option α) :=
  fun memory => ((probe name memory.1).1, (probe name memory.1).2, memory.2 ++ [name])

theorem run_noting (h : (probe name).run s = (answer, t)) (noted : List Text) :
    (noting probe name).run (s, noted) = (answer, t, noted ++ [name]) := by
  show ((probe name s).1, (probe name s).2, noted ++ [name]) = _
  rw [show probe name s = (answer, t) from h]

theorem run_findSomeM_cons (probe : Text → StateM σ (Option α)) (name : Text)
    (names : List Text) (s : σ) :
    ((name :: names).findSomeM? probe).run s = match (probe name).run s with
      | (some found, t) => (some found, t)
      | (none, t) => (names.findSomeM? probe).run t := by
  rw [List.findSomeM?_cons, StateT.run_bind]
  obtain ⟨answer, t⟩ := (probe name).run s
  cases answer with
  | some found => rfl
  | none => rfl

/-- **A search notes what it asks.** Induction on the names; one that is turned down changes the
state and what is noted for the rest. -/
theorem search_findSomeM (probe : Text → StateM σ (Option α)) (names : List Text) (s : σ)
    (noted : List Text) :
    ∃ asked answer t, (names.findSomeM? probe).run s = (answer, t)
      ∧ (names.findSomeM? (noting probe)).run (s, noted) = (answer, t, noted ++ asked)
      ∧ Search probe names s asked answer t := by
  induction names generalizing s noted with
  | nil =>
      refine ⟨[], none, s, rfl, ?_, .exhausted (.nil s)⟩
      rw [List.append_nil]
      rfl
  | cons name names ih =>
      rw [run_findSomeM_cons, run_findSomeM_cons]
      obtain ⟨answer, t, hname⟩ : ∃ answer t, (probe name).run s = (answer, t) := ⟨_, _, rfl⟩
      rw [hname, run_noting hname]
      cases answer with
      | some found => exact ⟨[name], some found, t, rfl, rfl, .accepted rfl (.nil s) hname⟩
      | none =>
          obtain ⟨asked, answer, u, hrun, hnoted, hsearch⟩ := ih t (noted ++ [name])
          refine ⟨name :: asked, answer, u, hrun, ?_, hsearch.cons hname⟩
          rw [List.append_cons noted name asked]
          exact hnoted

/-! ## How many names -/

theorem length_ancestry_le_forebears (name : Text) :
    (ancestry name).length ≤ (forebears name).length + 1 := by
  by_cases hname : name = []
  · rw [hname]
    exact Nat.zero_le _
  · rw [ancestry_eq hname, List.length_cons]

theorem length_forebears_le (name : Text) : (forebears name).length ≤ name.count '.' := by
  -- from the end of the name, where cutting finds the dots one by one
  induction name using List.reverseRecOn with
  | nil => exact Nat.zero_le _
  | append_singleton name c ih =>
      by_cases hc : c = '.'
      · subst hc
        have hancestry := length_ancestry_le_forebears name
        rw [forebears_eq, cutLast_concat_dot, List.count_append, List.count_singleton_self]
        dsimp only
        omega
      · rw [forebears_eq, cutLast_concat hc, ← forebears_eq, List.count_append]
        omega

theorem length_ancestry_le (name : Text) : (ancestry name).length ≤ name.count '.' + 1 :=
  (length_ancestry_le_forebears name).trans (Nat.succ_le_succ (length_forebears_le name))

/-- **A walk asks about the lineage of its start.** Whatever the probe keeps in its state, the names
that it is asked about are the non-empty names that are the start or have a dot behind them there,
from the longest to the shortest, and then the root, up to the first one that the probe accepts. The
walk answers what the probe answered there, or nothing if it turned all of them down. Each ancestor
is shorter than the one before, and the probe is asked at most twice more than the start has dots. -/
theorem walk_asks_lineage (probe : Text → StateM σ (Option α)) (start : Text) (state : σ) :
    ∃ asked answer final,
      (walk (noting probe) start).run (state, []) = (answer, final, asked)
        ∧ (walk probe start).run state = (answer, final)
        ∧ Search probe (ancestry start ++ [root]) state asked answer final
        ∧ asked <+: ancestry start ++ [root]
        ∧ (∀ p, p ∈ ancestry start ↔ p ≠ [] ∧ (p = start ∨ p ++ ['.'] <+: start))
        ∧ (ancestry start).Pairwise (fun p q => q.length < p.length)
        ∧ asked.length ≤ start.count '.' + 2 := by
  rw [walk_eq_findSomeM, walk_eq_findSomeM]
  obtain ⟨asked, answer, final, hrun, hnoted, hsearch⟩ :=
    search_findSomeM probe (lineage start) state []
  have hlength : (lineage start).length ≤ start.count '.' + 2 := by
    rw [lineage, List.length_append]
    exact Nat.succ_le_succ (length_ancestry_le start)
  exact ⟨asked, answer, final, hnoted, hrun, hsearch, hsearch.asked_prefix,
    fun _ => mem_ancestry_iff, pairwise_length_ancestry start,
    hsearch.asked_prefix.length_le.trans hlength⟩

end Logbook.Name
