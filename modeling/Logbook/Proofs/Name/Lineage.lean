import Logbook.Name
import Logbook.Proofs.Text.Trailing
import Mathlib.Data.List.Infix

/-!
# Logbook — the lineage of a name

The names that a query walks through, said by what they are and not by how they are found: a name,
then every non-empty name in front of one of its dots, the longest first, and then the root.

* **`Name.ancestry`**, **`Name.lineage`** — these names, without and with the root.
* **`mem_ancestry_iff`**, **`pairwise_length_ancestry`** — which they are, and in which order.
* **`walk_eq_findSomeM`** — the walk probes the lineage in order and stops at the first answer,
  whatever the probe does besides.
* **`IsStem`**, **`isStem_iff`** — what is left of a name after normalization, again said without
  `Name.normalize`.
-/

namespace Logbook.Name

/-- The non-empty prefixes of a name that are the name itself or have a dot behind them, the longest
first. -/
def ancestry (name : Text) : List Text :=
  name.inits.reverse.filter fun p => !p.isEmpty && (p == name || (p ++ ['.']).isPrefixOf name)

/-- The names that a query for a name walks through. -/
def lineage (name : Text) : List Text :=
  ancestry name ++ [root]

theorem mem_ancestry_iff {name p : Text} :
    p ∈ ancestry name ↔ p ≠ [] ∧ (p = name ∨ p ++ ['.'] <+: name) := by
  have hprefix : p = name ∨ p ++ ['.'] <+: name → p <+: name := by
    rintro (rfl | h)
    · exact List.prefix_refl p
    · exact (List.prefix_append p ['.']).trans h
  simp only [ancestry, List.mem_filter, List.mem_reverse, List.mem_inits, Bool.and_eq_true,
    Bool.or_eq_true, Bool.not_eq_true', beq_iff_eq, List.isPrefixOf_iff_prefix,
    List.isEmpty_eq_false_iff]
  tauto

theorem pairwise_length_inits {α : Type} (l : List α) :
    l.inits.Pairwise fun a b => a.length < b.length := by
  rw [List.pairwise_iff_getElem]
  intro i j hi hj hij
  rw [List.length_inits] at hi hj
  rw [List.getElem_inits, List.getElem_inits, List.length_take, List.length_take]
  omega

theorem pairwise_length_ancestry (name : Text) :
    (ancestry name).Pairwise fun a b => b.length < a.length := by
  unfold ancestry
  apply List.Pairwise.filter
  rw [List.pairwise_reverse]
  exact pairwise_length_inits name

/-! ## Cutting at the last dot

The walk finds the next name by cutting at the last dot. Read from the end of the name, a dot there
is the last one, and any other character is not. -/

theorem cutLast_concat_dot (name : Text) : cutLast (name ++ ['.']) = some name := by
  simp [cutLast]

theorem cutLast_concat {c : Char} (hc : c ≠ '.') (name : Text) :
    cutLast (name ++ [c]) = cutLast name := by
  simp [cutLast, hc]

/-- The names behind the first one of the ancestry: those with a dot behind them. -/
def forebears (name : Text) : List Text :=
  name.inits.reverse.filter fun p => !p.isEmpty && (p ++ ['.']).isPrefixOf name

theorem reverse_inits_concat (name : Text) (c : Char) :
    (name ++ [c]).inits.reverse = (name ++ [c]) :: name.inits.reverse := by
  simp [List.inits_append]

theorem not_concat_prefix_self (name : Text) (c : Char) : ¬ name ++ [c] <+: name := by
  intro h
  have hle := h.length_le
  simp only [List.length_append, List.length_singleton] at hle
  omega

/-- A prefix of a name has a dot behind it in the name with one more character if it had one
before, or if it is the whole name and the character is a dot. -/
theorem concat_dot_prefix_concat_iff {name p : Text} {c : Char} :
    p ++ ['.'] <+: name ++ [c] ↔ p ++ ['.'] <+: name ∨ (p = name ∧ c = '.') := by
  have hlast : p ++ ['.'] = name ++ [c] ↔ p = name ∧ c = '.' := by
    constructor
    · intro h
      obtain ⟨hp, hc⟩ := List.append_inj' h rfl
      exact ⟨hp, by simpa using hc.symm⟩
    · rintro ⟨rfl, rfl⟩
      rfl
  rw [List.prefix_concat_iff, hlast, or_comm]

/-- The forebears of a name are the ancestry of what is left when it is cut at the last dot.
Induction from the end of the name, which is the direction in which the dot is searched. -/
theorem forebears_eq (name : Text) :
    forebears name = match cutLast name with
      | some shorter => ancestry shorter
      | none => [] := by
  induction name using List.reverseRecOn with
  | nil => rfl
  | append_singleton name c ih =>
      have hforebears : forebears (name ++ [c]) = name.inits.reverse.filter fun p =>
          !p.isEmpty && ((p ++ ['.']).isPrefixOf name || (p == name && c == '.')) := by
        rw [forebears, reverse_inits_concat, List.filter_cons_of_neg (by simp)]
        apply List.filter_congr
        intro p _
        rw [Bool.eq_iff_iff]
        simp [concat_dot_prefix_concat_iff]
      by_cases hc : c = '.'
      · subst hc
        rw [hforebears, cutLast_concat_dot]
        simp [ancestry, Bool.or_comm]
      · have hdot : (c == '.') = false := by simpa using hc
        rw [hforebears, cutLast_concat hc, ← ih]
        simp [forebears, hdot]

/-- The ancestry of a name is the name itself, if there is any text in it, and then the ancestry of
the name cut at its last dot. -/
theorem ancestry_eq {name : Text} (hname : name ≠ []) :
    ancestry name = name :: forebears name := by
  obtain ⟨front, c, rfl⟩ : ∃ front c, name = front ++ [c] :=
    ⟨name.dropLast, name.getLast hname, (List.dropLast_append_getLast hname).symm⟩
  rw [ancestry, forebears, reverse_inits_concat, List.filter_cons_of_pos (by simp),
    List.filter_cons_of_neg (by simp)]
  congr 1
  apply List.filter_congr
  intro p hp
  -- a proper prefix is not the name itself
  have hne : p ≠ front ++ [c] := by
    rintro rfl
    exact not_concat_prefix_self front c ((List.mem_inits _ _).mp (List.mem_reverse.mp hp))
  have hbeq : (p == front ++ [c]) = false := by simpa using hne
  rw [hbeq, Bool.false_or]

/-! ## The walk -/

variable {m : Type → Type} [Monad m] [LawfulMonad m] {α : Type}

theorem findSomeM_singleton (probe : Text → m (Option α)) (name : Text) :
    [name].findSomeM? probe = probe name := by
  rw [List.findSomeM?_cons]
  conv_rhs => rw [← bind_pure (probe name)]
  apply bind_congr
  intro answer
  cases answer with
  | some found => rfl
  | none => rfl

/-- **The walk probes the lineage of the name.** The names are probed in order, with the effects of
the probe, up to the first one that answers. Induction along the recursion of the walk. -/
theorem walk_eq_findSomeM (probe : Text → m (Option α)) (name : Text) :
    walk probe name = (lineage name).findSomeM? probe := by
  fun_induction walk probe name with
  | case1 name hempty =>
      rw [List.isEmpty_iff.mp hempty]
      exact (findSomeM_singleton probe root).symm
  | case2 name hname ih =>
      have hne : name ≠ [] := by simpa using hname
      rw [lineage, ancestry_eq hne, List.cons_append, List.findSomeM?_cons]
      apply bind_congr
      intro answer
      cases answer with
      | some found => rfl
      | none =>
          rw [forebears_eq]
          dsimp only
          split
          · next shorter hcut => rw [ih shorter hcut, hcut, lineage]
          · next hcut => rw [hcut, List.nil_append, findSomeM_singleton]

/-! ## Normalization -/

/-- `stem` is what is left of `name` after all dots at its end and then one `suffix` are dropped. -/
def IsStem (suffix name stem : Text) : Prop :=
  ∃ trimmed dots, name = trimmed ++ List.replicate dots '.' ∧ trimmed.getLast? ≠ some '.'
    ∧ (trimmed = stem ++ suffix ∨ (trimmed = stem ∧ ¬ suffix <:+ trimmed))

/-- **Normalization finds the stem**, and there is no other one. -/
theorem isStem_iff {suffix name stem : Text} :
    IsStem suffix name stem ↔ stem = normalize suffix name := by
  constructor
  · rintro ⟨trimmed, dots, rfl, hlast, hstem⟩
    rw [normalize, Text.dropTrailing_append_replicate, Text.dropTrailing_eq_self hlast]
    rcases hstem with rfl | ⟨rfl, hsuffix⟩
    · simp
    · simp [hsuffix]
  · rintro rfl
    obtain ⟨dots, hname⟩ := Text.eq_dropTrailing_append '.' name
    refine ⟨Text.dropTrailing '.' name, dots, hname, Text.getLast?_dropTrailing '.' name, ?_⟩
    by_cases hsuffix : suffix <:+ Text.dropTrailing '.' name
    · obtain ⟨stem, hstem⟩ := hsuffix
      left
      simp [normalize, ← hstem]
    · right
      simp [normalize, hsuffix]

end Logbook.Name
