import Logbook.Name
import Logbook.Proofs.Text.Trailing

/-!
# Logbook — condensed names

`Name.condense` first drops the dots at the end of a name and then looks at its segments. Here it is
described from the other end: a name is some leading segments and a last one, joined by dots, with
empty pieces behind them, and its short form is read off these segments.

* **`Name.parts`** — the segments of a name, said without dropping any dot.
* **`Name.joined`**, **`Name.AreParts`** — the name with given segments, and what segments are like;
  `exists_joined` and `parts_joined` tie this to `Name.parts`.
* **`condense_joined`** — the short form of a name that is given by its segments.
* **`Name.Padded`** — blank segments put in among others.
* **`condense_by_segments`** — the headline.
-/

namespace Logbook.Name

/-! ## Names and their segments -/

/-- The pieces between the dots of a name, without the empty ones at the end; the first piece always
stays. -/
def parts (name : Text) : List Text :=
  match name.splitOn '.' with
  | [] => []
  | first :: rest => first :: rest.rdropWhile List.isEmpty

/-- The name with these segments, and some empty pieces behind them. -/
def joined (leading : List Text) (last : Text) (empty : Nat) : Text :=
  ['.'].intercalate (leading ++ last :: List.replicate empty [])

/-- No segment has a dot in it, and the last one is not empty unless it is the only one. -/
structure AreParts (leading : List Text) (last : Text) : Prop where
  dot_not_mem : ∀ part ∈ leading ++ [last], '.' ∉ part
  last_ne_nil : leading ≠ [] → last ≠ []

variable {leading : List Text} {last : Text}

theorem segments_eq_splitOn (name : Text) : segments name = name.splitOn '.' := by
  induction name with
  | nil => rfl
  | cons c rest ih =>
      rw [List.splitOn_cons_eq_if_modifyHead, ← ih]
      by_cases hc : c = '.'
      · simp [segments, hc]
      · have hne : segments rest ≠ [] := ih ▸ List.splitOn_ne_nil '.' rest
        obtain ⟨first, others, hsegments⟩ := List.exists_cons_of_ne_nil hne
        simp [segments, hc, hsegments]

theorem dot_not_mem_segments {name part : Text} (hpart : part ∈ segments name) : '.' ∉ part := by
  induction name generalizing part with
  | nil =>
      rw [segments, List.mem_singleton] at hpart
      rw [hpart]
      exact List.not_mem_nil
  | cons c rest ih =>
      obtain ⟨first, others, hsegments⟩ : ∃ first others, segments rest = first :: others :=
        List.exists_cons_of_ne_nil (segments_eq_splitOn rest ▸ List.splitOn_ne_nil '.' rest)
      rw [hsegments] at ih
      by_cases hc : c = '.'
      · simp only [segments, hc, if_true, hsegments, List.mem_cons] at hpart
        rcases hpart with rfl | hpart
        · exact List.not_mem_nil
        · exact ih (List.mem_cons.mpr hpart)
      · simp only [segments, hc, if_false, hsegments, List.mem_cons] at hpart
        rcases hpart with rfl | hpart
        · rw [List.mem_cons, not_or]
          exact ⟨fun h => hc h.symm, ih List.mem_cons_self⟩
        · exact ih (List.mem_cons_of_mem first hpart)

theorem intercalate_concat (leading : List Text) (last : Text) :
    ['.'].intercalate (leading ++ [last]) = leading.flatMap (· ++ ['.']) ++ last := by
  induction leading with
  | nil => simp
  | cons first rest ih =>
      rw [List.cons_append, List.intercalate_cons_of_ne_nil (by simp), ih]
      simp

/-- The empty pieces behind the last segment are the dots at the end of the name. -/
theorem joined_eq (leading : List Text) (last : Text) (empty : Nat) :
    joined leading last empty
      = leading.flatMap (· ++ ['.']) ++ last ++ List.replicate empty '.' := by
  unfold joined
  cases empty with
  | zero => rw [List.replicate_zero, intercalate_concat, List.replicate_zero, List.append_nil]
  | succ empty =>
      rw [List.replicate_succ', ← List.cons_append, ← List.append_assoc, intercalate_concat]
      simp [List.flatMap_replicate, List.replicate_succ]

/-- The name without the dots at its end does not end in a dot. -/
theorem AreParts.getLast?_ne (h : AreParts leading last) :
    (leading.flatMap (· ++ ['.']) ++ last).getLast? ≠ some '.' := by
  by_cases hlast : last = []
  · have hleading : leading = [] := by
      by_contra hne
      exact h.last_ne_nil hne hlast
    simp [hlast, hleading]
  · rw [List.getLast?_append_of_ne_nil _ hlast]
    intro hdot
    exact h.dot_not_mem last (by simp) (List.mem_of_getLast? hdot)

theorem AreParts.dropTrailing_joined (h : AreParts leading last) (empty : Nat) :
    Text.dropTrailing '.' (joined leading last empty) = leading.flatMap (· ++ ['.']) ++ last := by
  rw [joined_eq, Text.dropTrailing_append_replicate, Text.dropTrailing_eq_self h.getLast?_ne]

theorem exists_joined (name : Text) :
    ∃ leading last empty, AreParts leading last ∧ name = joined leading last empty := by
  obtain ⟨empty, hname⟩ := Text.eq_dropTrailing_append '.' name
  have hlast := Text.getLast?_dropTrailing '.' name
  generalize Text.dropTrailing '.' name = trimmed at hname hlast
  have hne : segments trimmed ≠ [] := segments_eq_splitOn trimmed ▸ List.splitOn_ne_nil '.' trimmed
  obtain ⟨leading, last, hsegments⟩ : ∃ leading last, segments trimmed = leading ++ [last] :=
    ⟨_, _, (List.dropLast_append_getLast hne).symm⟩
  have htrimmed : trimmed = leading.flatMap (· ++ ['.']) ++ last := by
    rw [← intercalate_concat, ← hsegments, segments_eq_splitOn, List.intercalate_splitOn]
  refine ⟨leading, last, empty, ⟨fun part hpart => ?_, fun hleading hnil => ?_⟩, ?_⟩
  · exact dot_not_mem_segments (hsegments ▸ hpart)
  · -- with nothing behind the last dot the trimmed name would end in it
    apply hlast
    rw [htrimmed, hnil, List.append_nil, ← List.dropLast_append_getLast hleading,
      List.flatMap_append]
    simp
  · rw [joined_eq, ← htrimmed, hname]

theorem rdropWhile_append_empty (pieces : List Text) (empty : Nat) :
    (pieces ++ List.replicate empty []).rdropWhile List.isEmpty
      = pieces.rdropWhile List.isEmpty := by
  induction empty with
  | zero => rw [List.replicate_zero, List.append_nil]
  | succ empty ih =>
      rw [List.replicate_succ', ← List.append_assoc, ← ih]
      exact List.rdropWhile_concat_pos List.isEmpty _ [] rfl

theorem parts_joined (h : AreParts leading last) (empty : Nat) :
    parts (joined leading last empty) = leading ++ [last] := by
  have hpieces : (joined leading last empty).splitOn '.'
      = leading ++ last :: List.replicate empty [] := by
    refine List.splitOn_intercalate '.' (fun part hpart => ?_) (by simp)
    simp only [List.mem_append, List.mem_cons, List.mem_replicate] at hpart
    rcases hpart with hpart | rfl | ⟨-, rfl⟩
    · exact h.dot_not_mem part (by simp [hpart])
    · exact h.dot_not_mem part (by simp)
    · exact List.not_mem_nil
  unfold parts
  rw [hpieces]
  cases leading with
  | nil =>
      show last :: (List.replicate empty []).rdropWhile List.isEmpty = [last]
      rw [← List.nil_append (List.replicate empty []), rdropWhile_append_empty, List.rdropWhile_nil]
  | cons first rest =>
      have hlast : ¬ last.isEmpty = true := by
        simpa using h.last_ne_nil (List.cons_ne_nil first rest)
      show first :: (rest ++ last :: List.replicate empty []).rdropWhile List.isEmpty
        = first :: (rest ++ [last])
      rw [List.append_cons, rdropWhile_append_empty, List.rdropWhile_concat_neg _ _ _ hlast]

/-! ## The short form -/

/-- The first character of a segment that is not blank. -/
def initial? (part : Text) : Option Char :=
  part.find? fun c => !Text.isBlank c

/-- The initials of the segments that have one. -/
def initials (leading : List Text) : Text :=
  leading.filterMap initial?

/-- A name in its short form: the initials of the leading segments, and a dot behind them if there
are any, and the last segment. -/
def shortened (leading : List Text) (last : Text) : Text :=
  if initials leading = [] then last else initials leading ++ '.' :: last

/-- **The short form of a name is read off its segments.** -/
theorem condense_joined (h : AreParts leading last) (empty : Nat) :
    condense (joined leading last empty) = shortened leading last := by
  have hsegments : segments (leading.flatMap (· ++ ['.']) ++ last) = leading ++ [last] := by
    rw [← intercalate_concat, segments_eq_splitOn]
    exact List.splitOn_intercalate '.' h.dot_not_mem (by simp)
  have hinitials : leading.filterMap (fun part => (Text.trimStart part).head?)
      = initials leading := by
    unfold initials initial? Text.trimStart
    simp only [List.find?_not_eq_head?_dropWhile]
  unfold condense shortened
  rw [h.dropTrailing_joined, hsegments]
  simp only [List.dropLast_concat, List.getLast?_concat, Option.getD_some, hinitials,
    List.isEmpty_iff]

theorem condense_of_not_mem {name : Text} (hdot : '.' ∉ name) : condense name = name := by
  have hparts : AreParts [] name := ⟨by simpa using hdot, fun hne => absurd rfl hne⟩
  simpa [joined, shortened, initials] using condense_joined hparts 0

/-- An initial stands for a segment of one character at least and the dot behind it. -/
theorem length_initials_le (leading : List Text) :
    2 * (initials leading).length ≤ (leading.flatMap (· ++ ['.'])).length := by
  induction leading with
  | nil => exact Nat.le_refl 0
  | cons part rest ih =>
      rw [List.flatMap_cons, List.length_append, List.length_append, List.length_singleton]
      unfold initials at ih ⊢
      cases hinitial : initial? part with
      | none =>
          rw [List.filterMap_cons_none hinitial]
          omega
      | some c =>
          have hpos : 0 < part.length :=
            List.length_pos_of_mem (List.mem_of_find?_eq_some hinitial)
          rw [List.filterMap_cons_some hinitial, List.length_cons]
          omega

theorem length_shortened_le (leading : List Text) (last : Text) (empty : Nat) :
    (shortened leading last).length ≤ (joined leading last empty).length := by
  have hinitials := length_initials_le leading
  rw [joined_eq, List.length_append, List.length_append]
  unfold shortened
  split
  · omega
  · next hne =>
    have hpos : 0 < (initials leading).length := List.length_pos_of_ne_nil hne
    rw [List.length_append, List.length_cons]
    omega

/-! ## Blank segments -/

/-- The second list is the first one with segments put in that are empty or blank throughout. -/
inductive Padded : List Text → List Text → Prop where
  | nil : Padded [] []
  | keep (part : Text) {leading padded : List Text} (h : Padded leading padded) :
      Padded (part :: leading) (part :: padded)
  | blank {part : Text} (hblank : ∀ c ∈ part, Text.isBlank c) {leading padded : List Text}
      (h : Padded leading padded) : Padded leading (part :: padded)

theorem Padded.initials_eq {padded : List Text} (h : Padded leading padded) :
    initials padded = initials leading := by
  induction h with
  | nil => rfl
  | keep part _ ih =>
      unfold initials at ih ⊢
      rw [List.filterMap_cons, List.filterMap_cons, ih]
  | @blank part hblank leading padded _ ih =>
      have hnone : initial? part = none := by
        simpa [initial?] using hblank
      unfold initials at ih ⊢
      rw [List.filterMap_cons_none hnone, ih]

theorem Padded.mem_cases {padded : List Text} (h : Padded leading padded) {part : Text}
    (hpart : part ∈ padded) : part ∈ leading ∨ ∀ c ∈ part, Text.isBlank c := by
  induction h with
  | nil => exact Or.inl hpart
  | keep kept _ ih =>
      rcases List.mem_cons.mp hpart with rfl | hpart
      · exact Or.inl List.mem_cons_self
      · exact (ih hpart).imp_left (List.mem_cons_of_mem kept)
  | blank hblank _ ih =>
      rcases List.mem_cons.mp hpart with rfl | hpart
      · exact Or.inr hblank
      · exact ih hpart

theorem Padded.areParts {padded : List Text} (h : Padded leading padded)
    (hparts : AreParts leading last) (hlast : last ≠ []) : AreParts padded last := by
  refine ⟨fun part hpart hdot => ?_, fun _ => hlast⟩
  have hmem : part ∈ leading ++ [last] ∨ ∀ c ∈ part, Text.isBlank c := by
    rcases List.mem_append.mp hpart with hpart | hpart
    · exact (h.mem_cases hpart).imp_left (List.mem_append_left [last])
    · exact Or.inl (List.mem_append_right leading hpart)
  rcases hmem with hmem | hblank
  · exact hparts.dot_not_mem part hmem hdot
  · exact absurd (hblank '.' hdot) (by decide)

/-- **A condensed name is read off the segments of the name.** It is the last segment as it is,
behind the initials of the leading ones that are not blank, if there are any, and one dot. So dots
at the end of the name do not count; nor do segments that are empty or blank, wherever they are put
in before a last segment that is not empty; a name without dots is its own short form; and no short
form is longer than its name. -/
theorem condense_by_segments (name : Text) :
    ∃ leading last empty,
      name = joined leading last empty ∧ parts name = leading ++ [last]
      ∧ condense name
        = (if initials leading = [] then last else initials leading ++ '.' :: last)
      ∧ (∀ dots, condense (name ++ List.replicate dots '.') = condense name)
      ∧ (∀ padded others, last ≠ [] → Padded leading padded →
          condense (joined padded last others) = condense name)
      ∧ ('.' ∉ name → condense name = name)
      ∧ (condense name).length ≤ name.length := by
  obtain ⟨leading, last, empty, hparts, rfl⟩ := exists_joined name
  have hcondense := condense_joined hparts empty
  refine ⟨leading, last, empty, rfl, parts_joined hparts empty, hcondense, ?_, ?_, ?_, ?_⟩
  · intro dots
    unfold condense
    rw [Text.dropTrailing_append_replicate]
  · intro padded others hlast hpadded
    rw [condense_joined (hpadded.areParts hparts hlast), hcondense, shortened,
      hpadded.initials_eq, shortened]
  · intro hdot
    exact condense_of_not_mem hdot
  · rw [hcondense]
    exact length_shortened_le leading last empty

/-- Blanks in a segment count for its initial but not in the last segment, and a blank segment and
an empty one do not show. -/
theorem condense_by_segments_blank :
    let name := "ab.\u2003é.Log Test..".toList
    let leading := ["ab".toList, "\u2003é".toList]
    let padded := ["ab".toList, " ".toList, "\u2003é".toList, []]
    parts name = leading ++ ["Log Test".toList] ∧ Padded leading padded
      ∧ condense name = "aé.Log Test".toList
      ∧ condense (joined padded "Log Test".toList 1) = condense name := by
  intro name leading padded
  obtain ⟨leading', last, empty, -, hparts, hcondense, -, hpadded, -⟩ :=
    condense_by_segments name
  have hcut : parts name = leading ++ ["Log Test".toList] := by decide
  obtain ⟨rfl, hlast⟩ := List.append_inj' (hparts.symm.trans hcut) rfl
  obtain rfl := List.singleton_inj.mp hlast
  have hput : Padded leading padded :=
    .keep _ (.blank (List.all_eq_true.mp rfl) (.keep _ (.blank (List.forall_mem_nil _) .nil)))
  exact ⟨hcut, hput, hcondense, hpadded padded 1 (by decide) hput⟩

end Logbook.Name
