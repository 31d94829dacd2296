import Logbook.Proofs.Properties.Document
import Logbook.Settings
import Mathlib.Data.List.Induction
import Mathlib.Data.List.TakeWhile

/-!
# Logbook — one properties text behind another

Between two texts a line feed is enough to keep them apart. What a reader carries along is settled at
the end of a line that goes on in no other: an entry that is still being joined is complete there,
whatever its lines look like.

* **`Properties.exists_last_line`** — the lines on both sides of the end of a line.
* **`Properties.logicalLines_seam`** — what is carried over: nothing. By induction on the lines in
  front, with whatever is pending.
* **`Properties.parse_seam`** — the entries on both sides.
* **`Settings.get?_ofPairs`** — of several entries with one key the last one counts.
* **`Settings.newline_overlays`** — the headline: the second text overlays the first one.
-/

namespace Logbook

namespace Properties

/-! ## Lines -/

theorem lines_ne_nil {text : Text} (h : text ≠ []) : lines text ≠ [] := by
  fun_cases lines text with
  | case1 => exact absurd rfl h
  | case2 => exact List.cons_ne_nil _ _
  | case3 => exact List.cons_ne_nil _ _
  | case4 => exact List.cons_ne_nil _ _
  | case5 => exact List.cons_ne_nil _ _

theorem lines_return {rest : Text} (h : rest.head? = some '\n') :
    lines ('\r' :: rest) = lines rest := by
  cases rest with
  | nil => cases h
  | cons c rest =>
      cases h
      rw [lines, lines]

theorem lines_append_newline (front rest : Text) :
    lines (front ++ '\n' :: rest) = lines (front ++ ['\n']) ++ lines rest := by
  induction front with
  | nil => simp [lines]
  | cons c front ih =>
      have hhead : (front ++ '\n' :: rest).head? = (front ++ ['\n']).head? := by
        cases front <;> rfl
      rw [List.cons_append, List.cons_append]
      by_cases hfeed : c = '\n'
      · rw [hfeed, lines, lines, ih, List.cons_append]
      by_cases hreturn : c = '\r' ∧ (front ++ ['\n']).head? = some '\n'
      · obtain ⟨rfl, hnext⟩ := hreturn
        rw [lines_return hnext, lines_return (hhead.trans hnext), ih]
      · have hends : c = '\r' → (front ++ ['\n']).head? ≠ some '\n' :=
          fun hr hnext => hreturn ⟨hr, hnext⟩
        obtain ⟨first, others, hlines⟩ := List.exists_cons_of_ne_nil
          (lines_ne_nil (show front ++ ['\n'] ≠ [] by simp))
        rw [hlines] at ih
        rw [lines_cons hfeed hends hlines, List.cons_append]
        refine lines_cons hfeed ?_ ih
        rw [hhead]
        exact hends

/-- The lines of a text are those of its whole lines and, if it is not empty, the last one. -/
theorem exists_last_line (text : Text) :
    ∃ start last, text = start ++ last ∧ '\n' ∉ last
      ∧ ∀ rest, lines (start ++ rest) = lines start ++ lines rest := by
  by_cases hmem : '\n' ∈ text
  · obtain ⟨last, front, htext, hlast⟩ := List.eq_append_cons_of_mem (List.mem_reverse.mpr hmem)
    refine ⟨front.reverse ++ ['\n'], last.reverse, ?_, by simpa using hlast, fun rest => ?_⟩
    · rw [← text.reverse_reverse, htext]
      simp
    · rw [List.append_assoc]
      exact lines_append_newline _ rest
  · exact ⟨[], text, rfl, hmem, fun _ => by simp [lines]⟩

theorem getLast?_ne_of_append {start last : Text} {c : Char}
    (h : (start ++ last).getLast? ≠ some c) : last.getLast? ≠ some c := by
  intro hlast
  rw [List.getLast?_append, hlast] at h
  exact h rfl

/-! ## What is pending -/

theorem not_isContinued_of_getLast? {line : Text} (h : line.getLast? ≠ some '\\') :
    isContinued line = false := by
  rcases List.eq_nil_or_concat' line with rfl | ⟨front, c, rfl⟩
  · rfl
  · have hc : c ≠ '\\' := by simpa using h
    rw [isContinued_concat, beq_false_of_ne hc, Bool.false_and]

theorem isContinued_append {front : Text} (h : isContinued front = false) (back : Text) :
    isContinued (front ++ back) = isContinued back := by
  induction back using List.reverseRecOn with
  | nil =>
      rw [List.append_nil, h]
      rfl
  | append_singleton back c ih =>
      rw [← List.append_assoc, isContinued_concat, isContinued_concat, ih]

/-- Indentation has no backslash, so a line goes on with it or without it alike. -/
theorem isContinued_trimStart (line : Text) :
    isContinued (Text.trimStart line) = isContinued line := by
  have hindent : isContinued (line.takeWhile Text.isBlank) = false := by
    apply not_isContinued_of_getLast?
    intro hlast
    have hblank := List.mem_takeWhile_imp (List.mem_of_getLast? hlast)
    exact absurd hblank (by decide)
  calc isContinued (Text.trimStart line)
      = isContinued (line.takeWhile Text.isBlank ++ Text.trimStart line) :=
        (isContinued_append hindent _).symm
    _ = isContinued line := by rw [Text.trimStart, List.takeWhile_append_dropWhile]

theorem logicalLines_seam {line : Text} (h : isContinued line = false) (pending : Text)
    (before after : List Text) :
    logicalLines pending (before ++ line :: after)
      = logicalLines pending (before ++ [line]) ++ logicalLines [] after := by
  rw [← isContinued_trimStart] at h
  induction before generalizing pending with
  | nil =>
      simp only [List.nil_append, logicalLines, h]
      split
      · next hignored =>
        simp only [Bool.and_eq_true, List.isEmpty_iff] at hignored
        simp [hignored.1]
      · simp
  | cons physical before ih =>
      simp only [List.cons_append, logicalLines]
      split
      · exact ih pending
      · split
        · exact ih _
        · rw [ih [], List.cons_append]

/-- A blank line at the end completes what is pending, as the end itself does. -/
theorem logicalLines_blank (pending : Text) (before : List Text) :
    logicalLines pending (before ++ [[]]) = logicalLines pending before := by
  induction before generalizing pending with
  | nil =>
      cases pending with
      | nil => rfl
      | cons c pending => simp [logicalLines, Text.trimStart, isContinued]
  | cons physical before ih => simp only [List.cons_append, logicalLines, ih]

/-! ## Entries -/

/-- **Behind the end of a line that goes on in no other, reading begins anew.** -/
theorem parse_seam {front ending : Text} (hslash : front.getLast? ≠ some '\\')
    (hending : ending = ['\n'] ∧ front.getLast? ≠ some '\r' ∨ ending = ['\r', '\n'])
    (rest : Text) : parse (front ++ (ending ++ rest)) = parse (front ++ ending) ++ parse rest := by
  obtain ⟨start, last, rfl, hlast, hlines⟩ := exists_last_line front
  have hcontinued : isContinued last = false :=
    not_isContinued_of_getLast? (getLast?_ne_of_append hslash)
  have hends : ending = ['\n'] ∧ last.getLast? ≠ some '\r' ∨ ending = ['\r', '\n'] :=
    hending.imp_left fun ⟨hfeed, hreturn⟩ => ⟨hfeed, getLast?_ne_of_append hreturn⟩
  have hread : ∀ rest, lines (start ++ last ++ (ending ++ rest)) = lines start ++ last :: lines rest := by
    intro rest
    rw [List.append_assoc, hlines, lines_line hlast hends]
  have hend : lines (start ++ last ++ ending) = lines start ++ [last] := by
    simpa [lines] using hread []
  rw [parse, hread, logicalLines_seam hcontinued, List.filterMap_append, parse, parse, hend]

/-- A line feed at the end changes nothing. -/
theorem parse_concat_newline {text : Text} (hreturn : text.getLast? ≠ some '\r') :
    parse (text ++ ['\n']) = parse text := by
  obtain ⟨start, last, rfl, hlast, hlines⟩ := exists_last_line text
  have hread : lines (start ++ last ++ ['\n']) = lines start ++ [last] := by
    have hline := lines_line hlast (.inl ⟨rfl, getLast?_ne_of_append hreturn⟩) []
    rw [List.append_assoc, hlines, ← List.append_nil ['\n'], hline, lines]
  rw [parse, parse, hread, hlines]
  by_cases hnil : last = []
  · rw [hnil, logicalLines_blank, lines, List.append_nil]
  · rw [lines_last hlast hnil]

end Properties

/-! ## The table of a text -/

namespace Settings

/-- This is the value of the last entry with this key. -/
def LastOf (entries : List (Text × Text)) (key value : Text) : Prop :=
  ∃ before after, entries = before ++ (key, value) :: after ∧ ∀ entry ∈ after, entry.1 ≠ key

theorem get?_put (settings : Settings) (key value wanted : Text) :
    (settings.put key value).get? wanted
      = if wanted = key then some value else settings.get? wanted := by
  have hothers : (settings.entries.filter (·.1 != key)).lookup wanted
      = if wanted = key then none else settings.entries.lookup wanted := by
    induction settings.entries with
    | nil => simp
    | cons entry rest ih =>
        rw [List.filter_cons, List.lookup_cons]
        split
        · next hentry =>
          rw [List.lookup_cons, ih]
          grind
        · grind
  rw [put, get?, List.lookup_append, hothers]
  by_cases hwanted : wanted = key
  · simp [hwanted]
  · simp [hwanted, get?]

theorem get?_ofPairs (pairs : List (Text × Text)) (key : Text) :
    (ofPairs pairs).get? key = pairs.reverse.lookup key := by
  induction pairs using List.reverseRecOn with
  | nil => rfl
  | append_singleton pairs pair ih =>
      have hput : ofPairs (pairs ++ [pair]) = (ofPairs pairs).put pair.1 pair.2 := by
        simp [ofPairs]
      rw [hput, get?_put, ih, List.reverse_append, List.reverse_singleton, List.singleton_append,
        List.lookup_cons]
      by_cases hkey : key = pair.1
      · simp [hkey]
      · simp [hkey, beq_false_of_ne hkey]

/-- **Of several entries with one key the last one counts.** -/
theorem get?_ofPairs_eq_some_iff {pairs : List (Text × Text)} {key value : Text} :
    (ofPairs pairs).get? key = some value ↔ LastOf pairs key value := by
  rw [get?_ofPairs, List.lookup_eq_some_iff]
  constructor
  · rintro ⟨after, before, hpairs, hafter⟩
    refine ⟨before.reverse, after.reverse, ?_, ?_⟩
    · rw [← pairs.reverse_reverse, hpairs]
      simp
    · intro entry hentry
      have hne := hafter entry (List.mem_reverse.mp hentry)
      exact Ne.symm (by simpa using hne)
  · rintro ⟨before, after, rfl, hafter⟩
    refine ⟨after.reverse, before.reverse, by simp, ?_⟩
    intro entry hentry
    simpa using Ne.symm (hafter entry (List.mem_reverse.mp hentry))

/-- **A properties text behind another one overlays it.** Of two texts with a line feed between them,
the first of which ends neither in a backslash nor in a carriage return, the entries are those of the
first and then those of the second. So a key has the value that the second text gives it, if it gives
one, and otherwise that of the first text; within each of them the last entry counts. -/
theorem newline_overlays {first second : Text} (hslash : first.getLast? ≠ some '\\')
    (hreturn : first.getLast? ≠ some '\r') :
    Properties.parse (first ++ '\n' :: second) = Properties.parse first ++ Properties.parse second
      ∧ (∀ key value, (ofProperties (first ++ '\n' :: second)).get? key = some value ↔
          LastOf (Properties.parse second) key value
            ∨ (∀ entry ∈ Properties.parse second, entry.1 ≠ key)
              ∧ LastOf (Properties.parse first) key value)
      ∧ ∀ key, (ofProperties (first ++ '\n' :: second)).get? key
          = ((ofProperties second).get? key).or ((ofProperties first).get? key) := by
  have hparse : Properties.parse (first ++ '\n' :: second)
      = Properties.parse first ++ Properties.parse second := by
    have hseam := Properties.parse_seam hslash (.inl ⟨rfl, hreturn⟩) second
    rwa [Properties.parse_concat_newline hreturn] at hseam
  have hget : ∀ key, (ofProperties (first ++ '\n' :: second)).get? key
      = ((ofProperties second).get? key).or ((ofProperties first).get? key) := by
    intro key
    simp only [ofProperties, hparse, get?_ofPairs, List.reverse_append, List.lookup_append]
  refine ⟨hparse, fun key value => ?_, hget⟩
  have hnone : (ofProperties second).get? key = none
      ↔ ∀ entry ∈ Properties.parse second, entry.1 ≠ key := by
    rw [ofProperties, get?_ofPairs, List.lookup_eq_none_iff]
    simp only [List.mem_reverse, bne_iff_ne, ne_comm]
  rw [hget, Option.or_eq_some_iff, hnone]
  simp only [ofProperties, get?_ofPairs_eq_some_iff]

/-- The first text ends in a line that was opened by the line above, and looks like a comment. -/
theorem newline_overlays_continued :
    let first := "a=1\nb=1,\\\n  # 2".toList
    let second := "a=2".toList
    (first.getLast? ≠ some '\\' ∧ first.getLast? ≠ some '\r')
      ∧ Properties.parse first = [("a".toList, "1".toList), ("b".toList, "1,# 2".toList)]
      ∧ Properties.parse (first ++ '\n' :: second)
          = Properties.parse first ++ Properties.parse second
      ∧ (ofProperties (first ++ '\n' :: second)).get? "a".toList = some "2".toList := by
  intro first second
  have hslash : first.getLast? ≠ some '\\' := by decide
  have hreturn : first.getLast? ≠ some '\r' := by decide
  have hsecond : LastOf (Properties.parse second) "a".toList "2".toList :=
    ⟨[], [], by decide +kernel, nofun⟩
  obtain ⟨hparse, hvalue, -⟩ := @newline_overlays first second hslash hreturn
  exact ⟨⟨hslash, hreturn⟩, by decide +kernel, hparse, (hvalue _ _).mpr (.inl hsecond)⟩

end Settings

end Logbook
