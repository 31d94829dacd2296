import Logbook.Proofs.Properties.Seam

/-!
# Logbook — a line may be broken anywhere

Within an entry a line may be broken behind any even number of backslashes: a backslash is put at the
end of the first part, and spaces and tabs in front of the second. No entry of the text changes,
wherever the break is: in the key, at the separator, in the value, or between two escapes.

* **`Properties.EndsLine`** — texts behind which a line begins anew.
* **`Properties.Break`** — a place where a line may be broken.
* **`Properties.Break.logicalLines_eq`** — both parts are joined again before anything else is read.
* **`Properties.line_break_invisible`** — the headline.
-/

namespace Logbook

namespace Properties

/-! ## Where a line begins and where it breaks -/

/-- An empty text, or one that ends in a line feed, with or without a carriage return, and has no
backslash in front of that. -/
inductive EndsLine : Text → Prop
  | nil : EndsLine []
  | feed {front : Text} (hslash : front.getLast? ≠ some '\\') (hreturn : front.getLast? ≠ some '\r') :
      EndsLine (front ++ ['\n'])
  | returnFeed {front : Text} (hslash : front.getLast? ≠ some '\\') :
      EndsLine (front ++ ['\r', '\n'])

/-- A line that may be broken: what stands on it in front of the break and behind it, and what the
second part is indented with. -/
structure Break (front indent back : Text) : Prop where
  onLine : ∀ c ∈ front ++ back, c ∉ ['\n', '\r']
  /-- The first part is neither blank nor a comment. -/
  opens : ∃ blanks c rest, front = blanks ++ c :: rest ∧ (∀ d ∈ blanks, Text.isBlank d = true)
    ∧ Text.isBlank c = false ∧ c ∉ ['#', '!']
  /-- The first part ends in an even number of backslashes. -/
  even : ∃ text pairs, front = text ++ List.replicate (2 * pairs) '\\' ∧ text.getLast? ≠ some '\\'
  gap : ∀ c ∈ indent, c = ' ' ∨ c = '\t'
  unblank : ∀ c ∈ back.head?, Text.isBlank c = false

theorem EndsLine.parse_append {above : Text} (h : EndsLine above) (rest : Text) :
    parse (above ++ rest) = parse above ++ parse rest := by
  cases h with
  | nil => rfl
  | feed hslash hreturn =>
      rw [List.append_assoc]
      exact parse_seam hslash (.inl ⟨rfl, hreturn⟩) rest
  | returnFeed hslash =>
      rw [List.append_assoc]
      exact parse_seam hslash (.inr rfl) rest

/-! ## Joining the parts -/

theorem not_isContinued_pairs (pairs : Nat) :
    isContinued (List.replicate (2 * pairs) '\\') = false := by
  simp [isContinued]

/-- A line without an end in it, and whatever stands on the lines below. -/
theorem logicalLines_line {line below : Text} (hline : ∀ c ∈ line, c ∉ ['\n', '\r'])
    (hbelow : ∀ c ∈ below.head?, c = '\n') (pending : Text) :
    logicalLines pending (lines (line ++ below))
      = logicalLines pending (line :: lines (below.drop 1)) := by
  have hfeed : '\n' ∉ line := fun hmem => hline _ hmem (by decide)
  cases below with
  | nil =>
      by_cases hnil : line = []
      · rw [hnil]
        exact (logicalLines_blank pending []).symm
      · rw [List.append_nil, lines_last hfeed hnil]
        rfl
  | cons c below =>
      obtain rfl : c = '\n' := hbelow c rfl
      have hreturn : line.getLast? ≠ some '\r' :=
        fun hlast => hline _ (List.mem_of_getLast? hlast) (by decide)
      have hlines := lines_line hfeed (.inl ⟨rfl, hreturn⟩) below
      rw [List.singleton_append] at hlines
      rw [hlines]
      rfl

namespace Break

variable {front indent back : Text}

theorem trimStart_append (h : Break front indent back) :
    ∃ c text, (∀ rest, Text.trimStart (front ++ rest) = c :: (text ++ rest))
      ∧ (∀ rest, isIgnored (c :: rest) = false) ∧ isContinued (c :: text) = false := by
  obtain ⟨blanks, c, text, hfront, hblanks, hc, hopens⟩ := h.opens
  have htrim : ∀ rest, Text.trimStart (front ++ rest) = c :: (text ++ rest) := by
    intro rest
    rw [hfront, List.append_assoc]
    exact Text.trimStart_append hblanks (by simp [hc])
  refine ⟨c, text, htrim, ?_, ?_⟩
  · simp only [List.mem_cons, List.not_mem_nil, or_false, not_or] at hopens
    simp [isIgnored, hopens]
  · obtain ⟨plain, pairs, heven, hplain⟩ := h.even
    have hcontinued : isContinued front = false := by
      rw [heven, isContinued_append (not_isContinued_of_getLast? hplain), not_isContinued_pairs]
    have hstart := htrim []
    rw [List.append_nil, List.append_nil] at hstart
    rw [← hstart, isContinued_trimStart, hcontinued]

/-- **Both parts are joined again before anything else is read.** -/
theorem logicalLines_eq (h : Break front indent back) (later : List Text) :
    logicalLines [] ((front ++ ['\\']) :: (indent ++ back) :: later)
      = logicalLines [] ((front ++ back) :: later) := by
  obtain ⟨c, text, htrim, hignored, hcontinued⟩ := h.trimStart_append
  have hindent : Text.trimStart (indent ++ back) = back := by
    refine Text.trimStart_append (fun d hd => ?_) h.unblank
    rcases h.gap d hd with rfl | rfl <;> decide
  have hslash : isContinued (c :: (text ++ ['\\'])) = true := by
    rw [← List.cons_append, isContinued_concat, hcontinued]
    rfl
  have hback : isContinued (c :: (text ++ back)) = isContinued back := by
    rw [← List.cons_append, isContinued_append hcontinued]
  have hfirst : (c :: (text ++ ['\\'])).dropLast = c :: text := by
    rw [← List.cons_append, List.dropLast_concat]
  cases hgoes : isContinued back with
  | false => simp [logicalLines, htrim, hignored, hslash, hindent, hback, hfirst, hgoes]
  | true =>
      -- the last backslash of the second part goes either way
      have hsome : back ≠ [] := by
        rintro rfl
        cases hgoes
      have hdrop : (c :: (text ++ back)).dropLast = c :: (text ++ back.dropLast) := by
        rw [← List.cons_append, List.dropLast_append_of_ne_nil hsome, List.cons_append]
      simp [logicalLines, htrim, hignored, hslash, hindent, hback, hfirst, hgoes, hdrop]

end Break

/-- **A line may be broken anywhere.** Between the lines above, none of which goes on in it, and the
lines below: where a line is broken and goes on indented, the text has the same entries as where it
is not. -/
theorem line_break_invisible {above front indent back below : Text} (habove : EndsLine above)
    (hbreak : Break front indent back) (hbelow : ∀ c ∈ below.head?, c = '\n') :
    parse (above ++ (front ++ '\\' :: '\n' :: (indent ++ back) ++ below))
      = parse (above ++ (front ++ back ++ below)) := by
  rw [habove.parse_append, habove.parse_append]
  congr 1
  obtain ⟨hfront, hback⟩ := List.forall_mem_append.mp hbreak.onLine
  have hfirst : ∀ c ∈ front ++ ['\\'], c ∉ ['\n', '\r'] :=
    List.forall_mem_append.mpr ⟨hfront, List.forall_mem_singleton.mpr (by decide)⟩
  have hsecond : ∀ c ∈ indent ++ back, c ∉ ['\n', '\r'] := by
    refine List.forall_mem_append.mpr ⟨fun c hc => ?_, hback⟩
    rcases hbreak.gap c hc with rfl | rfl <;> decide
  have hbroken : logicalLines [] (lines (front ++ '\\' :: '\n' :: (indent ++ back) ++ below))
      = logicalLines [] ((front ++ ['\\']) :: (indent ++ back) :: lines (below.drop 1)) := by
    have hread : ∀ pending, logicalLines pending (lines (indent ++ back ++ below))
        = logicalLines pending ((indent ++ back) :: lines (below.drop 1)) :=
      logicalLines_line hsecond hbelow
    calc logicalLines [] (lines (front ++ '\\' :: '\n' :: (indent ++ back) ++ below))
        = logicalLines [] (lines ((front ++ ['\\']) ++ '\n' :: (indent ++ back ++ below))) := by
          simp
      _ = logicalLines [] ((front ++ ['\\']) :: lines (indent ++ back ++ below)) :=
          logicalLines_line hfirst (by simp) []
      _ = logicalLines [] ((front ++ ['\\']) :: (indent ++ back) :: lines (below.drop 1)) := by
          rw [logicalLines, logicalLines]
          simp only [hread]
  rw [parse, parse, hbroken, hbreak.logicalLines_eq, logicalLines_line hbreak.onLine hbelow]

/-- A break behind two backslashes, in front of a part that looks like a comment and goes on itself. -/
theorem line_break_invisible_again :
    let above := "a=1\r\n".toList
    let front := "  k=x\\\\".toList
    let indent := "\t ".toList
    let back := "#y\\".toList
    let below := "\n z".toList
    EndsLine above ∧ Break front indent back ∧ (∀ c ∈ below.head?, c = '\n')
      ∧ parse (above ++ (front ++ '\\' :: '\n' :: (indent ++ back) ++ below))
          = parse (above ++ (front ++ back ++ below))
      ∧ parse (above ++ (front ++ back ++ below))
          = [("a".toList, "1".toList), ("k".toList, "x\\#yz".toList)] := by
  intro above front indent back below
  have habove : EndsLine ("a=1".toList ++ ['\r', '\n']) := .returnFeed (by decide)
  have honLine : (front ++ back).all (fun c => decide (c ∉ ['\n', '\r'])) = true := by decide
  have hbreak : Break front indent back :=
    { onLine := fun c hc => of_decide_eq_true (List.all_eq_true.mp honLine c hc)
      opens := ⟨"  ".toList, 'k', "=x\\\\".toList, rfl,
        List.forall_mem_cons.mpr ⟨rfl, List.forall_mem_singleton.mpr rfl⟩, rfl, by decide⟩
      even := ⟨"  k=x".toList, 1, rfl, by decide⟩
      gap := List.forall_mem_cons.mpr ⟨.inr rfl, List.forall_mem_singleton.mpr (.inl rfl)⟩
      unblank := fun c hc => Option.some.inj hc ▸ rfl }
  have hbelow : ∀ c ∈ below.head?, c = '\n' := fun c hc => (Option.some.inj hc).symm
  exact ⟨habove, hbreak, hbelow, line_break_invisible habove hbreak hbelow, by decide +kernel⟩

end Properties

end Logbook
