import Logbook.Proofs.Trace.Rows

/-!
# Logbook — a trace can be read back

The layout of an error is unambiguous: the trace, with its descriptions and frames as they are shown,
is read back from the text alone. Which row is what is never seen from the row, since a description
may look like a label or like a frame. It is seen from the row before: behind a label there is always
an entry, and behind the description of an entry come its frames, its suppressed errors and its cause.
Where these end is seen from the indentation.

* **`Trace.readTrace`**, **`Trace.read`** — the reader, over rows and over a text.
* **`Apart`** — the next row does not begin in a given way, which is how a reader knows where to stop.
* **`readTrace_rows`**, **`readSuppressed_rows`** — reading the rows of a trace gives the trace, by
  induction on it and with any rows behind that are less indented.
* **`trace_text_unambiguous`** — the headline.

The one thing that a description must not look like is the mark of an error that was met before.
-/

namespace Logbook

namespace Trace

/-! ## The reader -/

/-- Reads the mark of an error that was met before. -/
def readMark? (entry : Text) : Option Text :=
  (markStart.isPrefixOf? entry).map List.dropLast

/-- Reads frames, as many as there are. -/
def readFrames (indent : Text) : List Text → List Text × List Text
  | [] => ([], [])
  | row :: rest =>
    match (indent ++ frameLabel).isPrefixOf? row with
    | some frame => (frame :: (readFrames indent rest).1, (readFrames indent rest).2)
    | none => ([], row :: rest)

mutual

/-- Reads one trace at an indentation, and leaves the rows behind it. The budget bounds the depth of
the recursion; one more than there are rows is enough. -/
def readTrace : Nat → Text → List Text → Option (Trace × List Text)
  | 0, _, _ => none
  | _ + 1, _, [] => none
  | budget + 1, indent, row :: rest => do
    let entry ← indent.isPrefixOf? row
    match readMark? entry with
    | some description => some (.seen description, rest)
    | none =>
      let (frames, rest) := readFrames indent rest
      let (suppressed, rest) ← readSuppressed budget indent rest
      if rest.head? = some (indent ++ causeLabel) then do
        let (cause, rest) ← readTrace budget indent rest.tail
        some (.caused entry frames suppressed cause, rest)
      else some (.last entry frames suppressed, rest)

/-- Reads suppressed errors, as many as there are labels for. -/
def readSuppressed : Nat → Text → List Text → Option (List Trace × List Text)
  | 0, _, _ => none
  | budget + 1, indent, rows =>
    if rows.head? = some (indent ++ suppressedLabel) then do
      let (trace, rest) ← readTrace budget (nested indent) rows.tail
      let (traces, rest) ← readSuppressed budget indent rest
      some (trace :: traces, rest)
    else some ([], rows)

end

/-- The trace that a text shows, if it shows one and nothing else. The first line feed has nothing in
front of it. -/
def read (text : Text) : Option Trace :=
  match readTrace (text.splitOn '\n').length [] (text.splitOn '\n').tail with
  | some (trace, []) => some trace
  | _ => none

/-! ## Where the reader stops -/

/-- The next row, if there is one, does not begin like this. -/
def Apart (start : Text) (rest : List Text) : Prop :=
  ∀ row ∈ rest.head?, ¬ start <+: row

theorem Apart.mono {start longer : Text} {rest : List Text} (h : Apart start rest)
    (hle : start <+: longer) : Apart longer rest :=
  fun row hrow hprefix => h row hrow (hle.trans hprefix)

theorem apart_cons {indent label other : Text} (h : ¬ label <+: other) (rest : List Text) :
    Apart (indent ++ label) ((indent ++ other) :: rest) := by
  intro row hrow hprefix
  obtain rfl : indent ++ other = row := Option.some.inj hrow
  exact h ((List.prefix_append_right_inj indent).mp hprefix)

theorem Apart.head?_ne {start : Text} {rest : List Text} (h : Apart start rest) :
    rest.head? ≠ some start :=
  fun hhead => h start hhead (List.prefix_refl start)

theorem apart_suppressedRows {indent label : Text} {rest : List Text}
    (hlabel : ¬ label <+: suppressedLabel) (hrest : Apart (indent ++ label) rest)
    (traces : List Trace) : Apart (indent ++ label) (suppressedRows indent traces ++ rest) := by
  cases traces with
  | nil => exact hrest
  | cons trace traces => exact apart_cons hlabel _

/-- An indentation made of nothing but steps: one more step can be put in front or behind. -/
def IsIndent (indent : Text) : Prop :=
  nested indent = indent ++ nested []

theorem isIndent_nil : IsIndent [] := rfl

theorem IsIndent.nested {indent : Text} (h : IsIndent indent) : IsIndent (nested indent) := by
  have hstep : ∀ text : Text, Trace.nested text = Trace.nested [] ++ text := fun _ => rfl
  unfold IsIndent at h ⊢
  conv_lhs => rw [h, hstep, ← List.append_assoc, ← hstep]

/-! ## Reading rows -/

theorem readFrames_rows {indent : Text} {rest : List Text}
    (hrest : Apart (indent ++ frameLabel) rest) (frames : List Text) :
    readFrames indent (frames.map (fun frame => indent ++ frameLabel ++ frame) ++ rest)
      = (frames, rest) := by
  induction frames with
  | nil =>
      cases rest with
      | nil => rfl
      | cons row rest =>
          have hnone : (indent ++ frameLabel).isPrefixOf? row = none := by
            rw [Option.eq_none_iff_forall_ne_some]
            intro frame hframe
            exact hrest row rfl ⟨frame, List.isPrefixOf?_eq_some_iff_append_eq.mp hframe⟩
          show readFrames indent (row :: rest) = _
          unfold readFrames
          rw [hnone]
  | cons frame frames ih =>
      have hframe : (indent ++ frameLabel).isPrefixOf? (indent ++ frameLabel ++ frame)
          = some frame := List.isPrefixOf?_eq_some_iff_append_eq.mpr rfl
      rw [List.map_cons, List.cons_append]
      unfold readFrames
      rw [hframe, ih]

theorem readMark?_mark (description : Text) :
    readMark? (markStart ++ description ++ markEnd) = some description := by
  have hstart : markStart.isPrefixOf? (markStart ++ (description ++ markEnd))
      = some (description ++ markEnd) := List.isPrefixOf?_eq_some_iff_append_eq.mpr rfl
  have hend : markEnd = [']'] := rfl
  unfold readMark?
  rw [List.append_assoc, hstart, hend, Option.map_some, List.dropLast_concat]

theorem readMark?_eq_none {entry : Text} (h : ¬ markStart <+: entry) : readMark? entry = none := by
  unfold readMark?
  rw [Option.map_eq_none_iff, Option.eq_none_iff_forall_ne_some]
  intro rest hrest
  exact h ⟨rest, List.isPrefixOf?_eq_some_iff_append_eq.mp hrest⟩

/-- One step of the reader, at an entry whose frames, suppressed errors and cause are known. -/
theorem readTrace_entry {budget : Nat} {indent entry : Text} {frames : List Text}
    {suppressed : List Trace} {rest : List Text} (hentry : ¬ markStart <+: entry)
    (hframes : Apart (indent ++ frameLabel) rest)
    (hsuppressed : readSuppressed budget indent (suppressedRows indent suppressed ++ rest)
      = some (suppressed, rest)) :
    readTrace (budget + 1) indent
        (entryRows indent entry frames ++ suppressedRows indent suppressed ++ rest)
      = if rest.head? = some (indent ++ causeLabel) then do
          let (cause, rest) ← readTrace budget indent rest.tail
          some (.caused entry frames suppressed cause, rest)
        else some (.last entry frames suppressed, rest) := by
  have hrow : indent.isPrefixOf? (indent ++ entry) = some entry :=
    List.isPrefixOf?_eq_some_iff_append_eq.mpr rfl
  have hbelow := readFrames_rows (apart_suppressedRows (by decide) hframes suppressed) frames
  rw [entryRows, List.append_assoc, List.cons_append, readTrace]
  simp only [hrow, readMark?_eq_none hentry, hbelow, hsuppressed, Option.bind_eq_bind,
    Option.bind_some]

-- on the trace: the rows behind it stay free, and are less indented
mutual

theorem readTrace_rows :
    ∀ (trace : Trace) {budget : Nat} {indent : Text} {rest : List Text}, IsIndent indent →
      (rows indent trace).length < budget → trace.All (¬ markStart <+: ·) → Apart indent rest →
        readTrace budget indent (rows indent trace ++ rest) = some (trace, rest)
  | .seen description, 0, _, _, _, hbudget, _, _ => by cases hbudget
  | .last description frames suppressed, 0, _, _, _, hbudget, _, _ => by cases hbudget
  | .caused description frames suppressed cause, 0, _, _, _, hbudget, _, _ => by cases hbudget
  | .seen description, budget + 1, indent, rest, _, _, _, _ => by
      have hrow : indent.isPrefixOf? (indent ++ (markStart ++ description ++ markEnd))
          = some (markStart ++ description ++ markEnd) :=
        List.isPrefixOf?_eq_some_iff_append_eq.mpr rfl
      unfold rows
      rw [List.singleton_append]
      unfold readTrace
      simp only [hrow, readMark?_mark, Option.bind_eq_bind, Option.bind_some]
  | .last description frames suppressed, budget + 1, indent, rest, hindent, hbudget, hall,
      hrest => by
      unfold rows at hbudget ⊢
      rw [List.length_append, entryRows, List.length_cons] at hbudget
      have hless : ∀ label, Apart (indent ++ label) rest := fun label =>
        hrest.mono (List.prefix_append indent label)
      have hsuppressed : readSuppressed budget indent (suppressedRows indent suppressed ++ rest)
          = some (suppressed, rest) :=
        readSuppressed_rows suppressed hindent (by omega) hall.2 (hless suppressedLabel) (hless _)
      rw [readTrace_entry hall.1 (hless frameLabel) hsuppressed,
        if_neg (hless causeLabel).head?_ne]
  | .caused description frames suppressed cause, budget + 1, indent, rest, hindent, hbudget, hall,
      hrest => by
      unfold rows at hbudget ⊢
      rw [List.length_append, List.length_append, entryRows, List.length_cons, List.length_cons]
        at hbudget
      have hsuppressed : readSuppressed budget indent
          (suppressedRows indent suppressed ++ (indent ++ causeLabel) :: (rows indent cause ++ rest))
          = some (suppressed, (indent ++ causeLabel) :: (rows indent cause ++ rest)) :=
        readSuppressed_rows suppressed hindent (by omega) hall.2.1 (apart_cons (by decide) _)
          (apart_cons (by decide) _)
      have hcause : readTrace budget indent (rows indent cause ++ rest) = some (cause, rest) :=
        readTrace_rows cause hindent (by omega) hall.2.2 hrest
      rw [List.append_assoc, List.cons_append,
        readTrace_entry hall.1 (apart_cons (by decide) _) hsuppressed, List.head?_cons, if_pos rfl,
        List.tail_cons, hcause]
      rfl

theorem readSuppressed_rows :
    ∀ (traces : List Trace) {budget : Nat} {indent : Text} {rest : List Text}, IsIndent indent →
      (suppressedRows indent traces).length < budget → AllOf (¬ markStart <+: ·) traces →
        Apart (indent ++ suppressedLabel) rest → Apart (indent ++ nested []) rest →
          readSuppressed budget indent (suppressedRows indent traces ++ rest) = some (traces, rest)
  | [], 0, _, _, _, hbudget, _, _, _ => by cases hbudget
  | _ :: _, 0, _, _, _, hbudget, _, _, _ => by cases hbudget
  | [], budget + 1, indent, rest, _, _, _, hlabel, _ => by
      unfold suppressedRows readSuppressed
      rw [List.nil_append, if_neg hlabel.head?_ne]
  | trace :: traces, budget + 1, indent, rest, hindent, hbudget, hall, hlabel, hdeeper => by
      unfold suppressedRows at hbudget ⊢
      rw [List.length_append, List.length_cons] at hbudget
      have hbehind : Apart (nested indent) (suppressedRows indent traces ++ rest) := by
        rw [hindent]
        exact apart_suppressedRows (by decide) hdeeper traces
      have htrace : readTrace budget (nested indent)
          (rows (nested indent) trace ++ (suppressedRows indent traces ++ rest))
          = some (trace, suppressedRows indent traces ++ rest) :=
        readTrace_rows trace hindent.nested (by omega) hall.1 hbehind
      have htraces : readSuppressed budget indent (suppressedRows indent traces ++ rest)
          = some (traces, rest) :=
        readSuppressed_rows traces hindent (by omega) hall.2 hlabel hdeeper
      rw [List.append_assoc, List.cons_append, readSuppressed, List.head?_cons, if_pos rfl,
        List.tail_cons, htrace]
      simp only [Option.bind_eq_bind, Option.bind_some, htraces]

end

/-! ## Reading a text -/

theorem splitOn_rowText {rows : List Text} (hrows : ∀ row ∈ rows, '\n' ∉ row) :
    (rowText rows).splitOn '\n' = [] :: rows := by
  have hlines : ∀ row ∈ [] :: rows, '\n' ∉ row := List.forall_mem_cons.mpr ⟨nofun, hrows⟩
  have htext : ['\n'].intercalate ([] :: rows) = rowText rows := intercalate_cons ['\n'] [] rows
  rw [← htext]
  exact List.splitOn_intercalate '\n' hlines (by simp)

/-- Nothing begins like a mark only because it was escaped: the mark has none of the characters that
stand in for others. -/
theorem not_markStart_prefix_flatten {text : Text} (h : ¬ markStart <+: text) :
    ¬ markStart <+: Text.flatten true text := by
  have hvisible : ∀ c, Text.visible c ∈ markStart → Text.visible c = c := by
    intro c hc
    have hfixed : markStart.all (· ∉ ['|', '<', '?']) = true := by decide
    have hother : Text.visible c ∉ ['|', '<', '?'] := by
      simpa using List.all_eq_true.mp hfixed _ hc
    exact (Text.visible_cases c).resolve_right hother
  rintro ⟨rest, hrest⟩
  obtain ⟨front, back, rfl, hfront, -⟩ := List.map_eq_append_iff.mp hrest.symm
  -- the front of the text is shown as it is
  have hsame : front.map Text.visible = front.map id := by
    refine List.map_congr_left fun c hc => hvisible c ?_
    rw [← hfront]
    exact List.mem_map_of_mem hc
  rw [hsame, List.map_id] at hfront
  exact h ⟨back, by rw [hfront]⟩

theorem read_text {trace : Trace} (hall : trace.All (¬ markStart <+: ·)) :
    read (trace.text true []) = some (trace.flatten true) := by
  have hlines : (rowText (rows [] (trace.flatten true))).splitOn '\n'
      = [] :: rows [] (trace.flatten true) :=
    splitOn_rowText (newline_not_mem_rows List.not_mem_nil trace)
  have hrows : readTrace ((rows [] (trace.flatten true)).length + 1) []
      (rows [] (trace.flatten true) ++ []) = some (trace.flatten true, []) :=
    readTrace_rows _ isIndent_nil (Nat.lt_succ_self _)
      (All.flatten (fun _ => not_markStart_prefix_flatten) trace hall) nofun
  rw [List.append_nil] at hrows
  unfold read
  rw [text_eq_rows, hlines, List.tail_cons, List.length_cons, hrows]

end Trace

/-! ## Reading an error -/

/-- No error of the graph is described like the mark of an error that was met before. -/
def ErrorGraph.IsUnmarked (graph : ErrorGraph) : Prop :=
  ∀ i, ∀ description ∈ (graph.node i).descriptions, ¬ Trace.markStart <+: description

instance (graph : ErrorGraph) : Decidable graph.IsUnmarked :=
  inferInstanceAs (Decidable (∀ i, ∀ description ∈ (graph.node i).descriptions,
    ¬ Trace.markStart <+: description))

theorem ErrorChain.read_trace {chain : ErrorChain} (hunmarked : chain.graph.IsUnmarked) :
    Trace.read (chain.trace.text true []) = some (chain.trace.flatten true) :=
  Trace.read_text (ErrorGraph.all_walk hunmarked _ _ _)

/-- **The text of an error is unambiguous.** With escaping on, the walk over the graph is read back
from it: every entry with its description and its frames as they are shown, the suppressed errors of
each in order, its cause, and where an error was met before. So two errors with the same text, whose
graphs may have nothing else in common, have the same walk. -/
theorem ErrorChain.trace_text_unambiguous (one other : ErrorChain) (hone : one.graph.IsUnmarked)
    (hother : other.graph.IsUnmarked) :
    Trace.read (one.trace.text true []) = some (one.trace.flatten true)
      ∧ (one.trace.text true [] = other.trace.text true [] →
          one.trace.flatten true = other.trace.flatten true) := by
  refine ⟨read_trace hone, fun htext => ?_⟩
  have hread := read_trace hone
  rw [htext, read_trace hother] at hread
  exact (Option.some.inj hread).symm

/-- Two errors that suppress and cause each other, and are described like labels. -/
def ErrorChain.labelled : ErrorChain where
  graph := ⟨2, fun
    | 0 => ⟨"lost\nCaused by: ".toList, ["at x\n\tat y".toList], [1, 0], .node 1⟩
    | 1 => ⟨"Suppressed: ".toList, [], [], .node 0⟩⟩
  start := (0 : Fin 2)

/-- The same errors in another order, with the stand-ins of their line breaks. -/
def ErrorChain.relabelled : ErrorChain where
  graph := ⟨2, fun
    | 0 => ⟨"Suppressed: ".toList, [], [], .node 1⟩
    | 1 => ⟨"lost|Caused by: ".toList, ["at x|?at y".toList], [0, 1], .node 0⟩⟩
  start := (1 : Fin 2)

theorem ErrorChain.trace_text_unambiguous_labelled :
    labelled.graph.IsUnmarked ∧ relabelled.graph.IsUnmarked
      ∧ labelled.trace.text true [] = relabelled.trace.text true []
      ∧ labelled.trace.flatten true = relabelled.trace.flatten true := by
  have hone : labelled.graph.IsUnmarked := by decide +kernel
  have hother : relabelled.graph.IsUnmarked := by decide +kernel
  have htext : labelled.trace.text true [] = relabelled.trace.text true [] := by decide +kernel
  exact ⟨hone, hother, htext, (trace_text_unambiguous labelled relabelled hone hother).2 htext⟩

-- Without the condition: an error that causes itself, and one that says so.
example :
    let one : ErrorChain := ⟨⟨1, fun _ => ⟨"x".toList, [], [], .node 0⟩⟩, 0⟩
    let other : ErrorChain := ⟨⟨2, fun i => if i = 0 then ⟨"x".toList, [], [], .node 1⟩
      else ⟨"[CIRCULAR REFERENCE: x]".toList, [], [], .absent⟩⟩, 0⟩
    one.trace.text true [] = other.trace.text true [] := by
  decide +kernel

end Logbook
