import Logbook.Proofs.Text.Control
import Logbook.Trace
import Mathlib.Data.List.Infix

/-!
# Logbook — the rows of a trace

The text of a trace is a list of rows, each behind a line feed. Escaping happens before that: it turns
the descriptions and the frames into texts without line feeds, and the rows are made of what comes out.

* **`Trace.flatten`** — the trace with its descriptions and frames escaped, or as they are.
* **`Trace.rows`** — the rows, which know nothing of escaping.
* **`text_eq_rows`** — the text is the rows of the flattened trace.
* **`newline_not_mem_rows`** — with escaping on, the line feeds are those between the rows.
* **`Trace.All`** — every description of a trace has a property; `all_walk` takes this over from the
  nodes of a graph.
-/

namespace Logbook

namespace Trace

/-! ## Flattening

The shape of a trace stays: its entries, its marks, and which error suppressed or caused which. -/

mutual

/-- The trace with its descriptions and frames made visible, or as they are. -/
def flatten (escaped : Bool) : Trace → Trace
  | .seen description => .seen (Text.flatten escaped description)
  | .last description frames suppressed =>
    .last (Text.flatten escaped description) (frames.map (Text.flatten escaped))
      (flattenAll escaped suppressed)
  | .caused description frames suppressed cause =>
    .caused (Text.flatten escaped description) (frames.map (Text.flatten escaped))
      (flattenAll escaped suppressed) (flatten escaped cause)

/-- The same for several traces. -/
def flattenAll (escaped : Bool) : List Trace → List Trace
  | [] => []
  | trace :: rest => flatten escaped trace :: flattenAll escaped rest

end

/-! ## Rows -/

/-- What stands in front of a frame. -/
def frameLabel : Text := "\tat ".toList

/-- The label above a suppressed error. -/
def suppressedLabel : Text := "Suppressed: ".toList

/-- The label above a cause. -/
def causeLabel : Text := "Caused by: ".toList

/-- How the mark of an error that was met before begins. -/
def markStart : Text := "[CIRCULAR REFERENCE: ".toList

/-- How it ends. -/
def markEnd : Text := "]".toList

/-- The rows of an entry: its description, and its frames below. -/
def entryRows (indent description : Text) (frames : List Text) : List Text :=
  (indent ++ description) :: frames.map fun frame => indent ++ frameLabel ++ frame

mutual

/-- The rows of a trace at an indentation. -/
def rows (indent : Text) : Trace → List Text
  | .seen description => [indent ++ (markStart ++ description ++ markEnd)]
  | .last description frames suppressed =>
    entryRows indent description frames ++ suppressedRows indent suppressed
  | .caused description frames suppressed cause =>
    entryRows indent description frames ++ suppressedRows indent suppressed
      ++ (indent ++ causeLabel) :: rows indent cause

/-- The rows of suppressed errors, each under a label. -/
def suppressedRows (indent : Text) : List Trace → List Text
  | [] => []
  | trace :: rest =>
    (indent ++ suppressedLabel) :: rows (nested indent) trace ++ suppressedRows indent rest

end

/-- Rows as a text: each stands behind a line feed. -/
def rowText (rows : List Text) : Text :=
  rows.flatMap newLine

theorem rowText_append (a b : List Text) : rowText (a ++ b) = rowText a ++ rowText b :=
  List.flatMap_append

theorem rowText_cons (row : Text) (rows : List Text) :
    rowText (row :: rows) = newLine row ++ rowText rows :=
  List.flatMap_cons

theorem intercalate_cons (between first : Text) (rest : List Text) :
    between.intercalate (first :: rest) = first ++ rest.flatMap (between ++ ·) := by
  induction rest generalizing first with
  | nil => simp
  | cons second rest ih =>
      rw [List.intercalate_cons_cons, ih, List.flatMap_cons, List.append_assoc, List.append_assoc]

theorem newLine_append (indent row : Text) : newLine (indent ++ row) = newLine indent ++ row := rfl

theorem entryText_eq_rows (escaped : Bool) (indent description : Text) (frames : List Text) :
    entryText escaped indent description frames
      = rowText (entryRows indent (Text.flatten escaped description)
          (frames.map (Text.flatten escaped))) := by
  unfold entryText entryRows
  rw [rowText_cons, newLine_append]
  congr 1
  induction frames with
  | nil => rfl
  | cons frame rest ih =>
      rw [List.flatMap_cons, ih, List.map_cons, List.map_cons, rowText_cons, newLine_append,
        newLine_append]
      rfl

/-! The equations of the printer, with its labels by name. -/

theorem text_seen (escaped : Bool) (indent description : Text) :
    text escaped indent (.seen description)
      = newLine indent ++ markStart ++ Text.flatten escaped description ++ markEnd := rfl

theorem text_last (escaped : Bool) (indent description : Text) (frames : List Text)
    (suppressed : List Trace) :
    text escaped indent (.last description frames suppressed)
      = entryText escaped indent description frames
        ++ suppressedText escaped indent suppressed := rfl

theorem text_caused (escaped : Bool) (indent description : Text) (frames : List Text)
    (suppressed : List Trace) (cause : Trace) :
    text escaped indent (.caused description frames suppressed cause)
      = entryText escaped indent description frames ++ suppressedText escaped indent suppressed
        ++ newLine indent ++ causeLabel ++ text escaped indent cause := rfl

theorem suppressedText_cons (escaped : Bool) (indent : Text) (trace : Trace) (rest : List Trace) :
    suppressedText escaped indent (trace :: rest)
      = newLine indent ++ suppressedLabel ++ text escaped (nested indent) trace
        ++ suppressedText escaped indent rest := rfl

-- on the trace, with the indentation free: it grows on the way into the suppressed traces
mutual

theorem text_eq_rows (escaped : Bool) (indent : Text) :
    ∀ trace, text escaped indent trace = rowText (rows indent (flatten escaped trace))
  | .seen description => by
      unfold flatten rows
      rw [text_seen, rowText, List.flatMap_singleton, newLine_append]
      simp only [List.append_assoc]
  | .last description frames suppressed => by
      unfold flatten rows
      rw [text_last, entryText_eq_rows, suppressedText_eq_rows escaped indent suppressed,
        rowText_append]
  | .caused description frames suppressed cause => by
      unfold flatten rows
      rw [text_caused, entryText_eq_rows, suppressedText_eq_rows escaped indent suppressed,
        text_eq_rows escaped indent cause, rowText_append, rowText_append, rowText_cons,
        newLine_append]
      simp only [List.append_assoc]

theorem suppressedText_eq_rows (escaped : Bool) (indent : Text) :
    ∀ traces, suppressedText escaped indent traces
      = rowText (suppressedRows indent (flattenAll escaped traces))
  | [] => rfl
  | trace :: rest => by
      unfold flattenAll suppressedRows
      rw [suppressedText_cons, text_eq_rows escaped (nested indent) trace,
        suppressedText_eq_rows escaped indent rest, List.cons_append, rowText_cons, rowText_append,
        newLine_append]
      simp only [List.append_assoc]

end

/-! ## No line feed inside a row -/

theorem newline_not_mem_flatten (text : Text) : '\n' ∉ Text.flatten true text := by
  intro hmem
  obtain ⟨c, -, hc⟩ := List.mem_map.mp hmem
  have hplain := Text.isControl_visible c
  rw [hc] at hplain
  exact absurd hplain (by decide)

theorem newline_not_mem_nested {indent : Text} (hindent : '\n' ∉ indent) :
    '\n' ∉ nested indent := by
  unfold nested
  intro hmem
  rcases List.mem_append.mp hmem with hfront | hback
  · exact absurd hfront (by decide)
  · exact hindent hback

theorem newline_not_mem_entryRows {indent : Text} (hindent : '\n' ∉ indent) (description : Text)
    (frames : List Text) :
    ∀ row ∈ entryRows indent (Text.flatten true description)
      (frames.map (Text.flatten true)), '\n' ∉ row := by
  have hlabel : '\n' ∉ frameLabel := by decide
  intro row hrow
  unfold entryRows at hrow
  rcases List.mem_cons.mp hrow with rfl | hrow
  · simp [hindent, newline_not_mem_flatten]
  · obtain ⟨flat, hflat, rfl⟩ := List.mem_map.mp hrow
    obtain ⟨frame, -, rfl⟩ := List.mem_map.mp hflat
    simp [hindent, hlabel, newline_not_mem_flatten]

mutual

theorem newline_not_mem_rows {indent : Text} (hindent : '\n' ∉ indent) :
    ∀ trace, ∀ row ∈ rows indent (flatten true trace), '\n' ∉ row
  | .seen description => by
      have hstart : '\n' ∉ markStart := by decide
      have hend : '\n' ∉ markEnd := by decide
      unfold flatten rows
      simp [hindent, hstart, hend, newline_not_mem_flatten]
  | .last description frames suppressed => by
      unfold flatten rows
      exact List.forall_mem_append.mpr ⟨newline_not_mem_entryRows hindent description frames,
        newline_not_mem_suppressedRows hindent suppressed⟩
  | .caused description frames suppressed cause => by
      have hlabel : '\n' ∉ indent ++ causeLabel := by
        have hcause : '\n' ∉ causeLabel := by decide
        simp [hindent, hcause]
      unfold flatten rows
      refine List.forall_mem_append.mpr ⟨List.forall_mem_append.mpr
        ⟨newline_not_mem_entryRows hindent description frames, ?_⟩,
        List.forall_mem_cons.mpr ⟨hlabel, ?_⟩⟩
      · exact newline_not_mem_suppressedRows hindent suppressed
      · exact newline_not_mem_rows hindent cause

theorem newline_not_mem_suppressedRows {indent : Text} (hindent : '\n' ∉ indent) :
    ∀ traces, ∀ row ∈ suppressedRows indent (flattenAll true traces), '\n' ∉ row
  | [] => nofun
  | trace :: rest => by
      have hlabel : '\n' ∉ indent ++ suppressedLabel := by
        have hsuppressed : '\n' ∉ suppressedLabel := by decide
        simp [hindent, hsuppressed]
      unfold flattenAll suppressedRows
      refine List.forall_mem_append.mpr ⟨List.forall_mem_cons.mpr ⟨hlabel, ?_⟩, ?_⟩
      · exact newline_not_mem_rows (newline_not_mem_nested hindent) trace
      · exact newline_not_mem_suppressedRows hindent rest

end

/-! ## Descriptions -/

mutual

/-- Every description in the trace has the property. -/
def All (p : Text → Prop) : Trace → Prop
  | .seen description => p description
  | .last description _ suppressed => p description ∧ AllOf p suppressed
  | .caused description _ suppressed cause => p description ∧ AllOf p suppressed ∧ All p cause

/-- Every description in the traces has the property. -/
def AllOf (p : Text → Prop) : List Trace → Prop
  | [] => True
  | trace :: rest => All p trace ∧ AllOf p rest

end

theorem all_transient {p : Text → Prop} {first : Text} {rest : List Text}
    (h : ∀ description ∈ first :: rest, p description) : (transient first rest).All p := by
  induction rest generalizing first with
  | nil => exact ⟨h first List.mem_cons_self, trivial⟩
  | cons second rest ih =>
      rw [List.forall_mem_cons] at h
      exact ⟨h.1, trivial, ih h.2⟩

mutual

/-- Flattening carries a property of descriptions over, if it does so for each text. -/
theorem All.flatten {p q : Text → Prop} (hpq : ∀ text, p text → q (Text.flatten true text)) :
    ∀ trace, All p trace → All q (flatten true trace)
  | .seen description, h => hpq description h
  | .last description _ suppressed, h => ⟨hpq description h.1, AllOf.flatten hpq suppressed h.2⟩
  | .caused description _ suppressed cause, h =>
    ⟨hpq description h.1, AllOf.flatten hpq suppressed h.2.1, All.flatten hpq cause h.2.2⟩

theorem AllOf.flatten {p q : Text → Prop} (hpq : ∀ text, p text → q (Text.flatten true text)) :
    ∀ traces, AllOf p traces → AllOf q (flattenAll true traces)
  | [], _ => trivial
  | trace :: rest, h => ⟨All.flatten hpq trace h.1, AllOf.flatten hpq rest h.2⟩

end

end Trace

/-! ## The descriptions of a graph -/

/-- The descriptions of a node: its own, and those of a transient cause. -/
def ErrorNode.descriptions {ρ : Type} (node : ErrorNode ρ) : List Text :=
  node.description :: match node.cause with
    | .absent => []
    | .node _ => []
    | .transient first rest => first :: rest

namespace ErrorGraph

variable {graph : ErrorGraph}

theorem allOf_visitEach {p : Text → Prop} {N : Type} {visit : List N → N → Trace × List N}
    (hvisit : ∀ met i, (visit met i).1.All p) (met nodes : List N) :
    Trace.AllOf p (visitEach visit met nodes).1 := by
  induction nodes generalizing met with
  | nil => exact trivial
  | cons i rest ih => exact ⟨hvisit met i, ih _⟩

/-- What all descriptions of a graph satisfy, those of a walk satisfy. Induction on the budget. -/
theorem all_walk {p : Text → Prop}
    (hp : ∀ i, ∀ description ∈ (graph.node i).descriptions, p description) (budget : Nat)
    (met : List (Fin graph.size)) (i : Fin graph.size) : (graph.walk budget met i).1.All p := by
  have hown : ∀ i, p (graph.node i).description := fun i => hp i _ List.mem_cons_self
  induction budget generalizing met i with
  | zero => exact hown i
  | succ budget ih =>
      unfold walk
      dsimp only
      split
      · exact hown i
      · have hsuppressed := allOf_visitEach ih (i :: met) (graph.node i).suppressed
        cases hcause : (graph.node i).cause with
        | absent => exact ⟨hown i, hsuppressed⟩
        | node j => exact ⟨hown i, hsuppressed, ih _ j⟩
        | transient first rest =>
            refine ⟨hown i, hsuppressed, Trace.all_transient fun description hmem => hp i _ ?_⟩
            unfold ErrorNode.descriptions
            rw [hcause]
            exact List.mem_cons_of_mem _ hmem

end ErrorGraph

end Logbook
