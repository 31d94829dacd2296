import Logbook.Proofs.ErrorGraph.Tour
import Mathlib.Algebra.BigOperators.Group.Finset.Piecewise

/-!
# Logbook — the walk is a tour

`ErrorGraph.walk` recurses into the graph under a budget and makes a tree, which `Trace.text` lays
out. Here both together are shown to write what the rules of `ErrorGraph.Tour` ask for, so that the
budget is never felt: the recursion goes one level deeper only at a node that was not met before, and
there are no more of these than the graph has nodes.

* **`Writes`** — a text is what the visits of an agenda write, whatever comes behind it.
* **`writes_walk`**, **`writes_visitEach`** — the walk of a node, and of several, writes the visits
  of one arrival, respectively of several.
* **`trace_text_eq_tour`** — the headline: the text of an error is written by the one tour of its
  graph, with the number of entries, labels and marks that follow from the reachable nodes.
-/

namespace Logbook

/-- Whether a cause is still the same at the next look. -/
def Cause.isLasting {ρ : Type} : Cause ρ → Bool
  | .absent => true
  | .node _ => true
  | .transient _ _ => false

namespace ErrorGraph

variable {graph : ErrorGraph}

/-- All causes are nodes of the graph, none is transient. -/
def IsLasting (graph : ErrorGraph) : Prop :=
  ∀ i, (graph.node i).cause.isLasting

instance (graph : ErrorGraph) : Decidable graph.IsLasting :=
  inferInstanceAs (Decidable (∀ i, (graph.node i).cause.isLasting))

theorem IsLasting.ne_transient (hlasting : graph.IsLasting) {i : Fin graph.size} {first : Text}
    {rest : List Text} : (graph.node i).cause ≠ .transient first rest := by
  intro hcause
  have h := hlasting i
  rw [hcause] at h
  cases h

/-! ## Texts that an agenda writes -/

/-- The text is written by the visits of this agenda, and `after` are the nodes met afterwards: a
tour of whatever comes behind the agenda goes on from there. -/
def Writes (graph : ErrorGraph) (escaped : Bool) (met : List (Fin graph.size))
    (agenda : List (Arrival (Fin graph.size))) (text : Text) (after : List (Fin graph.size)) :
    Prop :=
  met ⊆ after ∧ ∃ visits : List (Visit (Fin graph.size)),
    visits.flatMap (Visit.text graph escaped) = text
      ∧ ∀ behind later, Tour graph after behind later →
          Tour graph met (agenda ++ behind) (visits ++ later)

namespace Writes

variable {escaped : Bool} {met after : List (Fin graph.size)}

theorem nil : Writes graph escaped met [] [] met :=
  ⟨List.Subset.refl met, [], rfl, fun _ _ h => h⟩

theorem append {middle : List (Fin graph.size)} {agenda agenda' : List (Arrival (Fin graph.size))}
    {text text' : Text} (h : Writes graph escaped met agenda text middle)
    (h' : Writes graph escaped middle agenda' text' after) :
    Writes graph escaped met (agenda ++ agenda') (text ++ text') after := by
  obtain ⟨hsub, visits, htext, htour⟩ := h
  obtain ⟨hsub', visits', htext', htour'⟩ := h'
  refine ⟨List.Subset.trans hsub hsub', visits ++ visits', ?_, ?_⟩
  · rw [List.flatMap_append, htext, htext']
  · intro behind later hlater
    rw [List.append_assoc, List.append_assoc]
    exact htour _ _ (htour' _ _ hlater)

theorem again {arrival : Arrival (Fin graph.size)} (hmet : arrival.node ∈ met) :
    Writes graph escaped met [arrival] (Visit.text graph escaped ⟨arrival, false⟩) met := by
  refine ⟨List.Subset.refl met, [⟨arrival, false⟩], by simp, ?_⟩
  intro behind later hlater
  exact .again hmet hlater

/-- At a node that was not met before, its entry is written and then what its links lead to. -/
theorem first {arrival : Arrival (Fin graph.size)} {text : Text} (hnew : arrival.node ∉ met)
    (h : Writes graph escaped (arrival.node :: met)
      (graph.arrivals arrival.nodeDepth arrival.node) text after) :
    Writes graph escaped met [arrival] (Visit.text graph escaped ⟨arrival, true⟩ ++ text)
      after := by
  obtain ⟨hsub, visits, htext, htour⟩ := h
  refine ⟨fun i hi => hsub (List.mem_cons_of_mem _ hi), ⟨arrival, true⟩ :: visits, ?_, ?_⟩
  · rw [List.flatMap_cons, htext]
  · intro behind later hlater
    exact .first hnew (htour _ _ hlater)

end Writes

/-! ## The budget suffices

A budget suffices as long as it is not less than the number of nodes that were not met. -/

/-- The budget is at least the number of nodes that are left. -/
def Suffices (graph : ErrorGraph) (budget : Nat) (met : List (Fin graph.size)) : Prop :=
  graph.size ≤ budget + met.toFinset.card

theorem Suffices.mono {budget : Nat} {met after : List (Fin graph.size)}
    (h : Suffices graph budget met) (hsub : met ⊆ after) : Suffices graph budget after := by
  have hcard : met.toFinset.card ≤ after.toFinset.card :=
    Finset.card_le_card fun i hi => List.mem_toFinset.mpr (hsub (List.mem_toFinset.mp hi))
  unfold Suffices at h ⊢
  omega

/-- One step down costs one, and meets one node more. -/
theorem Suffices.cons {budget : Nat} {met : List (Fin graph.size)} {i : Fin graph.size}
    (h : Suffices graph (budget + 1) met) (hnew : i ∉ met) : Suffices graph budget (i :: met) := by
  unfold Suffices at h ⊢
  rw [List.toFinset_cons, Finset.card_insert_of_notMem (by simpa using hnew)]
  omega

/-- Where nothing is left of a sufficient budget, every node was met. -/
theorem Suffices.mem_of_zero {met : List (Fin graph.size)} (h : Suffices graph 0 met)
    (i : Fin graph.size) : i ∈ met := by
  have hall : met.toFinset = Finset.univ := by
    apply Finset.eq_univ_of_card
    rw [Fintype.card_fin]
    have hle := Finset.card_le_univ met.toFinset
    rw [Fintype.card_fin] at hle
    unfold Suffices at h
    omega
  have hi : i ∈ met.toFinset := by
    rw [hall]
    exact Finset.mem_univ i
  exact List.mem_toFinset.mp hi

/-! ## The walk -/

/-- What the walk of one arrival has to write. -/
def WalkWrites (graph : ErrorGraph) (escaped : Bool) (budget : Nat) : Prop :=
  ∀ (met : List (Fin graph.size)) (arrival : Arrival (Fin graph.size)),
    Suffices graph budget met →
      Writes graph escaped met [arrival]
        (arrival.labelText ++ Trace.text escaped (indentAt arrival.nodeDepth)
          (graph.walk budget met arrival.node).1)
        (graph.walk budget met arrival.node).2

/-- Several suppressed errors, given what the walk of each writes. Induction on the list: the nodes
met at one of them are met at the next. -/
theorem writes_visitEach {escaped : Bool} {budget : Nat} (hwalk : WalkWrites graph escaped budget)
    (depth : Nat) (nodes : List (Fin graph.size)) :
    ∀ met, Suffices graph budget met →
      Writes graph escaped met (nodes.map (⟨.suppressed, depth, ·⟩))
        (Trace.suppressedText escaped (indentAt depth)
          (visitEach (graph.walk budget) met nodes).1)
        (visitEach (graph.walk budget) met nodes).2 := by
  induction nodes with
  | nil =>
      intro met _
      exact Writes.nil
  | cons i rest ih =>
      intro met hbudget
      have hhead := hwalk met ⟨.suppressed, depth, i⟩ hbudget
      have htail := ih _ (hbudget.mono hhead.1)
      have h := hhead.append htail
      simpa [visitEach, Trace.suppressedText, Arrival.labelText, Arrival.nodeDepth, Link.deeper,
        indentAt] using h

theorem writes_cause {escaped : Bool} {budget : Nat} (hwalk : WalkWrites graph escaped budget)
    (depth : Nat) (j : Fin graph.size) (met : List (Fin graph.size))
    (hbudget : Suffices graph budget met) :
    Writes graph escaped met [⟨.cause, depth, j⟩]
      (Trace.newLine (indentAt depth) ++ "Caused by: ".toList
        ++ Trace.text escaped (indentAt depth) (graph.walk budget met j).1)
      (graph.walk budget met j).2 := by
  simpa [Arrival.labelText, Arrival.nodeDepth, Link.deeper] using
    hwalk met ⟨.cause, depth, j⟩ hbudget

/-- **The walk writes the visits of its arrival.** Induction on the budget: where it is used up the
node was met, and one step down it still suffices. -/
theorem writes_walk (hlasting : graph.IsLasting) (escaped : Bool) (budget : Nat) :
    WalkWrites graph escaped budget := by
  induction budget with
  | zero =>
      intro met arrival hbudget
      have h : Writes graph escaped met [arrival] _ met :=
        .again (hbudget.mem_of_zero arrival.node)
      simpa [walk, Trace.text, Visit.text] using h
  | succ budget ih =>
      intro met arrival hbudget
      by_cases hmet : arrival.node ∈ met
      · have h : Writes graph escaped met [arrival] _ met := .again hmet
        simpa [walk, Trace.text, Visit.text, hmet] using h
      · -- a new node: its links are walked with one step less
        have hdown := hbudget.cons hmet
        have hsup := writes_visitEach ih arrival.nodeDepth
          (graph.node arrival.node).suppressed _ hdown
        cases hcause : (graph.node arrival.node).cause with
        | absent =>
            have h := Writes.first hmet (by
              simpa [arrivals, hcause, Cause.target?] using hsup)
            simpa [walk, Trace.text, Visit.text, hmet, hcause] using h
        | node j =>
            have hby := writes_cause ih arrival.nodeDepth j _ (hdown.mono hsup.1)
            have h := Writes.first hmet (by
              simpa [arrivals, hcause, Cause.target?] using hsup.append hby)
            simpa [walk, Trace.text, Visit.text, hmet, hcause] using h
        | transient first rest => exact absurd hcause hlasting.ne_transient

/-! ## The numbers of entries, labels and marks -/

theorem countP_suppressed_arrivals (depth : Nat) (i : Fin graph.size) :
    (graph.arrivals depth i).countP (fun arrival => arrival.link == .suppressed)
      = (graph.node i).suppressed.length := by
  simp [arrivals, List.countP_map, Function.comp_def]

theorem length_target (hlasting : graph.IsLasting) (i : Fin graph.size) :
    (graph.node i).cause.target?.toList.length = if (graph.node i).hasCause then 1 else 0 := by
  cases hcause : (graph.node i).cause with
  | absent => simp [ErrorNode.hasCause, Cause.target?, hcause]
  | node j => simp [ErrorNode.hasCause, Cause.target?, hcause]
  | transient first rest => exact absurd hcause hlasting.ne_transient

theorem countP_cause_arrivals (hlasting : graph.IsLasting) (depth : Nat) (i : Fin graph.size) :
    (graph.arrivals depth i).countP (fun arrival => arrival.link == .cause)
      = if (graph.node i).hasCause then 1 else 0 := by
  rw [← length_target hlasting]
  simp [arrivals, List.countP_map, Function.comp_def]

theorem length_arrivals (hlasting : graph.IsLasting) (depth : Nat) (i : Fin graph.size) :
    (graph.arrivals depth i).length
      = (graph.node i).suppressed.length + if (graph.node i).hasCause then 1 else 0 := by
  rw [← length_target hlasting]
  simp [arrivals]

variable {start : Fin graph.size} {visits : List (Visit (Fin graph.size))}

theorem Tour.countP_first_at (h : Tour graph [] [Arrival.start start] visits)
    (i : Fin graph.size) :
    visits.countP (fun visit => visit.isFirst && visit.node == i)
      = if i ∈ graph.reachable start then 1 else 0 := by
  rw [ErrorGraph.countP_first_at, h.nodup_firsts.1.count, ← h.toFinset_firsts]
  simp

theorem Tour.countP_suppressed (h : Tour graph [] [Arrival.start start] visits) :
    visits.countP (fun visit => visit.link == .suppressed)
      = ∑ i ∈ graph.reachable start, (graph.node i).suppressed.length := by
  have hcount := h.countP_link (· == .suppressed)
  simpa [countP_suppressed_arrivals] using hcount

theorem Tour.countP_cause (hlasting : graph.IsLasting)
    (h : Tour graph [] [Arrival.start start] visits) :
    visits.countP (fun visit => visit.link == .cause)
      = ((graph.reachable start).filter fun i => (graph.node i).hasCause).card := by
  have hcount := h.countP_link (· == .cause)
  rw [Finset.card_filter]
  simpa [countP_cause_arrivals hlasting] using hcount

/-- Of the arrivals, which are the start and one for each link, all but the first at each node leave
a mark. -/
theorem Tour.countP_marks (hlasting : graph.IsLasting)
    (h : Tour graph [] [Arrival.start start] visits) :
    visits.countP (fun visit => !visit.isFirst) + (graph.reachable start).card
      = 1 + ∑ i ∈ graph.reachable start,
          ((graph.node i).suppressed.length + if (graph.node i).hasCause then 1 else 0) := by
  have hlength : visits.length
      = 1 + ∑ i ∈ graph.reachable start,
          ((graph.node i).suppressed.length + if (graph.node i).hasCause then 1 else 0) := by
    have hcount := h.countP_link fun _ => true
    simpa [length_arrivals hlasting] using hcount
  -- the visits are the first ones, one for each reachable node, and the marks
  have hfirsts : (firsts visits).length = (graph.reachable start).card := by
    rw [← h.toFinset_firsts, List.toFinset_card_of_nodup h.nodup_firsts.1]
  have hsplit := length_eq_firsts_add_marks visits
  omega

/-! ## The text of an error -/

/-- The text of an error is the text of the visits of a tour from it, with nothing met before. -/
theorem exists_tour_of_trace (hlasting : graph.IsLasting) (start : Fin graph.size)
    (escaped : Bool) :
    ∃ visits, Tour graph [] [Arrival.start start] visits
      ∧ (ErrorChain.mk graph start).trace.text escaped []
          = visits.flatMap (Visit.text graph escaped) := by
  have hbudget : Suffices graph graph.size [] := by
    unfold Suffices
    omega
  obtain ⟨_, visits, htext, htour⟩ :=
    writes_walk hlasting escaped graph.size [] (Arrival.start start) hbudget
  refine ⟨visits, ?_, ?_⟩
  · simpa using htour [] [] (.done _)
  · rw [htext]
    rfl

/-- **An error is written by the one tour of its graph.** There is exactly one way to work off the
arrival at the error by the rules of `Tour`, and the visits of it write the text. Each reachable node
is expanded exactly once; the labels count the links of the reachable nodes; and every arrival but
the first ones leaves one mark. -/
theorem trace_text_eq_tour (graph : ErrorGraph) (hlasting : graph.IsLasting)
    (start : Fin graph.size) :
    ∃ visits : List (Visit (Fin graph.size)),
      Tour graph [] [Arrival.start start] visits
      ∧ (∀ others, Tour graph [] [Arrival.start start] others → others = visits)
      ∧ (∀ escaped, (ErrorChain.mk graph start).trace.text escaped []
          = visits.flatMap (Visit.text graph escaped))
      ∧ (∀ i, visits.countP (fun visit => visit.isFirst && visit.node == i)
          = if i ∈ graph.reachable start then 1 else 0)
      ∧ visits.countP (fun visit => visit.link == .suppressed)
          = ∑ i ∈ graph.reachable start, (graph.node i).suppressed.length
      ∧ visits.countP (fun visit => visit.link == .cause)
          = ((graph.reachable start).filter fun i => (graph.node i).hasCause).card
      ∧ visits.countP (fun visit => !visit.isFirst) + (graph.reachable start).card
          = 1 + ∑ i ∈ graph.reachable start,
              ((graph.node i).suppressed.length
                + if (graph.node i).hasCause then 1 else 0) := by
  obtain ⟨visits, htour, _⟩ := exists_tour_of_trace hlasting start true
  refine ⟨visits, htour, fun others hothers => hothers.unique htour, ?_, htour.countP_first_at,
    htour.countP_suppressed, htour.countP_cause hlasting, htour.countP_marks hlasting⟩
  intro escaped
  obtain ⟨others, hothers, htext⟩ := exists_tour_of_trace hlasting start escaped
  rw [htext, hothers.unique htour]

/-- Two errors that lead to each other, one of them suppressed twice, and a cause at the end. -/
def tangled : ErrorGraph where
  size := 3
  node := fun
    | 0 => ⟨"Throwable".toList, ["main".toList], [1, 1], .node 2⟩
    | 1 => ⟨"Runtime".toList, [], [], .node 0⟩
    | 2 => ⟨"IllegalArgument".toList, [], [], .absent⟩

instance : NeZero tangled.size := ⟨by decide⟩

/-- Each of the three errors is expanded once, and the ways back leave two marks. -/
theorem trace_text_eq_tour_tangled :
    tangled.IsLasting ∧ ∀ escaped, (ErrorChain.mk tangled 0).trace.text escaped []
      = [⟨⟨.start, 0, 0⟩, true⟩, ⟨⟨.suppressed, 0, 1⟩, true⟩, ⟨⟨.cause, 1, 0⟩, false⟩,
          ⟨⟨.suppressed, 0, 1⟩, false⟩, ⟨⟨.cause, 0, 2⟩, true⟩].flatMap
        (Visit.text tangled escaped) := by
  refine ⟨by decide, fun escaped => ?_⟩
  obtain ⟨visits, _, hunique, htext, _⟩ := trace_text_eq_tour tangled (by decide) 0
  have htour : Tour tangled [] [Arrival.start 0]
      [⟨⟨.start, 0, 0⟩, true⟩, ⟨⟨.suppressed, 0, 1⟩, true⟩, ⟨⟨.cause, 1, 0⟩, false⟩,
        ⟨⟨.suppressed, 0, 1⟩, false⟩, ⟨⟨.cause, 0, 2⟩, true⟩] :=
    .first (by decide) (.first (by decide) (.again (by decide) (.again (by decide)
      (.first (by decide) (.done _)))))
  rw [htext, hunique _ htour]

end ErrorGraph

end Logbook
