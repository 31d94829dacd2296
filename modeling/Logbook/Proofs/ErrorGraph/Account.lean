import Logbook.ErrorGraph.Account
import Logbook.Proofs.ErrorGraph.Walk
import Logbook.Proofs.Trace.Rows

/-!
# Logbook — what is recorded of a foreign error

A foreign error is recorded by a walk down its sources and a node for each text on the way. The walk
keeps the errors it has met and has room for 64 of them. Where the sources come to an end no error
is met twice, so only the room is felt.

* **`Foreign.SourceChain`** — the errors from one down to its last source; `SourceChain.nodup` says
  that they are all different.
* **`Foreign.account_eq_take`** — the walk takes their texts, from the outermost on.
* **`ErrorChain.Lists`** — a graph that is nothing but a series of causes, and `Lists.tour`, how it
  is toured.
* **`ErrorChain.records_source_chain`** — the headline: what is recorded, and how it is written.
-/

namespace Logbook

namespace Foreign

variable {ι : Type} {errors : Foreign ι} {error : ι} {chain : List ι}

/-- The errors from one down to its last source, the outermost first. -/
inductive SourceChain (errors : Foreign ι) : ι → List ι → Prop where
  | last {error : ι} (hsource : errors.source error = none) : SourceChain errors error [error]
  | cons {error under : ι} {rest : List ι} (hsource : errors.source error = some under)
      (hrest : SourceChain errors under rest) : SourceChain errors error (error :: rest)

/-! ## No error is met twice

An error has one source at most, so the errors below it are determined by it. -/

theorem SourceChain.unique {others : List ι} (h : SourceChain errors error chain)
    (h' : SourceChain errors error others) : chain = others := by
  induction h generalizing others with
  | last hsource =>
      cases h' with
      | last _ => rfl
      | cons hsource' _ => rw [hsource] at hsource'; cases hsource'
  | cons hsource _ ih =>
      cases h' with
      | last hsource' => rw [hsource] at hsource'; cases hsource'
      | cons hsource' hrest' =>
          rw [hsource] at hsource'
          cases hsource'
          rw [ih hrest']

theorem SourceChain.exists_of_mem {other : ι} (h : SourceChain errors error chain)
    (hmem : other ∈ chain) :
    ∃ below, SourceChain errors other below ∧ below.length ≤ chain.length := by
  induction h with
  | last hsource =>
      rw [List.mem_singleton] at hmem
      subst hmem
      exact ⟨_, .last hsource, Nat.le_refl _⟩
  | cons hsource hrest ih =>
      rcases List.mem_cons.mp hmem with rfl | hmem
      · exact ⟨_, .cons hsource hrest, Nat.le_refl _⟩
      · obtain ⟨below, hbelow, hle⟩ := ih hmem
        exact ⟨below, hbelow, Nat.le_succ_of_le hle⟩

/-- **A series of sources that comes to an end has no error twice.** One that came again would have
the whole series below it once more, which is longer than what is left. -/
theorem SourceChain.nodup (h : SourceChain errors error chain) : chain.Nodup := by
  induction h with
  | last _ => exact List.nodup_singleton _
  | @cons error under rest hsource hrest ih =>
      refine List.nodup_cons.mpr ⟨fun hmem => ?_, ih⟩
      obtain ⟨below, hbelow, hle⟩ := hrest.exists_of_mem hmem
      have hsame : error :: rest = below := (SourceChain.cons hsource hrest).unique hbelow
      rw [← hsame, List.length_cons] at hle
      omega

/-- The account of an error, with nothing below it met before, takes the texts of its chain as long
as there is room. -/
theorem account_eq_take [DecidableEq ι] (h : SourceChain errors error chain) (room : Nat)
    {met : List ι} (hmet : ∀ other ∈ chain, other ∉ met) :
    errors.account room met error = (chain.map errors.text).take room := by
  have hnodup := h.nodup
  induction h generalizing room met with
  | last hsource =>
      cases room with
      | zero => rfl
      | succ room =>
          have hnew := hmet _ List.mem_cons_self
          simp [account, hnew, hsource]
  | @cons error under rest hsource hrest ih =>
      obtain ⟨hself, hnodup⟩ := List.nodup_cons.mp hnodup
      cases room with
      | zero => rfl
      | succ room =>
          have hnew := hmet error List.mem_cons_self
          have hbelow : ∀ other ∈ rest, other ∉ error :: met := by
            intro other hother hin
            rcases List.mem_cons.mp hin with rfl | hin
            · exact hself hother
            · exact hmet other (List.mem_cons_of_mem error hother) hin
          simp [account, hnew, hsource, ih room hbelow hnodup]

theorem account_ne_nil [DecidableEq ι] (errors : Foreign ι) (error : ι) (room : Nat) :
    errors.account (room + 1) [] error ≠ [] := by
  simp [account]

/-- Listed texts lie under each other, from any of them down to the last. -/
theorem sourceChain_listed {texts : List Text} {place : Nat} (h : place < texts.length) :
    (listed texts).SourceChain place (List.range' place (texts.length - place)) := by
  obtain ⟨left, hleft⟩ : ∃ left, texts.length - place = left + 1 :=
    ⟨texts.length - place - 1, by omega⟩
  induction left generalizing place with
  | zero =>
      rw [hleft]
      exact .last (if_neg (by omega))
  | succ left ih =>
      have hbelow : texts.length - (place + 1) = left + 1 := by omega
      have hrest := ih (by omega) hbelow
      rw [hbelow] at hrest
      rw [hleft, List.range'_succ]
      exact .cons (if_pos (by omega)) hrest

theorem map_text_listed (texts : List Text) :
    (List.range' 0 texts.length).map (listed texts).text = texts := by
  apply List.ext_getElem
  · simp
  · intro i _ hi
    simp [listed, hi]

end Foreign

theorem ErrorGraph.node_ofNodes (nodes : List (ErrorNode Nat)) (i : Fin (ofNodes nodes).size) :
    ∃ node, nodes[i.val]? = some node ∧ (ofNodes nodes).node i
      = node.relink fun k => if h : k < (ofNodes nodes).size then some ⟨k, h⟩ else none := by
  have hi : i.val < nodes.length := i.isLt
  exact ⟨nodes[i.val], List.getElem?_eq_getElem hi, rfl⟩

namespace ErrorChain

open Logbook.ErrorGraph

/-! ## The nodes of an account -/

theorem length_linkedNodes (position : Nat) (texts : List Text) :
    (linkedNodes position texts).length = texts.length := by
  fun_induction linkedNodes position texts with
  | case1 => rfl
  | case2 => rfl
  | case3 position first second rest ih => simpa using ih

theorem getElem?_linkedNodes (position : Nat) (texts : List Text) (i : Nat) :
    (linkedNodes position texts)[i]? = texts[i]?.map fun text =>
      ⟨text, [], [], if i + 1 < texts.length then .node (position + i + 1) else .absent⟩ := by
  fun_induction linkedNodes position texts generalizing i with
  | case1 => rfl
  | case2 position last =>
      cases i with
      | zero => rfl
      | succ i => rfl
  | case3 position first second rest ih =>
      cases i with
      | zero => simp
      | succ i =>
          rw [List.getElem?_cons_succ, ih, List.getElem?_cons_succ]
          have hplace : position + 1 + i + 1 = position + (i + 1) + 1 := by omega
          simp [hplace]

/-- The graph of the error has a node for each text and no other. From the error on, each node is
caused by the next, and nothing else hangs on it. -/
structure Lists (chain : ErrorChain) (texts : List Text) : Prop where
  size_eq : chain.graph.size = texts.length
  start_eq : chain.start.val = 0
  description_eq : ∀ i, texts[i.val]? = some (chain.graph.node i).description
  frames_eq : ∀ i, (chain.graph.node i).frames = []
  suppressed_eq : ∀ i, (chain.graph.node i).suppressed = []
  cause_eq : ∀ i, (chain.graph.node i).cause
    = if h : i.val + 1 < chain.graph.size then .node ⟨i.val + 1, h⟩ else .absent

/-- A graph of linked nodes, from the first on, is a series of causes. -/
theorem lists_linkedNodes {texts : List Text}
    (hpos : 0 < (ErrorGraph.ofNodes (linkedNodes 0 texts)).size) :
    (ErrorChain.mk (ErrorGraph.ofNodes (linkedNodes 0 texts)) ⟨0, hpos⟩).Lists texts := by
  have hsize : (ErrorGraph.ofNodes (linkedNodes 0 texts)).size = texts.length :=
    length_linkedNodes 0 texts
  have hnode : ∀ i, ∃ text, texts[i.val]? = some text
      ∧ (ErrorGraph.ofNodes (linkedNodes 0 texts)).node i
        = ⟨text, [], [], if h : i.val + 1 < (ErrorGraph.ofNodes (linkedNodes 0 texts)).size
            then .node ⟨i.val + 1, h⟩ else .absent⟩ := by
    intro i
    obtain ⟨node, hnode, heq⟩ := ErrorGraph.node_ofNodes _ i
    rw [getElem?_linkedNodes] at hnode
    obtain ⟨text, htext, rfl⟩ := Option.map_eq_some_iff.mp hnode
    refine ⟨text, htext, ?_⟩
    rw [heq]
    by_cases hnext : i.val + 1 < texts.length
    · simp [ErrorNode.relink, Cause.relink, hnext, hsize]
    · simp [ErrorNode.relink, Cause.relink, hnext, hsize]
  choose text htext hnode using hnode
  exact {
    size_eq := hsize
    start_eq := rfl
    description_eq := fun i =>
      (htext i).trans (congrArg (fun node => some node.description) (hnode i).symm)
    frames_eq := fun i => congrArg ErrorNode.frames (hnode i)
    suppressed_eq := fun i => congrArg ErrorNode.suppressed (hnode i)
    cause_eq := fun i => congrArg ErrorNode.cause (hnode i) }

theorem lists_ofForeign {ι : Type} [DecidableEq ι] (errors : Foreign ι) (error : ι) :
    (ofForeign errors error).Lists (errors.account maxLinks [] error) := by
  have hpos : 0 < (ErrorGraph.ofNodes (linkedNodes 0 (errors.account maxLinks [] error))).size := by
    show 0 < (linkedNodes 0 (errors.account maxLinks [] error)).length
    rw [length_linkedNodes]
    exact List.length_pos_of_ne_nil (errors.account_ne_nil error 63)
  have hrecorded : ofForeign errors error = ⟨_, ⟨0, hpos⟩⟩ := dif_pos hpos
  rw [hrecorded]
  exact lists_linkedNodes hpos

/-! ## How it is written

A series of causes is toured from the outermost error on, one node after the other. None is met
twice, as each link leads to the next place. -/

variable {chain : ErrorChain} {texts : List Text}

/-- The nodes from a place on. -/
def nodesFrom (chain : ErrorChain) (n : Nat) : List (Fin chain.graph.size) :=
  (List.finRange chain.graph.size).drop n

theorem nodesFrom_eq_cons {n : Nat} (hn : n < chain.graph.size) :
    chain.nodesFrom n = ⟨n, hn⟩ :: chain.nodesFrom (n + 1) := by
  unfold nodesFrom
  rw [List.drop_eq_getElem_cons (by simpa using hn)]
  simp

theorem nodesFrom_eq_nil {n : Nat} (hn : chain.graph.size ≤ n) : chain.nodesFrom n = [] :=
  List.drop_eq_nil_of_le (by simpa using hn)

/-- The visits of a series of causes: one to each node, from the outermost on. -/
def descent (chain : ErrorChain) : List (Visit (Fin chain.graph.size)) :=
  ⟨Arrival.start chain.start, true⟩ :: (chain.nodesFrom 1).map fun i => ⟨⟨.cause, 0, i⟩, true⟩

namespace Lists

theorem isLasting (h : chain.Lists texts) : chain.graph.IsLasting := by
  intro i
  rw [h.cause_eq]
  split
  · rfl
  · rfl

theorem arrivals_eq (h : chain.Lists texts) (i : Fin chain.graph.size) :
    chain.graph.arrivals 0 i
      = (chain.nodesFrom (i.val + 1)).head?.toList.map fun j => ⟨.cause, 0, j⟩ := by
  rw [arrivals, h.suppressed_eq, h.cause_eq]
  by_cases hnext : i.val + 1 < chain.graph.size
  · simp [hnext, nodesFrom_eq_cons, Cause.target?]
  · simp [hnext, nodesFrom_eq_nil (Nat.le_of_not_lt hnext), Cause.target?]

/-- From any place on, with none of the nodes met before, each is expanded at its only visit. -/
theorem tour_from (h : chain.Lists texts) (n : Nat) (met : List (Fin chain.graph.size))
    (hmet : ∀ i ∈ met, i.val < n) :
    Tour chain.graph met ((chain.nodesFrom n).head?.toList.map fun i => ⟨.cause, 0, i⟩)
      ((chain.nodesFrom n).map fun i => ⟨⟨.cause, 0, i⟩, true⟩) := by
  by_cases hn : n < chain.graph.size
  · rw [nodesFrom_eq_cons hn]
    refine .first (fun hmem => Nat.lt_irrefl n (hmet _ hmem)) ?_
    show Tour _ _ (chain.graph.arrivals 0 ⟨n, hn⟩ ++ []) _
    rw [List.append_nil, h.arrivals_eq]
    refine h.tour_from (n + 1) _ fun i hi => ?_
    rcases List.mem_cons.mp hi with rfl | hi
    · exact Nat.lt_succ_self n
    · exact Nat.lt_succ_of_lt (hmet i hi)
  · rw [nodesFrom_eq_nil (Nat.le_of_not_lt hn)]
    exact .done met
termination_by chain.graph.size - n

theorem tour (h : chain.Lists texts) :
    Tour chain.graph [] [Arrival.start chain.start] chain.descent := by
  refine .first List.not_mem_nil ?_
  show Tour _ _ (chain.graph.arrivals 0 chain.start ++ []) _
  rw [List.append_nil, h.arrivals_eq, h.start_eq]
  refine h.tour_from 1 _ fun i hi => ?_
  rw [List.mem_singleton.mp hi]
  show chain.start.val < 1
  rw [h.start_eq]
  exact Nat.zero_lt_one

theorem map_description (h : chain.Lists texts) (n : Nat) :
    (chain.nodesFrom n).map (fun i => (chain.graph.node i).description) = texts.drop n := by
  have hall : (List.finRange chain.graph.size).map (fun i => (chain.graph.node i).description)
      = texts := by
    apply List.ext_getElem?
    intro i
    by_cases hi : i < chain.graph.size
    · rw [h.description_eq ⟨i, hi⟩]
      simp [hi]
    · have hout : texts.length ≤ i := h.size_eq ▸ Nat.le_of_not_lt hi
      rw [List.getElem?_eq_none hout]
      simpa using hi
  rw [nodesFrom, List.map_drop, hall]

theorem texts_eq_cons (h : chain.Lists texts) :
    texts = chain.description :: texts.drop 1 := by
  have hpos : 0 < chain.graph.size := Nat.lt_of_le_of_lt (Nat.zero_le _) chain.start.isLt
  have hstart : chain.start = ⟨0, hpos⟩ := Fin.ext h.start_eq
  have hall := h.map_description 0
  rw [nodesFrom_eq_cons hpos, List.map_cons, h.map_description 1, List.drop_zero, ← hstart] at hall
  exact hall.symm

theorem text_start (h : chain.Lists texts) (escaped : Bool) :
    Visit.text chain.graph escaped ⟨Arrival.start chain.start, true⟩
      = '\n' :: Text.flatten escaped chain.description := by
  show [] ++ Trace.entryText escaped [] chain.description (chain.graph.node chain.start).frames = _
  rw [h.frames_eq]
  simp [Trace.entryText, Trace.newLine]

theorem text_cause (h : chain.Lists texts) (escaped : Bool) (i : Fin chain.graph.size) :
    Visit.text chain.graph escaped ⟨⟨.cause, 0, i⟩, true⟩
      = "\nCaused by: ".toList
        ++ '\n' :: Text.flatten escaped (chain.graph.node i).description := by
  show "\nCaused by: ".toList
    ++ Trace.entryText escaped [] (chain.graph.node i).description (chain.graph.node i).frames = _
  rw [h.frames_eq]
  simp [Trace.entryText, Trace.newLine]

/-- **A series of causes is written as its texts**, each on a line of its own, with the label of a
cause between any two. -/
theorem text_descent (h : chain.Lists texts) (escaped : Bool) :
    chain.descent.flatMap (Visit.text chain.graph escaped)
      = "\nCaused by: ".toList.intercalate
          (texts.map fun text => '\n' :: Text.flatten escaped text) := by
  rw [h.texts_eq_cons, List.map_cons, Trace.intercalate_cons, descent, List.flatMap_cons,
    h.text_start, ← h.map_description 1]
  simp only [List.flatMap_map, List.map_map, h.text_cause, Function.comp_def]

theorem length_nodesFrom_one (h : chain.Lists texts) :
    (chain.nodesFrom 1).length = texts.length - 1 := by
  simp [nodesFrom, h.size_eq]

end Lists

/-- **What is recorded of a foreign error whose sources come to an end.** It is a series of new
errors, one for each error from the outermost on, 64 at most: each has the text of its error for a
description, no frames, suppresses nothing and is caused by the next, and the last one by nothing.
It is written as these texts, each expanded once, with one label between any two, and without any
mark. -/
theorem records_source_chain {ι : Type} [DecidableEq ι] {errors : Foreign ι} {error : ι}
    {sources : List ι} (h : errors.SourceChain error sources) :
    let recorded := ofForeign errors error
    let texts := (sources.map errors.text).take 64
    recorded.Lists texts
      ∧ texts.length = min sources.length 64
      ∧ (∀ escaped, recorded.trace.text escaped []
          = "\nCaused by: ".toList.intercalate
              (texts.map fun text => '\n' :: Text.flatten escaped text))
      ∧ ∃ visits : List (Visit (Fin recorded.graph.size)),
          Tour recorded.graph [] [Arrival.start recorded.start] visits
          ∧ (∀ escaped, recorded.trace.text escaped []
              = visits.flatMap (Visit.text recorded.graph escaped))
          ∧ visits.countP (fun visit => visit.isFirst) = min sources.length 64
          ∧ visits.countP (fun visit => visit.link == .cause) = min sources.length 64 - 1
          ∧ visits.countP (fun visit => visit.link == .suppressed) = 0
          ∧ visits.countP (fun visit => !visit.isFirst) = 0 := by
  intro recorded texts
  have hlength : texts.length = min sources.length 64 := by
    simp [texts, Nat.min_comm]
  have hlists : recorded.Lists texts := by
    have haccount : errors.account maxLinks [] error = texts :=
      Foreign.account_eq_take h maxLinks fun _ _ => List.not_mem_nil
    exact haccount ▸ lists_ofForeign errors error
  -- the walk is a tour, and the only one
  have htext : ∀ escaped, recorded.trace.text escaped []
      = recorded.descent.flatMap (Visit.text recorded.graph escaped) := by
    intro escaped
    obtain ⟨visits, hvisits, htext⟩ :=
      exists_tour_of_trace hlists.isLasting recorded.start escaped
    rw [← hvisits.unique hlists.tour]
    exact htext
  have hpos : 0 < texts.length := by
    rw [hlists.texts_eq_cons]
    exact Nat.zero_lt_succ _
  have hrest := hlists.length_nodesFrom_one
  refine ⟨hlists, hlength, fun escaped => (htext escaped).trans (hlists.text_descent escaped),
    recorded.descent, hlists.tour, htext, ?_, ?_, ?_, ?_⟩
  · simp [descent, List.countP_map, Function.comp_def, hrest]
    omega
  · simp [descent, Arrival.start, List.countP_map, Function.comp_def, hrest]
    omega
  · simp [descent, Arrival.start, List.countP_map, Function.comp_def]
  · simp [descent, List.countP_map, Function.comp_def]

/-- Of an account of a hundred texts the first 64 are recorded. -/
theorem records_source_chain_hundred :
    let texts := (List.range 100).map Numeral.decimal
    (Foreign.listed texts).SourceChain 0 (List.range' 0 texts.length)
      ∧ (ofForeign (Foreign.listed texts) 0).graph.size = 64
      ∧ ∀ escaped, (ofForeign (Foreign.listed texts) 0).trace.text escaped []
          = "\nCaused by: ".toList.intercalate ((List.range 64).map fun n =>
              '\n' :: Text.flatten escaped (Numeral.decimal n)) := by
  intro texts
  have hchain : (Foreign.listed texts).SourceChain 0 (List.range' 0 texts.length) :=
    Foreign.sourceChain_listed (by decide)
  obtain ⟨hlists, -, htext, -⟩ := records_source_chain hchain
  have htexts : ((List.range' 0 texts.length).map (Foreign.listed texts).text).take 64
      = (List.range 64).map Numeral.decimal := by
    rw [Foreign.map_text_listed texts, ← List.map_take]
    rfl
  rw [htexts] at hlists
  refine ⟨hchain, hlists.size_eq.trans (by simp), fun escaped => ?_⟩
  rw [htext escaped, htexts, List.map_map]
  rfl

end ErrorChain

end Logbook
