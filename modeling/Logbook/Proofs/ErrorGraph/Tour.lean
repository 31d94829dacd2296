import Logbook.Trace
import Mathlib.Algebra.BigOperators.Group.Finset.Basic
import Mathlib.Algebra.GroupWithZero.Nat
import Mathlib.Data.Fintype.Card
import Mathlib.Logic.Relation

/-!
# Logbook — tours of error graphs

What a depth-first walk over an error graph is, said without recursion into the graph and without a
bound on the number of steps. The walk keeps an **agenda**: the arrivals that are still to come, the
next one in front. An arrival at a node that was met before leaves a mark and nothing else. The first
arrival at a node expands it: its links are put in front of the agenda, the suppressed errors in
order and the cause behind them.

* **`Tour`** — the rules; `Tour graph met agenda visits` says that the agenda is worked off by these
  visits, and `Tour.unique` that the rules leave no choice.
* **`Visit.text`** — what one visit writes: the label of the link that led there, and then the entry
  of the node or its mark.
* **`Tour.nodup_firsts`**, **`Tour.mem_firsts_iff`** — from an empty set of met nodes, every reachable
  node is expanded, and only once.
* **`Tour.countP_link`** — every link of an expanded node leads to one visit.

Nothing here mentions `ErrorGraph.walk`: that the walk is a tour is shown in the next module.
-/

namespace Logbook

/-- The node that a cause refers to, if it does. -/
def Cause.target? {ρ : Type} : Cause ρ → Option ρ
  | .absent => none
  | .node target => some target
  | .transient _ _ => none

namespace ErrorGraph

/-! ## Arrivals and visits -/

/-- What led to an error. -/
inductive Link where
  /-- Nothing: the walk starts there. -/
  | start
  | suppressed
  | cause
  deriving DecidableEq, Repr

/-- How much deeper than where it starts a link ends. -/
def Link.deeper : Link → Nat
  | start => 0
  | suppressed => 1
  | cause => 0

/-- The indentation at a depth, which is the number of suppressions on the way. -/
def indentAt : Nat → Text
  | 0 => []
  | depth + 1 => Trace.nested (indentAt depth)

/-- An arrival at a node. -/
structure Arrival (N : Type) where
  link : Link
  /-- The depth at which the link starts. -/
  depth : Nat
  node : N

namespace Arrival

variable {N : Type}

/-- The first arrival of a walk. -/
def start (node : N) : Arrival N := ⟨.start, 0, node⟩

/-- The depth of the node. -/
def nodeDepth (arrival : Arrival N) : Nat :=
  arrival.depth + arrival.link.deeper

/-- The line that announces the node, at the indentation of what it is linked from. -/
def labelText (arrival : Arrival N) : Text :=
  match arrival.link with
  | .start => []
  | .suppressed => Trace.newLine (indentAt arrival.depth) ++ "Suppressed: ".toList
  | .cause => Trace.newLine (indentAt arrival.depth) ++ "Caused by: ".toList

end Arrival

/-- An arrival that has taken place. -/
structure Visit (N : Type) extends Arrival N where
  /-- Whether the node had not been met before. -/
  isFirst : Bool

variable {graph : ErrorGraph}

/-- What a visit writes: the label, and then the entry of the node if this is its first visit, or
else its mark. -/
def Visit.text (graph : ErrorGraph) (escaped : Bool) (visit : Visit (Fin graph.size)) : Text :=
  let node := graph.node visit.node
  let indent := indentAt visit.nodeDepth
  visit.labelText
    ++ if visit.isFirst then Trace.entryText escaped indent node.description node.frames
      else Trace.newLine indent ++ "[CIRCULAR REFERENCE: ".toList
        ++ Text.flatten escaped node.description ++ "]".toList

/-- The arrivals that the links of a node lead to: first the errors it suppresses, in order, and
then its cause. -/
def arrivals (graph : ErrorGraph) (depth : Nat) (i : Fin graph.size) :
    List (Arrival (Fin graph.size)) :=
  (graph.node i).suppressed.map (⟨.suppressed, depth, ·⟩)
    ++ (graph.node i).cause.target?.toList.map (⟨.cause, depth, ·⟩)

/-- The rules of a depth-first walk, given the nodes met so far and the agenda. -/
inductive Tour (graph : ErrorGraph) :
    List (Fin graph.size) → List (Arrival (Fin graph.size)) → List (Visit (Fin graph.size)) → Prop
  /-- An empty agenda is worked off. -/
  | done (met : List (Fin graph.size)) : Tour graph met [] []
  /-- A node that was met before is marked, and none of its links is followed. -/
  | again {met : List (Fin graph.size)} {arrival : Arrival (Fin graph.size)}
      {agenda : List (Arrival (Fin graph.size))} {visits : List (Visit (Fin graph.size))}
      (hmet : arrival.node ∈ met) (rest : Tour graph met agenda visits) :
      Tour graph met (arrival :: agenda) (⟨arrival, false⟩ :: visits)
  /-- A node that was not met before is expanded, and its links come next. -/
  | first {met : List (Fin graph.size)} {arrival : Arrival (Fin graph.size)}
      {agenda : List (Arrival (Fin graph.size))} {visits : List (Visit (Fin graph.size))}
      (hnew : arrival.node ∉ met)
      (rest : Tour graph (arrival.node :: met)
        (graph.arrivals arrival.nodeDepth arrival.node ++ agenda) visits) :
      Tour graph met (arrival :: agenda) (⟨arrival, true⟩ :: visits)

/-- The nodes that are expanded, in the order of their first visits. -/
def firsts {N : Type} (visits : List (Visit N)) : List N :=
  (visits.filter (·.isFirst)).map (·.node)

@[simp] theorem firsts_nil {N : Type} : firsts ([] : List (Visit N)) = [] := rfl

@[simp] theorem firsts_cons_true {N : Type} (arrival : Arrival N) (visits : List (Visit N)) :
    firsts (⟨arrival, true⟩ :: visits) = arrival.node :: firsts visits := rfl

@[simp] theorem firsts_cons_false {N : Type} (arrival : Arrival N) (visits : List (Visit N)) :
    firsts (⟨arrival, false⟩ :: visits) = firsts visits := rfl

/-- One link leads from a node to another. -/
def Linked (graph : ErrorGraph) (i j : Fin graph.size) : Prop :=
  j ∈ (graph.node i).suppressed ∨ (graph.node i).cause.target? = some j

/-- Links lead from a node to another, or it is the node itself. -/
def Reaches (graph : ErrorGraph) : Fin graph.size → Fin graph.size → Prop :=
  Relation.ReflTransGen graph.Linked

open Classical in
/-- The nodes that can be reached from a node. -/
noncomputable def reachable (graph : ErrorGraph) (start : Fin graph.size) :
    Finset (Fin graph.size) :=
  {i | graph.Reaches start i}

theorem mem_reachable {start i : Fin graph.size} :
    i ∈ graph.reachable start ↔ graph.Reaches start i := by
  simp [reachable]

theorem exists_mem_arrivals_iff {depth : Nat} {i j : Fin graph.size} :
    (∃ arrival ∈ graph.arrivals depth i, arrival.node = j) ↔ graph.Linked i j := by
  simp only [arrivals, Linked, List.mem_append, List.mem_map, Option.mem_toList]
  constructor
  · rintro ⟨arrival, ⟨k, hk, rfl⟩ | ⟨k, hk, rfl⟩, rfl⟩
    · exact Or.inl hk
    · exact Or.inr hk
  · rintro (h | h)
    · exact ⟨_, Or.inl ⟨j, h, rfl⟩, rfl⟩
    · exact ⟨_, Or.inr ⟨j, h, rfl⟩, rfl⟩

/-! ## The rules leave no choice -/

/-- An agenda is worked off by one list of visits at most. Induction on the first tour; whether the
next node was met decides which rule the second one can begin with. -/
theorem Tour.unique {met : List (Fin graph.size)} {agenda : List (Arrival (Fin graph.size))}
    {visits others : List (Visit (Fin graph.size))}
    (h : Tour graph met agenda visits) (h' : Tour graph met agenda others) : visits = others := by
  induction h generalizing others with
  | done met =>
      cases h'
      rfl
  | again hmet _ ih =>
      cases h' with
      | again _ rest' => rw [ih rest']
      | first hnew _ => exact absurd hmet hnew
  | first hnew _ ih =>
      cases h' with
      | again hmet _ => exact absurd hmet hnew
      | first _ rest' => rw [ih rest']

/-! ## Which nodes are expanded -/

/-- No node is expanded twice, and none that was met before. -/
theorem Tour.nodup_firsts {met : List (Fin graph.size)}
    {agenda : List (Arrival (Fin graph.size))} {visits : List (Visit (Fin graph.size))}
    (h : Tour graph met agenda visits) :
    (firsts visits).Nodup ∧ ∀ i ∈ firsts visits, i ∉ met := by
  induction h with
  | done met => simp
  | again _ _ ih => simpa using ih
  | @first met arrival _ visits hnew _ ih =>
      obtain ⟨hnodup, hapart⟩ := ih
      have hself : arrival.node ∉ firsts visits := fun hmem =>
        hapart _ hmem List.mem_cons_self
      refine ⟨by simpa using ⟨hself, hnodup⟩, ?_⟩
      intro i hi
      rcases List.mem_cons.mp hi with rfl | hi
      · exact hnew
      · exact fun hmet => hapart i hi (List.mem_cons_of_mem _ hmet)

/-- What the agenda leads to is met afterwards, and so is what an expanded node is linked to. -/
theorem Tour.closed {met : List (Fin graph.size)} {agenda : List (Arrival (Fin graph.size))}
    {visits : List (Visit (Fin graph.size))} (h : Tour graph met agenda visits) :
    (∀ arrival ∈ agenda, arrival.node ∈ met ∨ arrival.node ∈ firsts visits)
      ∧ ∀ i ∈ firsts visits, ∀ j, graph.Linked i j → j ∈ met ∨ j ∈ firsts visits := by
  induction h with
  | done met => simp
  | @again met arrival agenda visits hmet _ ih =>
      obtain ⟨hagenda, hlinked⟩ := ih
      refine ⟨?_, by simpa using hlinked⟩
      intro a ha
      rcases List.mem_cons.mp ha with rfl | ha
      · exact Or.inl hmet
      · simpa using hagenda a ha
  | @first met arrival agenda visits _ _ ih =>
      obtain ⟨hagenda, hlinked⟩ := ih
      -- what the induction hypothesis counts as met now counts as expanded if it is the new node
      have hshift : ∀ j, j ∈ arrival.node :: met ∨ j ∈ firsts visits →
          j ∈ met ∨ j ∈ firsts (⟨arrival, true⟩ :: visits) := by
        intro j hj
        simp only [firsts_cons_true, List.mem_cons] at hj ⊢
        tauto
      constructor
      · intro a ha
        rcases List.mem_cons.mp ha with rfl | ha
        · exact Or.inr List.mem_cons_self
        · exact hshift _ (hagenda a (List.mem_append_right _ ha))
      · intro i hi j hij
        rcases List.mem_cons.mp hi with rfl | hi
        · obtain ⟨a, ha, rfl⟩ := exists_mem_arrivals_iff.mpr hij
          exact hshift _ (hagenda a (List.mem_append_left _ ha))
        · exact hshift _ (hlinked i hi j hij)

/-- Only what the agenda leads to is expanded. -/
theorem Tour.reaches {met : List (Fin graph.size)} {agenda : List (Arrival (Fin graph.size))}
    {visits : List (Visit (Fin graph.size))} (h : Tour graph met agenda visits) :
    ∀ i ∈ firsts visits, ∃ arrival ∈ agenda, graph.Reaches arrival.node i := by
  induction h with
  | done met => simp
  | again _ _ ih =>
      intro i hi
      obtain ⟨a, ha, hreach⟩ := ih i (by simpa using hi)
      exact ⟨a, List.mem_cons_of_mem _ ha, hreach⟩
  | first _ _ ih =>
      intro i hi
      rcases List.mem_cons.mp hi with rfl | hi
      · exact ⟨_, List.mem_cons_self, Relation.ReflTransGen.refl⟩
      · obtain ⟨a, ha, hreach⟩ := ih i hi
        rcases List.mem_append.mp ha with ha | ha
        · have hlink := exists_mem_arrivals_iff.mp ⟨a, ha, rfl⟩
          exact ⟨_, List.mem_cons_self, hreach.head hlink⟩
        · exact ⟨a, List.mem_cons_of_mem _ ha, hreach⟩

/-- **A tour from one node, with nothing met before, expands exactly the nodes it can reach.** The
expanded nodes contain the start and are closed under links. -/
theorem Tour.mem_firsts_iff {arrival : Arrival (Fin graph.size)}
    {visits : List (Visit (Fin graph.size))} (h : Tour graph [] [arrival] visits)
    (i : Fin graph.size) : i ∈ firsts visits ↔ graph.Reaches arrival.node i := by
  constructor
  · intro hi
    obtain ⟨a, ha, hreach⟩ := h.reaches i hi
    rwa [List.mem_singleton.mp ha] at hreach
  · intro hreach
    obtain ⟨hagenda, hlinked⟩ := h.closed
    -- along the links from the start, which is expanded
    induction hreach with
    | refl => simpa using hagenda arrival List.mem_cons_self
    | tail _ hlink ih => simpa using hlinked _ ih _ hlink

theorem Tour.toFinset_firsts {start : Fin graph.size} {visits : List (Visit (Fin graph.size))}
    (h : Tour graph [] [Arrival.start start] visits) :
    (firsts visits).toFinset = graph.reachable start := by
  ext i
  rw [List.mem_toFinset, mem_reachable, h.mem_firsts_iff i]
  rfl

/-! ## How many visits there are

Every arrival that ever stands on the agenda becomes one visit, and the arrivals that are added are
the links of the expanded nodes. -/

/-- The visits that satisfy `p` by their arrivals: those that were on the agenda, and those that the
links of expanded nodes led to. The depth at which a node is expanded must not matter to `p`. -/
theorem Tour.countP_eq {met : List (Fin graph.size)} {agenda : List (Arrival (Fin graph.size))}
    {visits : List (Visit (Fin graph.size))} (h : Tour graph met agenda visits) (p : Link → Bool) :
    visits.countP (fun visit => p visit.link)
      = agenda.countP (fun arrival => p arrival.link)
        + ((firsts visits).map fun i =>
            (graph.arrivals 0 i).countP fun arrival => p arrival.link).sum := by
  -- the depth at which a node is expanded is in its arrivals, but not in their links
  have hdepth : ∀ depth i, (graph.arrivals depth i).countP (fun arrival => p arrival.link)
      = (graph.arrivals 0 i).countP fun arrival => p arrival.link := by
    intro depth i
    simp [arrivals, List.countP_map, Function.comp_def]
  induction h with
  | done met => simp
  | again _ _ ih =>
      simp only [List.countP_cons, firsts_cons_false]
      rw [ih]
      omega
  | first _ _ ih =>
      simp only [List.countP_cons, firsts_cons_true, List.map_cons, List.sum_cons]
      rw [ih, List.countP_append, hdepth]
      omega

/-- The visits of a tour from one node, with nothing met before: the start, and one for every link
of every reachable node. -/
theorem Tour.countP_link {start : Fin graph.size} {visits : List (Visit (Fin graph.size))}
    (h : Tour graph [] [Arrival.start start] visits) (p : Link → Bool) :
    visits.countP (fun visit => p visit.link)
      = (if p .start then 1 else 0)
        + ∑ i ∈ graph.reachable start,
            (graph.arrivals 0 i).countP fun arrival => p arrival.link := by
  rw [h.countP_eq p, ← h.toFinset_firsts, List.sum_toFinset _ h.nodup_firsts.1]
  simp [Arrival.start, List.countP_cons]

theorem length_eq_firsts_add_marks {N : Type} (visits : List (Visit N)) :
    visits.length = (firsts visits).length + visits.countP fun visit => !visit.isFirst := by
  rw [firsts, List.length_map, ← List.countP_eq_length_filter]
  simpa using List.length_eq_countP_add_countP (l := visits) (·.isFirst)

theorem countP_first_at {N : Type} [DecidableEq N] (visits : List (Visit N)) (i : N) :
    visits.countP (fun visit => visit.isFirst && visit.node == i) = (firsts visits).count i := by
  rw [firsts, List.count, List.countP_map, List.countP_filter]
  simp [Bool.and_comm]

end ErrorGraph

end Logbook
