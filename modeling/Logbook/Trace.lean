import Logbook.ErrorGraph
import Logbook.Text.Control

/-!
# Logbook — traces of errors

An error is written out in two steps. A depth-first walk over its graph makes a tree, the trace, in
which every node is expanded at its first arrival and only marked at later ones. A printer then lays
the trace out in lines.

* **`Trace`** — the tree: an entry with its frames, the traces of its suppressed errors and that of
  its cause, or the mark of an error that was met before.
* **`ErrorGraph.walk`** — the walk, which takes the suppressed errors in order and then the cause.
* **`ErrorChain.trace`** — the walk from an error, with nothing met before.
* **`Trace.text`** — the layout. A suppressed error is indented under its own label; a cause follows
  at the indentation of what it caused.

The walk is bounded by a budget that starts at the number of nodes. On the way down to a node all
nodes passed are different, so where the budget is used up every node has been met: the mark that
is left there is the right answer.
-/

namespace Logbook

/-- The tree of entries that an error is written as. -/
inductive Trace where
  /-- An error that was met before. -/
  | seen (description : Text)
  /-- An error without a cause. -/
  | last (description : Text) (frames : List Text) (suppressed : List Trace)
  /-- An error with the trace of its cause. -/
  | caused (description : Text) (frames : List Text) (suppressed : List Trace) (cause : Trace)

namespace Trace

/-- The trace of a transient chain, whose links are never met again. -/
def transient (first : Text) : List Text → Trace
  | [] => .last first [] []
  | second :: rest => .caused first [] [] (transient second rest)

end Trace

namespace ErrorGraph

variable {N : Type}

/-- Takes several nodes one after the other, each with the nodes met so far. -/
def visitEach (visit : List N → N → Trace × List N) : List N → List N → List Trace × List N
  | met, [] => ([], met)
  | met, i :: rest =>
    let (trace, met) := visit met i
    let (traces, met) := visitEach visit met rest
    (trace :: traces, met)

/-- The trace of a node, given the nodes met before, and the nodes met afterwards. -/
def walk (graph : ErrorGraph) :
    Nat → List (Fin graph.size) → Fin graph.size → Trace × List (Fin graph.size)
  | 0, met, i => (.seen (graph.node i).description, met)
  | budget + 1, met, i =>
    let node := graph.node i
    if i ∈ met then (.seen node.description, met)
    else
      let (suppressed, met) := visitEach (graph.walk budget) (i :: met) node.suppressed
      match node.cause with
      | .absent => (.last node.description node.frames suppressed, met)
      | .node j =>
        let (cause, met) := graph.walk budget met j
        (.caused node.description node.frames suppressed cause, met)
      | .transient first rest =>
        (.caused node.description node.frames suppressed (.transient first rest), met)

end ErrorGraph

/-- The trace of an error. -/
def ErrorChain.trace (chain : ErrorChain) : Trace :=
  (chain.graph.walk chain.graph.size [] chain.start).1

namespace Trace

/-- A new line at an indentation. -/
def newLine (indent : Text) : Text :=
  '\n' :: indent

/-- The lines of an entry: its description, and its frames below. -/
def entryText (escaped : Bool) (indent description : Text) (frames : List Text) : Text :=
  newLine indent ++ Text.flatten escaped description
    ++ frames.flatMap fun frame =>
        newLine indent ++ "\tat ".toList ++ Text.flatten escaped frame

/-- The indentation of an error that was suppressed at this indentation. -/
def nested (indent : Text) : Text :=
  "\t|".toList ++ indent

mutual

/-- The lines of a trace at an indentation, each with a line feed in front. -/
def text (escaped : Bool) (indent : Text) : Trace → Text
  | .seen description =>
    newLine indent ++ "[CIRCULAR REFERENCE: ".toList ++ Text.flatten escaped description
      ++ "]".toList
  | .last description frames suppressed =>
    entryText escaped indent description frames ++ suppressedText escaped indent suppressed
  | .caused description frames suppressed cause =>
    entryText escaped indent description frames ++ suppressedText escaped indent suppressed
      ++ newLine indent ++ "Caused by: ".toList ++ text escaped indent cause

/-- The lines of suppressed errors, each under a label at the indentation of what suppressed it. -/
def suppressedText (escaped : Bool) (indent : Text) : List Trace → Text
  | [] => []
  | trace :: rest =>
    newLine indent ++ "Suppressed: ".toList ++ text escaped (nested indent) trace
      ++ suppressedText escaped indent rest

end

end Trace

end Logbook
