import Logbook.Failure
import Logbook.Text.Inspect
import Logbook.Text.Numeral

/-!
# Logbook — error graphs

An error has a description, the frames it came from, errors that were suppressed on its account and
a cause. Links are shared: two errors may have one cause, and an error may lead back to itself.
So the errors of a program form a finite graph, and an error is a node of one.

* **`ErrorGraph`** — the nodes, which refer to each other by their index.
* **`Cause`** — a node of the graph, or a transient cause: one that is made afresh at every look
  and so is never met again.
* **`ErrorChain`** — an error: a graph with the node to start from.
* **`ErrorChain.linkedNodes`** — a node for each of some descriptions, each caused by the next.
-/

namespace Logbook

/-- What an error was caused by, where nodes are referred to by `ρ`. -/
inductive Cause (ρ : Type) where
  /-- Nothing. -/
  | absent
  /-- Another node, which keeps its identity. -/
  | node (target : ρ)
  /-- A chain of descriptions that is made afresh at every look. -/
  | transient (first : Text) (rest : List Text)

/-- The cause with another way to refer to nodes; a cause that has no such reference is absent. -/
def Cause.relink {ρ σ : Type} (link : ρ → Option σ) : Cause ρ → Cause σ
  | .absent => .absent
  | .node target =>
    match link target with
    | some target => .node target
    | none => .absent
  | .transient first rest => .transient first rest

/-- One error, which refers to others by `ρ`. -/
structure ErrorNode (ρ : Type) where
  description : Text
  /-- The frames it came from, innermost first. -/
  frames : List Text
  suppressed : List ρ
  cause : Cause ρ

/-- The node with another way to refer to nodes. -/
def ErrorNode.relink {ρ σ : Type} (link : ρ → Option σ) (node : ErrorNode ρ) : ErrorNode σ :=
  { description := node.description
    frames := node.frames
    suppressed := node.suppressed.filterMap link
    cause := node.cause.relink link }

/-- Whether the node was caused by anything. -/
def ErrorNode.hasCause {ρ : Type} (node : ErrorNode ρ) : Bool :=
  match node.cause with
  | .absent => false
  | .node _ => true
  | .transient _ _ => true

/-- The node in inspection text, which follows no link. -/
def ErrorNode.inspect {ρ : Type} (node : ErrorNode ρ) : Text :=
  Inspect.fields "ErrorRecord"
    [("description", Inspect.quoted node.description),
     ("frames", Numeral.decimal node.frames.length),
     ("suppressed", Numeral.decimal node.suppressed.length),
     ("has_cause", Inspect.truth node.hasCause)]

/-- A finite graph of errors. -/
structure ErrorGraph where
  size : Nat
  node : Fin size → ErrorNode (Fin size)

namespace ErrorGraph

/-- The graph of these nodes, which refer to each other by position. A reference past the end is
no link. -/
def ofNodes (nodes : List (ErrorNode Nat)) : ErrorGraph :=
  let table := nodes.toArray
  { size := table.size
    node := fun i =>
      table[i].relink fun k => if h : k < table.size then some ⟨k, h⟩ else none }

end ErrorGraph

/-- An error: a graph of errors with the node to start from. -/
structure ErrorChain where
  graph : ErrorGraph
  start : Fin graph.size

namespace ErrorChain

/-- The node of the error itself. -/
def node (chain : ErrorChain) : ErrorNode (Fin chain.graph.size) :=
  chain.graph.node chain.start

/-- The description of the error. -/
def description (chain : ErrorChain) : Text :=
  chain.node.description

/-- An error that is only a description. -/
def single (description : Text) : ErrorChain :=
  { graph := ⟨1, fun _ => ⟨description, [], [], .absent⟩⟩
    start := 0 }

/-- The number of links that are taken from an account. -/
def maxLinks : Nat := 64

/-- A node for each description, each caused by the next, at consecutive positions from `position`
on. -/
def linkedNodes (position : Nat) : List Text → List (ErrorNode Nat)
  | [] => []
  | [last] => [⟨last, [], [], .absent⟩]
  | first :: second :: rest =>
    ⟨first, [], [], .node (position + 1)⟩ :: linkedNodes (position + 1) (second :: rest)

end ErrorChain

/-- The wording of an error of a kind, with or without a message. -/
def ErrorNode.typedDescription (kind : Text) : Option Text → Text
  | some message => kind ++ ": ".toList ++ message
  | none => kind

end Logbook
