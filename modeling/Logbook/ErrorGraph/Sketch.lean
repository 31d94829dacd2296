import Logbook.ErrorGraph.Account

/-!
# Logbook — sketches of error graphs

A graph is built from a list of sketches, one for each error that is listed. A sketch says how its
error is made and what is attached to it afterwards, with other errors given by their place in the
list. Errors that only come along, under the head of an account, get places behind the listed ones.

* **`Sketch`** — how one error is made.
* **`ErrorGraph.ofSketches`** — the graph of a list of sketches; the error of the sketch at a place
  is the node at that place.
* **`ErrorGraph.unlistedCauses`** — the causes of a node up to the next listed one.
-/

namespace Logbook

/-- How an error is made, before anything is attached. -/
inductive Sketch.Making where
  /-- With a description, frames and possibly a cause. -/
  | direct (description : Text) (frames : List Text) (cause : Option Nat)
  /-- From an error and what lies under it, by their descriptions. -/
  | ofAccount (account : List Text)
  /-- A transient error that counts down to zero through its causes. Nothing is attached to it. -/
  | countdown (n : Nat)

/-- One listed error. -/
structure Sketch where
  making : Sketch.Making
  /-- The cause attached afterwards, in place of any earlier one. -/
  cause : Option Nat := none
  /-- The errors it suppresses, attached afterwards. -/
  suppressed : List Nat := []

namespace Sketch

/-- The description of a countdown at `n`. -/
def countdownText (n : Nat) : Text :=
  "n=".toList ++ Numeral.decimal n

/-- The transient cause of a countdown at `n`. -/
def countdownCause : Nat → Cause Nat
  | 0 => .absent
  | n + 1 => .transient (countdownText n) ((List.range n).reverse.map countdownText)

/-- The cause at a place, if one is given, or another. -/
def orElse (given : Option Nat) (other : Cause Nat) : Cause Nat :=
  match given with
  | some place => .node place
  | none => other

/-- The node of a listed error, and the nodes that come along with it, whose places start at
`next`. -/
def nodes (sketch : Sketch) (next : Nat) : ErrorNode Nat × List (ErrorNode Nat) :=
  match sketch.making with
  | .direct description frames cause =>
    (⟨description, frames, sketch.suppressed, orElse sketch.cause (orElse cause .absent)⟩, [])
  | .ofAccount account =>
    let below := ((Foreign.listed account).account ErrorChain.maxLinks [] 0).drop 1
    let cause := if below.isEmpty then .absent else .node next
    (⟨account.head?.getD [], [], sketch.suppressed, orElse sketch.cause cause⟩,
      ErrorChain.linkedNodes next below)
  | .countdown n => (⟨countdownText n, [], [], countdownCause n⟩, [])

/-- The nodes of the listed errors and the nodes that come along, whose places start at `next`. -/
def place (next : Nat) : List Sketch → List (ErrorNode Nat) × List (ErrorNode Nat)
  | [] => ([], [])
  | sketch :: rest =>
    let (listed, along) := sketch.nodes next
    let (moreListed, moreAlong) := place (next + along.length) rest
    (listed :: moreListed, along ++ moreAlong)

end Sketch

namespace ErrorGraph

/-- The graph of a list of sketches. -/
def ofSketches (sketches : List Sketch) : ErrorGraph :=
  let (listed, along) := Sketch.place sketches.length sketches
  ofNodes (listed ++ along)

/-- The error at a place, if there is one. -/
def chainAt? (graph : ErrorGraph) (place : Nat) : Option ErrorChain :=
  if h : place < graph.size then some ⟨graph, ⟨place, h⟩⟩ else none

/-- The descriptions of the causes of a node that come before the next node below `listed`, found
within `steps` links. -/
def causesBelow (graph : ErrorGraph) (listed : Nat) : Nat → Fin graph.size → List Text
  | 0, _ => []
  | steps + 1, i =>
    match (graph.node i).cause with
    | .absent => []
    | .transient first rest => first :: rest
    | .node j =>
      if j.val < listed then []
      else (graph.node j).description :: graph.causesBelow listed steps j

/-- The descriptions of the causes of a node up to the next one of the first `listed` nodes. -/
def unlistedCauses (graph : ErrorGraph) (listed : Nat) (i : Fin graph.size) : List Text :=
  graph.causesBelow listed graph.size i

end ErrorGraph

/-- The chain of an error and what lies under it, given by their descriptions. -/
def ErrorChain.ofAccount (first : Text) (rest : List Text) : ErrorChain :=
  ofForeign (Foreign.listed (first :: rest)) 0

/-- The descriptions of an error and of its causes, in order, found within `steps` links. -/
def ErrorChain.causes (chain : ErrorChain) : List Text :=
  chain.description :: chain.graph.unlistedCauses 0 chain.start

end Logbook
