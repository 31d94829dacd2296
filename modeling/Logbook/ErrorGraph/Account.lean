import Logbook.ErrorGraph

/-!
# Logbook — accounts of foreign errors

An error that another library made has a text, and it may name the error that lies under it as its
source. What is recorded of such an error is its account: its own text, then that of its source, and
so on down.

* **`Foreign`** — the errors of another library. Each is known by its identity, which is how a
  source that was met before is noticed.
* **`Foreign.account`** — the texts from an error downwards.
* **`ErrorChain.ofForeign`** — the error that is recorded of a foreign one.
-/

namespace Logbook

/-- The errors of another library, which are told apart by `ι`. -/
structure Foreign (ι : Type) where
  text : ι → Text
  /-- The error that lies under another one. -/
  source : ι → Option ι

namespace Foreign

/-- The text of an error and of those that lie under it. The account ends at an error without a
source, in front of one that was met before, and where no room is left. -/
def account {ι : Type} [DecidableEq ι] (errors : Foreign ι) : Nat → List ι → ι → List Text
  | 0, _, _ => []
  | room + 1, met, error =>
    if error ∈ met then []
    else
      errors.text error ::
        match errors.source error with
        | none => []
        | some under => errors.account room (error :: met) under

/-- Foreign errors with these texts, each the source of the one before. They are told apart by their
places. -/
def listed (texts : List Text) : Foreign Nat where
  text := fun place => texts[place]?.getD []
  source := fun place => if place + 1 < texts.length then some (place + 1) else none

end Foreign

/-- The error that is recorded of a foreign one: a new node for each text of its account, of
`maxLinks` at most, each caused by the next. -/
def ErrorChain.ofForeign {ι : Type} [DecidableEq ι] (errors : Foreign ι) (error : ι) : ErrorChain :=
  let graph := ErrorGraph.ofNodes (linkedNodes 0 (errors.account maxLinks [] error))
  if h : 0 < graph.size then ⟨graph, 0, h⟩ else single (errors.text error)

end Logbook
