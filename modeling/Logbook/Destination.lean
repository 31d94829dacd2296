import Logbook.Notice

/-!
# Logbook — destinations

Text is written to a destination in the end: the file or pipe behind a stream of records, and the
error stream of the process, to which notices go. A destination may refuse. There is nowhere to put
a notice about a notice that was refused, so the call that has to leave it breaks off
(`Breakdown.noticeRefused`).

* **`Destination`** — what a type must offer to be written to.
* **`Destination.post`** — notices on their way to the error stream.
-/

namespace Logbook

/-- A type whose values can be written to. A write takes all of the text or fails as a whole. -/
class Destination (δ : Type) where
  write : δ → Text → Except Text Unit × δ
  flush : δ → Except Text Unit × δ

namespace Destination

variable {δ : Type} [Destination δ]

/-- Writes notices, one line each, up to the first that is refused. -/
def post (stream : δ) : List Notice → Option Breakdown × δ
  | [] => (none, stream)
  | notice :: rest =>
    match write stream notice.line with
    | (.ok (), stream) => post stream rest
    | (.error reason, stream) => (some (.noticeRefused notice.line reason), stream)

end Destination

end Logbook
