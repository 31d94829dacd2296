import Logbook.Text

/-!
# Logbook — failures

What can go wrong at the fallible edges: reading a settings file, handing a record to an appender,
installing the facade. Resolving settings and rendering records never fail.

* **`Failure`** — the causes, with one wording each (`Failure.message`).
* **`Failure.account`** — the descriptions of a failure and of what lies under it.
* **`Breakdown`** — an operation that breaks off without an answer.
-/

namespace Logbook

/-- Why a fallible operation did not succeed. -/
inductive Failure where
  /-- An input or output error, with what was being done. -/
  | operation (activity detail source : Text)
  /-- An input or output error on its own. -/
  | io (source : Text)
  /-- A component was set up wrongly. -/
  | configuration (component detail : Text)
  /-- An appender refused a record. -/
  | writer (detail : Text)
  deriving DecidableEq, Repr

namespace Failure

/-- The wording of a failure. -/
def message : Failure → Text
  | operation activity detail _ =>
    "IO error while ".toList ++ activity ++ ": ".toList ++ detail
  | io source => "IO error: ".toList ++ source
  | configuration component detail =>
    "Invalid configuration for ".toList ++ component ++ ": ".toList ++ detail
  | writer detail => "Writer error: ".toList ++ detail

/-- The input or output error under a failure. -/
def source? : Failure → Option Text
  | operation _ _ source => some source
  | io source => some source
  | configuration _ _ => none
  | writer _ => none

/-- The failure and what lies under it, outermost first. -/
def account (failure : Failure) : List Text :=
  failure.message :: failure.source?.toList

end Failure

/-- Why an operation broke off without an answer. -/
inductive Breakdown where
  /-- The last two bytes of these digits begin inside a character. -/
  | cutInsideCharacter (digits : Text)
  /-- The error stream did not take the line of a notice. -/
  | noticeRefused (line reason : Text)
  deriving DecidableEq, Repr

end Logbook
