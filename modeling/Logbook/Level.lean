import Logbook.Text

/-!
# Logbook — levels

The five severities of an event, from the least to the most severe. A logger has a level too: the
least severe one that it lets through.

* **`Level.admits`** — whether a logger's level lets an event through.
* **`Level.read`** — the canonical upper-case names, and nothing else.
* **`Level.decode`** — the same names as a field of structured data.
-/

namespace Logbook

/-- The severity of an event, and the threshold of a logger. -/
inductive Level where
  | trace
  | debug
  | info
  | warn
  | error
  deriving DecidableEq, Repr

namespace Level

/-- All levels in ascending severity. -/
def all : List Level :=
  [trace, debug, info, warn, error]

/-- The rank of a level, from zero for the least severe. -/
def severity : Level → Nat
  | trace => 0
  | debug => 1
  | info => 2
  | warn => 3
  | error => 4

/-- The canonical name. -/
def name : Level → Text
  | trace => "TRACE".toList
  | debug => "DEBUG".toList
  | info => "INFO".toList
  | warn => "WARN".toList
  | error => "ERROR".toList

/-- The name in the column of a record, which is five characters wide. -/
def column (level : Level) : Text :=
  level.name ++ List.replicate (5 - level.name.length) ' '

/-- The level of a logger for which nothing is configured. -/
def standard : Level := info

/-- Whether a threshold lets an event through: the event is at least as severe. -/
def admits (threshold event : Level) : Bool :=
  decide (threshold.severity ≤ event.severity)

/-- The level with this canonical name. -/
def ofName? (text : Text) : Option Level :=
  all.find? fun level => level.name == text

/-- A text that names no level. -/
structure Unknown where
  given : Text
  deriving DecidableEq, Repr

/-- The wording for a text that names no level. -/
def Unknown.message (unknown : Unknown) : Text :=
  "Unknown level [".toList ++ unknown.given
    ++ "], expecting only [TRACE, DEBUG, INFO, WARN, ERROR] as values".toList

/-- Reads a canonical name; the case of the letters counts. -/
def read (text : Text) : Except Unknown Level :=
  match ofName? text with
  | some level => .ok level
  | none => .error ⟨text⟩

/-- Why a field of structured data is no level. -/
inductive DecodeError where
  /-- The field is not a text. -/
  | notText
  /-- The field is a text that names no level. -/
  | unknownVariant (given : Text)
  deriving DecidableEq, Repr

/-- The wording for a field that is no level. -/
def DecodeError.message : DecodeError → Text
  | notText => "invalid type, expected the name of a level".toList
  | unknownVariant given =>
    "unknown variant `".toList ++ given ++ "`, expected one of ".toList
      ++ List.intercalate ", ".toList (all.map fun level => "`".toList ++ level.name ++ "`".toList)

/-- Reads a field of structured data, given as its text if it is one. -/
def decode : Option Text → Except DecodeError Level
  | none => .error .notText
  | some text =>
    match ofName? text with
    | some level => .ok level
    | none => .error (.unknownVariant text)

/-- The level in inspection text. -/
def inspect : Level → Text
  | trace => "Trace".toList
  | debug => "Debug".toList
  | info => "Info".toList
  | warn => "Warn".toList
  | error => "Error".toList

end Level

end Logbook
