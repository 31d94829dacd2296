import Logbook.ErrorGraph
import Logbook.Number.Shortest

/-!
# Logbook — arguments

What a message template is filled with. An argument is rendered without looking at types: it is a
text already, a list, a mapping, nothing, or an error.

* **`Argument.text`** — how an argument stands in a message; an error as its description.
* **`Argument.splitError`** — takes an error off the end of a list of arguments.
-/

namespace Logbook

/-- An argument of a message. -/
inductive Argument where
  | null
  /-- A text that is ready to stand in the message. -/
  | value (text : Text)
  | list (items : List Argument)
  /-- Pairs of a key and a value, in order; keys may repeat. -/
  | map (entries : List (Argument × Argument))
  | error (chain : ErrorChain)

namespace Argument

/-- The argument for a whole number. -/
def ofInt (n : Int) : Argument :=
  .value (Numeral.integer n)

/-- The argument for a floating-point number, given by its bits. -/
def ofBits (format : Number.Binary.Format) (bits : Nat) : Argument :=
  .value (Number.Binary.decode format bits).text

/-- The argument for a truth value. -/
def ofBool (b : Bool) : Argument :=
  .value (Inspect.truth b)

/-- The error that an argument is, if it is one. -/
def error? : Argument → Option ErrorChain
  | .error chain => some chain
  | .null => none
  | .value _ => none
  | .list _ => none
  | .map _ => none

mutual

/-- How an argument stands in a message. -/
def text : Argument → Text
  | .null => "null".toList
  | .value text => text
  | .list items => "[".toList ++ Inspect.commas (texts items) ++ "]".toList
  | .map entries => "\x7b".toList ++ Inspect.commas (entryTexts entries) ++ "\x7d".toList
  | .error chain => chain.description

/-- How several arguments stand in a message, one by one. -/
def texts : List Argument → List Text
  | [] => []
  | item :: rest => text item :: texts rest

/-- How pairs stand in a message: the key, an equals sign, the value. -/
def entryTexts : List (Argument × Argument) → List Text
  | [] => []
  | (key, content) :: rest => (text key ++ '=' :: text content) :: entryTexts rest

end

mutual

/-- The argument in inspection text. -/
def inspect : Argument → Text
  | .null => "Null".toList
  | .value text => Inspect.variant "Value" (Inspect.quoted text)
  | .list items => Inspect.variant "List" (Inspect.list (inspectAll items))
  | .map entries => Inspect.variant "Map" (Inspect.list (inspectEntries entries))
  | .error chain => Inspect.variant "Error" (Inspect.quoted chain.description)

/-- Several arguments in inspection text. -/
def inspectAll : List Argument → List Text
  | [] => []
  | item :: rest => inspect item :: inspectAll rest

/-- Pairs in inspection text. -/
def inspectEntries : List (Argument × Argument) → List Text
  | [] => []
  | (key, content) :: rest =>
    ("(".toList ++ inspect key ++ ", ".toList ++ inspect content ++ ")".toList)
      :: inspectEntries rest

end

/-- Takes an error off the end of the arguments. If the last one is no error, none is taken. -/
def splitError (arguments : List Argument) : List Argument × Option ErrorChain :=
  match arguments.getLast? >>= error? with
  | some chain => (arguments.dropLast, some chain)
  | none => (arguments, none)

end Argument

end Logbook
