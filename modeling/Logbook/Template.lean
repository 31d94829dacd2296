import Logbook.Argument

/-!
# Logbook — message templates

A template holds placeholders `{}`, which are filled from left to right. Arguments that are left
over are ignored, and placeholders that are left over stay as they are. A backslash in front of a
placeholder makes it stand for itself; of two or more backslashes one goes and the placeholder is
filled.

* **`Template.fill`** — the placeholders filled with rendered arguments.
* **`Template.message`** — the message of an event, and the error taken off its arguments.
-/

namespace Logbook.Template

/-- Fills the placeholders of a template, given how many backslashes stand right in front of it.
Once no argument is left the rest is copied. -/
def fillFrom (backslashes : Nat) : Text → List Text → Text
  | rest, [] => List.replicate backslashes '\\' ++ rest
  | [], _ => List.replicate backslashes '\\'
  | '\\' :: rest, arguments => fillFrom (backslashes + 1) rest arguments
  | '{' :: '}' :: rest, argument :: arguments =>
    match backslashes with
    | 0 => argument ++ fillFrom 0 rest arguments
    | 1 => '{' :: '}' :: fillFrom 0 rest (argument :: arguments)
    | more + 2 =>
      List.replicate (more + 1) '\\' ++ argument ++ fillFrom 0 rest arguments
  | c :: rest, arguments =>
    List.replicate backslashes '\\' ++ c :: fillFrom 0 rest arguments

/-- Fills the placeholders of a template with rendered arguments. -/
def fill (template : Text) (arguments : List Text) : Text :=
  fillFrom 0 template arguments

/-- The message of a template and its arguments. An error at the end of the arguments fills no
placeholder: it is handed on. -/
def message (template : Text) (arguments : List Argument) : Text × Option ErrorChain :=
  let (arguments, error) := Argument.splitError arguments
  (fill template (arguments.map Argument.text), error)

end Logbook.Template
