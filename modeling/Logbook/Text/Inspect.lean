import Logbook.Text.Control

/-!
# Logbook — inspection text

Every value of the library has a one-line form for developers: a constructor name, with the fields
of a structure in braces and the content of a variant in parentheses.

* **`quoted`** — a text in double quotes, with quotes, backslashes and control characters escaped.
* **`fields`**, **`variant`**, **`list`**, **`option`** — the shapes a value can have.
-/

namespace Logbook.Inspect

/-- One character between double quotes. Control characters without a letter of their own are
written by their code in lower-case hexadecimal; an apostrophe stands for itself. -/
def quotedChar (c : Char) : Text :=
  if c = '"' then ['\\', '"']
  else if c = '\\' then ['\\', '\\']
  else if c = '\n' then ['\\', 'n']
  else if c = '\r' then ['\\', 'r']
  else if c = '\t' then ['\\', 't']
  else if c.toNat = 0 then ['\\', '0']
  else if Text.isControl c then ['\\', 'u', '{'] ++ Nat.toDigits 16 c.toNat ++ ['}']
  else [c]

/-- The text in double quotes. -/
def quoted (text : Text) : Text :=
  '"' :: (text.flatMap quotedChar ++ ['"'])

/-- The two truth values. -/
def truth (b : Bool) : Text :=
  if b then "true".toList else "false".toList

/-- Items parted by a comma and a space. -/
def commas (items : List Text) : Text :=
  List.intercalate ", ".toList items

/-- A structure: its name, and each field with its content. -/
def fields (name : String) (content : List (String × Text)) : Text :=
  name.toList ++ " \x7b ".toList
    ++ commas (content.map fun field => field.1.toList ++ ": ".toList ++ field.2)
    ++ " \x7d".toList

/-- A variant with one piece of content. -/
def variant (name : String) (content : Text) : Text :=
  name.toList ++ "(".toList ++ content ++ ")".toList

/-- A list in brackets. -/
def list (items : List Text) : Text :=
  "[".toList ++ commas items ++ "]".toList

/-- An optional value. -/
def option : Option Text → Text
  | none => "None".toList
  | some content => variant "Some" content

end Logbook.Inspect
