import Logbook.Text.Blank
import Logbook.Text.Numeral

/-!
# Logbook — properties text

The format of a settings file: one `key=value` entry a line, with `#` and `!` comments, a
backslash at the end of a line for an entry that goes on, and backslash escapes. Reading goes
through three kinds of data, each a list of texts made from the one before.

* **`lines`** — the physical lines, ended by a line feed with or without a carriage return.
* **`logicalLines`** — comments dropped, indentation dropped, continued lines joined.
* **`entry?`** — the key and the value of one logical line.
* **`unescape`** — what a spelled key or value stands for.
-/

namespace Logbook.Properties

/-! ## Lines -/

/-- The lines of a text. A line feed ends a line, together with one carriage return before it; a
last line without a line feed counts if it is not empty. -/
def lines : Text → List Text
  | [] => []
  | '\n' :: rest => [] :: lines rest
  | '\r' :: '\n' :: rest => [] :: lines rest
  | c :: rest =>
    match lines rest with
    | [] => [[c]]
    | first :: others => (c :: first) :: others

/-- Whether the line goes on in the next one: it ends in an odd number of backslashes. -/
def isContinued (line : Text) : Bool :=
  (line.reverse.takeWhile (· == '\\')).length % 2 == 1

/-- Whether the line is blank or a comment, given without its indentation. -/
def isIgnored : Text → Bool
  | [] => true
  | c :: _ => c == '#' || c == '!'

/-- Joins continued lines and drops comments, given the text that is continued so far. While an
entry is being continued, a line is part of it whatever it looks like. -/
def logicalLines (pending : Text) : List Text → List Text
  | [] => if pending.isEmpty then [] else [pending]
  | physical :: rest =>
    let line := Text.trimStart physical
    if pending.isEmpty && isIgnored line then logicalLines pending rest
    else if isContinued line then logicalLines (pending ++ line.dropLast) rest
    else (pending ++ line) :: logicalLines [] rest

/-! ## Escapes -/

/-- The character that a backslash and this letter stand for. Every letter without a meaning of its
own stands for itself. -/
def escaped (letter : Char) : Char :=
  if letter = 't' then '\t'
  else if letter = 'n' then '\n'
  else if letter = 'r' then '\r'
  else if letter = 'f' then '\x0c'
  else letter

/-- The character with this code, if there is one. -/
def scalar? (code : Nat) : Option Char :=
  if h : code.isValidChar then some (Char.ofNatAux code h) else none

/-- The character that the text after `\u` stands for: four hexadecimal digits, or a plus sign and
three of them. -/
def codePoint? (digits : Text) : Option Char :=
  match digits with
  | ['+', a, b, c] => Numeral.readHex? [a, b, c] >>= scalar?
  | [a, b, c, d] => Numeral.readHex? [a, b, c, d] >>= scalar?
  | _ => none

/-- What a spelled key or value stands for. An escape `\u` takes up to four characters; where they
denote no character it stands for the letter `u`, and they for themselves. A backslash at the end
stands for nothing. -/
def unescape : Text → Text
  | [] => []
  | '\\' :: 'u' :: a :: b :: c :: d :: rest =>
    match codePoint? [a, b, c, d] with
    | some decoded => decoded :: unescape rest
    | none => 'u' :: a :: b :: c :: d :: unescape rest
  | '\\' :: 'u' :: short => 'u' :: short
  | '\\' :: letter :: rest => escaped letter :: unescape rest
  | ['\\'] => []
  | c :: rest => c :: unescape rest

/-! ## Entries -/

/-- Whether the character ends a key by itself. -/
def isSeparator (c : Char) : Bool :=
  c == '=' || c == ':'

/-- Drops one separator from the front, if there is one. -/
def dropSeparator : Text → Text
  | [] => []
  | c :: rest => if isSeparator c then rest else c :: rest

/-- Cuts a logical line into its spelled key and its spelled value. The key ends at the first
separator or blank that no backslash protects; blanks may stand before and after the separator. -/
def cut : Text → Text × Text
  | [] => ([], [])
  | '\\' :: c :: rest =>
    let (key, value) := cut rest
    ('\\' :: c :: key, value)
  | c :: rest =>
    if isSeparator c then ([], Text.trimStart rest)
    else if Text.isBlank c then ([], Text.trimStart (dropSeparator (Text.trimStart rest)))
    else
      let (key, value) := cut rest
      (c :: key, value)

/-- The key and the value of a logical line, unless its key is empty. -/
def entry? (line : Text) : Option (Text × Text) :=
  let (key, value) := cut line
  let key := unescape key
  if key.isEmpty then none else some (key, unescape value)

/-- The entries of a properties text, in order and with their duplicates. -/
def parse (text : Text) : List (Text × Text) :=
  (logicalLines [] (lines text)).filterMap entry?

end Logbook.Properties
