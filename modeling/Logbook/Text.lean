/-!
# Logbook — text

Names, keys, templates and records are all held as the list of their characters, so that every
reader and printer of the library is a recursion over that list.

* **`Text`** — the characters of a text, one by one.
* **`Text.byteLength`** — its size in UTF-8, the unit of a write buffer.
* **`Text.dropTrailing`** — the text without its trailing copies of one character.
* **`Text.precedes`** — the order of texts, by code point.
-/

namespace Logbook

/-- A text is the list of its characters. -/
abbrev Text := List Char

namespace Text

/-- The number of bytes the text takes in UTF-8. -/
def byteLength (text : Text) : Nat :=
  text.foldr (fun c bytes => c.utf8Size + bytes) 0

/-- The text without the copies of `c` at its end. -/
def dropTrailing (c : Char) (text : Text) : Text :=
  (text.reverse.dropWhile (· == c)).reverse

/-- Equal up to the case of the ASCII letters. -/
def sameLetters (a b : Text) : Bool :=
  a.map Char.toLower == b.map Char.toLower

/-- Whether a text comes before another one or equals it: at the first difference its character has
the lesser code point, or it ends there. -/
def precedes : Text → Text → Bool
  | [], _ => true
  | _ :: _, [] => false
  | a :: as, b :: bs => a.toNat < b.toNat || (a == b && precedes as bs)

end Text

end Logbook
