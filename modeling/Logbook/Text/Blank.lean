import Logbook.Text

/-!
# Logbook — blank characters

The characters with the Unicode property White_Space (25 code points, unchanged since Unicode 6.3).
They separate a key from its value, indent a line of a settings file and surround a zone id.
-/

namespace Logbook.Text

/-- The code points with the property White_Space, as closed ranges, ascending and apart. -/
def blankRanges : List (Nat × Nat) :=
  [(0x09, 0x0D), (0x20, 0x20), (0x85, 0x85), (0xA0, 0xA0), (0x1680, 0x1680), (0x2000, 0x200A),
   (0x2028, 0x2029), (0x202F, 0x202F), (0x205F, 0x205F), (0x3000, 0x3000)]

/-- Whether the character is white space. -/
def isBlank (c : Char) : Bool :=
  blankRanges.any fun range => range.1 ≤ c.toNat && c.toNat ≤ range.2

/-- The text from its first character that is not blank. -/
def trimStart (text : Text) : Text :=
  text.dropWhile isBlank

/-- The text without the blanks at either end. -/
def trim (text : Text) : Text :=
  ((trimStart text).reverse.dropWhile isBlank).reverse

end Logbook.Text
