import Logbook.Text

/-!
# Logbook — control characters

A record stays on one line because no control character of user text reaches it: each is replaced
by one visible character. The replacement keeps the number of characters, so columns do not move.

* **`isControl`** — the Unicode category Cc.
* **`visible`** — one character made visible; **`flatten`** — a whole text, when asked for.
-/

namespace Logbook.Text

/-- Whether the character is a control character (category Cc). -/
def isControl (c : Char) : Bool :=
  c.toNat < 0x20 || (0x7F ≤ c.toNat && c.toNat ≤ 0x9F)

/-- The visible stand-in of a character: a bar for a line feed, `<` for a carriage return, `?` for
any other control character, and every other character itself. -/
def visible (c : Char) : Char :=
  if c = '\n' then '|'
  else if c = '\r' then '<'
  else if isControl c then '?'
  else c

/-- The text with its control characters made visible, or as it is when `escaped` is off. -/
def flatten (escaped : Bool) (text : Text) : Text :=
  if escaped then text.map visible else text

end Logbook.Text
