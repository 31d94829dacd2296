import Logbook.Name
import Logbook.Notice
import Logbook.Properties
import Logbook.Zone

/-!
# Logbook — settings

A flat table of keys and values, and its typed queries. A value that does not fit the type of a
query counts as absent, and the caller's default is taken.

* **`Settings.get?`** — the value of a key; of several pairs with one key the last counts.
* **`Settings.flag`**, **`Settings.integer`**, **`Settings.text`**, **`Settings.zone`** — typed
  queries.
* **`Settings.resolveLevel`**, **`Settings.resolveHidesStacks`** — what holds for a logger name: the
  entry of the name itself, or else of the nearest name above it, or else of the root.
-/

namespace Logbook

/-- A table of settings, which holds each key once. -/
structure Settings where
  entries : List (Text × Text)

namespace Settings

/-- The table without entries. -/
def empty : Settings := ⟨[]⟩

/-- Sets the value of a key, in place of any earlier one. -/
def put (settings : Settings) (key value : Text) : Settings :=
  ⟨settings.entries.filter (·.1 != key) ++ [(key, value)]⟩

/-- The table of these pairs; a later pair replaces an earlier one with the same key. -/
def ofPairs (pairs : List (Text × Text)) : Settings :=
  pairs.foldl (fun settings pair => settings.put pair.1 pair.2) empty

/-- The table of these pairs, without the pairs that have no value. -/
def ofOptionalPairs (pairs : List (Text × Option Text)) : Settings :=
  ofPairs (pairs.filterMap fun pair => pair.2.map (pair.1, ·))

/-- The table that a properties text describes. -/
def ofProperties (text : Text) : Settings :=
  ofPairs (Properties.parse text)

/-- The number of keys. -/
def size (settings : Settings) : Nat :=
  settings.entries.length

/-- The value of a key. -/
def get? (settings : Settings) (key : Text) : Option Text :=
  settings.entries.lookup key

/-! ## Typed queries -/

/-- The value of a key, or the default. -/
def text (settings : Settings) (key default : Text) : Text :=
  (settings.get? key).getD default

/-- Whether a value says yes: only `true` does, in any case of its letters. -/
def isTrue (value : Text) : Bool :=
  Text.sameLetters value "true".toList

/-- A yes or no; any value but `true` is a no. -/
def flag (settings : Settings) (key : Text) (default : Bool) : Bool :=
  ((settings.get? key).map isTrue).getD default

/-- A whole number of at most 64 bits, or the default. -/
def integer (settings : Settings) (key : Text) (default : Int) : Int :=
  (settings.get? key >>= Numeral.readInteger64?).getD default

/-- A zone. A value that names none leaves a notice. -/
def zone [CivilTime] (settings : Settings) (key : Text) :
    Except Breakdown (Reported (Option Zone)) :=
  match settings.get? key with
  | none => .ok (pure none)
  | some id => do
    match ← Zone.read id with
    | some zone => return pure (some zone)
    | none =>
      return do
        Reported.notify (.unknownZone id key)
        pure none

/-! ## What holds for a logger name -/

/-- What follows a name in the key of its level. -/
def levelSuffix : Text := ".LEVEL".toList

/-- What follows a name in the key of its stacks. -/
def stacksSuffix : Text := ".STACKS".toList

/-- Error chains are shown in full where nothing is configured. -/
def hidesStacksByDefault : Bool := false

/-- The level set for just this name. A value that names no level leaves a notice and counts as
absent. -/
def ownLevel (settings : Settings) (name : Text) : Reported (Option Level) :=
  let key := name ++ levelSuffix
  match settings.get? key with
  | none => pure none
  | some value =>
    match Level.ofName? value with
    | some level => pure (some level)
    | none => do
      Reported.notify (.unknownLevel value key)
      pure none

/-- Whether stacks are hidden for just this name. Any value is an answer. -/
def ownHidesStacks (settings : Settings) (name : Text) : Option Bool :=
  (settings.get? (name ++ stacksSuffix)).map isTrue

/-- The level of a logger name: the first usable one on the walk from the name to the root. The
name may also be given with dots behind it, or as the key of its level. -/
def resolveLevel (settings : Settings) (name : Text) : Reported Level := do
  let found ← Name.walk settings.ownLevel (Name.normalize levelSuffix name)
  return found.getD Level.standard

/-- Whether a logger name hides stacks: the first entry on the walk from the name to the root
decides. The name may also be given with dots behind it, or as the key of its stacks. -/
def resolveHidesStacks (settings : Settings) (name : Text) : Bool :=
  let probe : Text → Id (Option Bool) := settings.ownHidesStacks
  (Id.run (Name.walk probe (Name.normalize stacksSuffix name))).getD hidesStacksByDefault

/-- The table in inspection text. -/
def inspect (settings : Settings) : Text :=
  Inspect.fields "LoggerConfiguration"
    [("properties", "\x7b".toList
      ++ Inspect.commas (settings.entries.map fun entry =>
          Inspect.quoted entry.1 ++ ": ".toList ++ Inspect.quoted entry.2)
      ++ "\x7d".toList)]

end Settings

end Logbook
