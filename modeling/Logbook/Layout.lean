import Logbook.Settings

/-!
# Logbook — record layout

How records are laid out: short or full logger names, control characters made visible or not, the
column of the message, the zone of the time. Each part has a key of its own in the settings.
-/

namespace Logbook

/-- The layout of records. -/
structure Layout where
  /-- Logger names are written in their short form. -/
  condensed : Bool := true
  /-- Control characters of messages and errors are made visible. -/
  escaped : Bool := true
  /-- The column at which messages begin, if the header leaves room. -/
  column : Nat := 0
  /-- The zone of the time. -/
  zone : Zone := .system
  deriving DecidableEq, Repr

namespace Layout

/-- The key of `condensed`. -/
def condensedKey : Text := "ab.eazy.logging.appender.NAME_CONDENSE".toList

/-- The key of `column`. -/
def columnKey : Text := "ab.eazy.logging.appender.MESSAGE_ALIGN".toList

/-- The key of `escaped`. -/
def escapedKey : Text := "ab.eazy.logging.appender.MESSAGE_ESCAPE".toList

/-- The key of `zone`. -/
def zoneKey : Text := "ab.eazy.logging.appender.ZONE_ID".toList

/-- The layout that the settings ask for. A part that is absent or unusable keeps its default, and
a column left of the first one is the first. -/
def ofSettings [CivilTime] (settings : Settings) : Except Breakdown (Reported Layout) := do
  let zone ← settings.zone zoneKey
  return do
    let zone ← zone
    return {
      condensed := settings.flag condensedKey true
      escaped := settings.flag escapedKey true
      column := (settings.integer columnKey 0).toNat?.getD 0
      zone := zone.getD .system }

/-- The layout in inspection text. -/
def inspect (layout : Layout) : Text :=
  Inspect.fields "FormatterConfig"
    [("condensed_names", Inspect.truth layout.condensed),
     ("escaped_messages", Inspect.truth layout.escaped),
     ("message_align_column", Numeral.decimal layout.column),
     ("zone", layout.zone.inspect)]

end Layout

end Logbook
