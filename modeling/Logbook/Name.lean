import Logbook.Text.Blank

/-!
# Logbook — logger names

A logger name is a text whose dots part it into segments, the way packages nest. A setting for a
name holds for everything below it, so a query walks from the name to ever shorter ones.

* **`Name.walk`** — probes a name, then each name cut from it at its last dot, and the root last.
* **`Name.segments`**, **`Name.condense`** — the segments, and the short form for records.
* **`Name.isBelow`** — which names count as descendants of another.
-/

namespace Logbook.Name

/-- The name that is probed after all others. -/
def root : Text := "ROOT".toList

/-- The text in front of the last dot, if there is a dot. -/
def cutLast (name : Text) : Option Text :=
  match name.reverse.dropWhile (· != '.') with
  | [] => none
  | _ :: rest => some rest.reverse

/-- Cutting at a dot makes a name shorter. -/
theorem length_lt_of_cutLast {name shorter : Text} (h : cutLast name = some shorter) :
    shorter.length < name.length := by
  have hdrop : (name.reverse.dropWhile (· != '.')).length ≤ name.length := by
    have := (List.dropWhile_suffix (l := name.reverse) (· != '.')).length_le
    simpa using this
  unfold cutLast at h
  split at h
  · cases h
  · next c rest hrest =>
    cases h
    rw [hrest, List.length_cons] at hdrop
    rw [List.length_reverse]
    exact hdrop

/-- Probes `name`, then each name cut from it at its last dot while any text is left, and the root
name last. The first probe that answers ends the walk. The probe may keep state in `m`. -/
def walk {m : Type → Type} [Monad m] {α : Type} (probe : Text → m (Option α)) (name : Text) :
    m (Option α) :=
  if name.isEmpty then probe root
  else do
    match ← probe name with
    | some found => pure (some found)
    | none =>
      match _h : cutLast name with
      | some shorter => walk probe shorter
      | none => probe root
termination_by name.length
decreasing_by exact length_lt_of_cutLast ‹_›

/-- The pieces between the dots; there is always at least one. -/
def segments : Text → List Text
  | [] => [[]]
  | c :: rest =>
    if c = '.' then [] :: segments rest
    else
      match segments rest with
      | [] => [[c]]
      | first :: others => (c :: first) :: others

/-- The short form of a name: the first visible character of every segment but the last, a dot if
there is any such character, and the last segment. Dots at the end of the name do not count. -/
def condense (name : Text) : Text :=
  let parts := segments (Text.dropTrailing '.' name)
  let initials := parts.dropLast.filterMap fun part => (Text.trimStart part).head?
  let last := parts.getLast?.getD []
  if initials.isEmpty then last else initials ++ '.' :: last

/-- Whether `name` lies below `parent`: it starts with the parent's name and a dot. Below the empty
name lies every other name. -/
def isBelow (parent name : Text) : Bool :=
  let start := if parent.isEmpty || parent.getLast? == some '.' then parent else parent ++ ['.']
  name != parent && start.isPrefixOf name

/-- The name without the dots at its end, and then without one `suffix`. -/
def normalize (suffix name : Text) : Text :=
  let trimmed := Text.dropTrailing '.' name
  if suffix.isSuffixOf trimmed then trimmed.take (trimmed.length - suffix.length) else trimmed

end Logbook.Name
