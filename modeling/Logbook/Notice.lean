import Logbook.Failure
import Logbook.Level

/-!
# Logbook — notices

The library cannot log its own problems through the records it renders, so it leaves notices. A
notice is data; its line is written in one place.

* **`Notice`** — everything there is to notify, with `Notice.line`.
* **`Reported`** — a value together with the notices that were left on the way to it. It is a
  monad: the notices of consecutive steps follow each other.
-/

namespace Logbook

/-- A problem of the library itself. -/
inductive Notice where
  /-- The settings file is absent or cannot be read. -/
  | fileNotFound (file : Text)
  /-- A level setting has a value that names no level. -/
  | unknownLevel (value key : Text)
  /-- A zone setting has a value that names no zone. -/
  | unknownZone (id key : Text)
  /-- An appender refused a record. -/
  | appendFailed (appender logger : Text) (failure : Failure)
  /-- An appender crashed on a record, with the text it left, if any. -/
  | appendCrashed (appender logger : Text) (last : Option Text)
  /-- The last flush of an appender failed. -/
  | shutdownFlushFailed (appender : Text) (failure : Failure)
  /-- A flush asked for through the facade failed. -/
  | facadeFlushFailed (failure : Failure)
  deriving DecidableEq, Repr

namespace Notice

/-- How grave a notice is. -/
inductive Gravity where
  | info
  | warning
  | error
  deriving DecidableEq, Repr

/-- The mark in front of a notice. -/
def Gravity.mark : Gravity → Text
  | info => "[LOGGER INFO]".toList
  | warning => "[LOGGER WARNING]".toList
  | error => "[LOGGER ERROR]".toList

/-- A file that is missing is information, a bad setting a warning, a failing appender an error. -/
def gravity : Notice → Gravity
  | fileNotFound _ => .info
  | unknownLevel _ _ => .warning
  | unknownZone _ _ => .warning
  | appendFailed _ _ _ => .error
  | appendCrashed _ _ _ => .error
  | shutdownFlushFailed _ _ => .error
  | facadeFlushFailed _ => .error

/-- The wording of a notice. -/
def message : Notice → Text
  | fileNotFound file => "File '".toList ++ file ++ "' not found.".toList
  | unknownLevel value key =>
    Level.Unknown.message ⟨value⟩ ++ " (key '".toList ++ key ++ "')".toList
  | unknownZone id key =>
    "Unknown time zone [".toList ++ id ++ "] for '".toList ++ key
      ++ "', using the system zone".toList
  | appendFailed appender logger failure =>
    "Appender ".toList ++ appender ++ " failed for logger ".toList ++ logger ++ ": ".toList
      ++ failure.message
  | appendCrashed appender logger last =>
    "Appender ".toList ++ appender ++ " panicked for logger ".toList ++ logger ++ ": ".toList
      ++ last.getD "Unknown panic".toList
  | shutdownFlushFailed appender failure =>
    "Appender ".toList ++ appender ++ " flush failed on shutdown: ".toList ++ failure.message
  | facadeFlushFailed failure => "Facade flush failed: ".toList ++ failure.message

/-- The line of a notice, with its line feed. -/
def line (notice : Notice) : Text :=
  notice.gravity.mark ++ [' '] ++ notice.message ++ ['\n']

end Notice

/-- A value, with the notices left on the way to it, in order. -/
structure Reported (α : Type) where
  value : α
  notices : List Notice

namespace Reported

instance : Monad Reported where
  pure value := ⟨value, []⟩
  bind x f :=
    let y := f x.value
    ⟨y.value, x.notices ++ y.notices⟩

/-- Leaves one notice. -/
def notify (notice : Notice) : Reported Unit :=
  ⟨(), [notice]⟩

@[simp] theorem value_pure {α : Type} (a : α) : (pure a : Reported α).value = a := rfl

@[simp] theorem notices_pure {α : Type} (a : α) : (pure a : Reported α).notices = [] := rfl

@[simp] theorem value_bind {α β : Type} (x : Reported α) (f : α → Reported β) :
    (x >>= f).value = (f x.value).value := rfl

@[simp] theorem notices_bind {α β : Type} (x : Reported α) (f : α → Reported β) :
    (x >>= f).notices = x.notices ++ (f x.value).notices := rfl

/-- The monad laws hold, because appending lists of notices is associative with unit `[]`. -/
instance : LawfulMonad Reported :=
  LawfulMonad.mk' Reported
    (by intro _ x; cases x; simp [Functor.map])
    (by intro _ _ x f; simp [pure, bind])
    (by intro _ _ _ x f g; simp [bind, List.append_assoc])

end Reported

end Logbook
