import Logbook.Settings

/-!
# Logbook — settings files

Settings are read from a file of properties text in a folder. The folder is a value: the names of
its files with their bytes.

* **`Folder.read?`** — the text of a file, if the path leads to a file of valid UTF-8.
* **`Settings.load`** — the settings of a file, or the failure to read it.
* **`Settings.ofDefaultFile`** — the settings of the default file; without it none, and a notice.
-/

namespace Logbook

/-- A folder without folders in it: the name and the bytes of each file. -/
structure Folder where
  files : List (Text × ByteArray)

namespace Folder

/-- The steps of a path, between its slashes. -/
def steps : Text → List Text
  | [] => [[]]
  | c :: rest =>
    if c = '/' then [] :: steps rest
    else
      match steps rest with
      | [] => [[c]]
      | first :: others => (c :: first) :: others

/-- Whether a step of a path stays where it is. -/
def staysHere (step : Text) : Bool :=
  step.isEmpty || step == ['.']

/-- The file that a path leads to, seen from the folder: any steps but the last stay in it. -/
def target? (path : Text) : Option Text :=
  match (steps path).reverse with
  | [] => none
  | last :: before =>
    if path.head? != some '/' && before.all staysHere && !staysHere last then some last else none

/-- The text of the file that a path leads to. -/
def read? (folder : Folder) (path : Text) : Option Text := do
  let name ← target? path
  let bytes ← folder.files.lookup name
  let text ← String.fromUTF8? bytes
  return text.toList

end Folder

namespace Settings

/-- The file that is read where no other is named. -/
def defaultFile : Text := "logging.properties".toList

/-- The settings of a file. -/
def load (folder : Folder) (path : Text) : Except Failure Settings :=
  match folder.read? path with
  | some text => .ok (ofProperties text)
  | none =>
    .error (.operation "reading configuration".toList
      ("cannot read '".toList ++ path ++ "'".toList) "unreadable".toList)

/-- The settings of the default file. If it is missing or unreadable there are none, and a notice
says so. -/
def ofDefaultFile (folder : Folder) : Reported Settings :=
  match load folder defaultFile with
  | .ok settings => pure settings
  | .error _ => do
    Reported.notify (.fileNotFound defaultFile)
    return empty

end Settings

end Logbook
