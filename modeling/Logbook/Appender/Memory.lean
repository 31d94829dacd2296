import Logbook.Appender

/-!
# Logbook — records in memory

An appender that keeps the records themselves, for a host that collects them.
-/

namespace Logbook

/-- The records kept so far, in order. -/
structure Memory where
  records : List Text

namespace Memory

/-- No records. -/
def empty : Memory := ⟨[]⟩

/-- The records, and the memory without them. -/
def take (memory : Memory) : List Text × Memory :=
  (memory.records, empty)

/-- The records as they would stand in a stream, each with a line feed behind it. -/
def contents (memory : Memory) : Text :=
  memory.records.flatMap fun record => record ++ ['\n']

instance : Appender Memory where
  name _ := "memory".toList
  append memory record := (.accepted, ⟨memory.records ++ [record]⟩)
  flush memory := (.ok (), memory)
  release memory := memory

end Memory

end Logbook
