import Logbook.Name
import Logbook.Proofs.Text.Trailing

/-!
# Logbook — the characters of a condensed name

A condensed name is made of characters of the name and of one dot, so it can hold nothing that the
name does not hold.

* **`condense_subset`** — the inclusion, from `segments_subset` for the pieces between the dots.
-/

namespace Logbook.Name

theorem segments_subset {name part : Text} (hpart : part ∈ segments name) : part ⊆ name := by
  -- on the name: its first character ends a piece, or stands in front of the first one
  induction name generalizing part with
  | nil =>
      rw [segments, List.mem_singleton] at hpart
      rw [hpart]
      exact List.nil_subset []
  | cons c rest ih =>
      have hrest : ∀ piece ∈ segments rest, piece ⊆ c :: rest := fun piece hpiece =>
        List.subset_cons_of_subset c (ih hpiece)
      unfold segments at hpart
      split at hpart
      · rcases List.mem_cons.mp hpart with rfl | hpart
        · exact List.nil_subset _
        · exact hrest part hpart
      · split at hpart
        · rw [List.mem_singleton.mp hpart]
          exact List.cons_subset_cons c (List.nil_subset rest)
        · next first others hsegments =>
          rcases List.mem_cons.mp hpart with rfl | hpart
          · exact List.cons_subset_cons c (ih (hsegments ▸ List.mem_cons_self))
          · exact hrest part (hsegments ▸ List.mem_cons_of_mem first hpart)

/-- **A condensed name has no character that neither the name has nor is a dot.** -/
theorem condense_subset (name : Text) : condense name ⊆ '.' :: name := by
  have hparts : ∀ part ∈ segments (Text.dropTrailing '.' name), part ⊆ name := fun part hpart =>
    List.Subset.trans (segments_subset hpart) (Text.dropTrailing_subset '.' name)
  have hlast : (segments (Text.dropTrailing '.' name)).getLast?.getD [] ⊆ name := by
    cases hlast : (segments (Text.dropTrailing '.' name)).getLast? with
    | none => exact List.nil_subset name
    | some last => exact hparts last (List.mem_of_getLast? hlast)
  have hinitials : (segments (Text.dropTrailing '.' name)).dropLast.filterMap
      (fun part => (Text.trimStart part).head?) ⊆ name := by
    intro c hc
    obtain ⟨part, hpart, hhead⟩ := List.mem_filterMap.mp hc
    have hmem : c ∈ part := (List.dropWhile_suffix _).subset (List.mem_of_head? hhead)
    exact hparts part (List.dropLast_subset _ hpart) hmem
  unfold condense
  dsimp only
  split
  · exact List.subset_cons_of_subset '.' hlast
  · intro c hc
    rcases List.mem_append.mp hc with hc | hc
    · exact List.mem_cons_of_mem '.' (hinitials hc)
    · exact List.cons_subset_cons '.' hlast hc

end Logbook.Name
