import Logbook.Proofs.Timestamp
import Logbook.Record
import Mathlib.Data.List.Forall2

/-!
# Logbook — a renderer has no memory

The stamper is the only thing a renderer remembers, and a faithful stamper does not show. So what a
renderer writes is a function of the layout, the logger and the event, however many records it has
rendered before.

* **`Renderer.renderInto_eq`** — a record is written behind the buffer, which it does not look at:
  its columns are counted from where it begins.
* **`Renderer.IsFaithful`** — a renderer for a layout whose stamper is faithful.
* **`Renderer.renderInto_spec`** — the step; **`Renderer.isFaithful_after`** — the run.
* **`Renderer.renderAll_eq_fresh`** — the headline: every record of a run is the one that a new
  renderer writes.
-/

namespace Logbook

/-- One record that a renderer is asked for: whether its stamper is busy, what stands in the buffer
already, and the event of a logger. -/
structure Rendering where
  busy : Bool
  buffer : Text
  logger : Identity
  event : Event

namespace Renderer

variable [CivilTime]

/-- The renderer after some records. -/
def after (renderer : Renderer) (renderings : List Rendering) : Renderer :=
  renderings.foldl
    (fun renderer asked =>
      (renderer.renderInto asked.busy asked.buffer asked.logger asked.event).2)
    renderer

/-- The renderer writes in this layout, and what its stamper keeps is right. -/
structure IsFaithful (renderer : Renderer) (layout : Layout) : Prop where
  layout_eq : renderer.layout = layout
  zone_eq : renderer.stamper.zone = layout.zone
  stamper : renderer.stamper.IsFaithful

theorem isFaithful_new (layout : Layout) : (new layout).IsFaithful layout :=
  ⟨rfl, rfl, Stamper.isFaithful_new layout.zone⟩

theorem renderInto_eq (renderer : Renderer) (busy : Bool) (buffer : Text) (logger : Identity)
    (event : Event) :
    renderer.renderInto busy buffer logger event
      = (buffer ++ Record.text renderer.layout (renderer.stamper.stamp busy event.millis).1 logger
          event,
        { renderer with stamper := (renderer.stamper.stamp busy event.millis).2 }) := by
  unfold renderInto Record.text
  -- behind the buffer stands the header alone when its width is taken
  simp only [List.drop_left, List.append_assoc]

/-- **A faithful renderer writes the record of the event**, behind what stands in the buffer, and it
stays faithful. -/
theorem renderInto_spec {renderer : Renderer} {layout : Layout} (h : renderer.IsFaithful layout)
    (busy : Bool) (buffer : Text) (logger : Identity) (event : Event) :
    (renderer.renderInto busy buffer logger event).1
        = buffer ++ Record.text layout (Timestamp.text layout.zone event.millis) logger event
      ∧ (renderer.renderInto busy buffer logger event).2.IsFaithful layout := by
  obtain ⟨hstamp, hfaithful, hzone⟩ := Stamper.stamp_spec h.stamper busy event.millis
  rw [renderInto_eq]
  refine ⟨?_, ⟨h.layout_eq, hzone.trans h.zone_eq, hfaithful⟩⟩
  rw [← h.zone_eq, ← hstamp, ← h.layout_eq]

theorem isFaithful_after {renderer : Renderer} {layout : Layout} (h : renderer.IsFaithful layout)
    (renderings : List Rendering) : (renderer.after renderings).IsFaithful layout := by
  induction renderings generalizing renderer with
  | nil => exact h
  | cons asked rest ih =>
      exact ih (renderInto_spec h asked.busy asked.buffer asked.logger asked.event).2

theorem render_eq {renderer : Renderer} {layout : Layout} (h : renderer.IsFaithful layout)
    (logger : Identity) (event : Event) :
    (renderer.render logger event).1
      = Record.text layout (Timestamp.text layout.zone event.millis) logger event := by
  simpa [render] using (renderInto_spec h false [] logger event).1

/-- Whatever a new renderer has rendered before, it writes the record of the event. -/
theorem render_after (layout : Layout) (earlier : List Rendering) (logger : Identity)
    (event : Event) :
    (((new layout).after earlier).render logger event).1
      = Record.text layout (Timestamp.text layout.zone event.millis) logger event :=
  render_eq (isFaithful_after (isFaithful_new layout) earlier) logger event

/-- What a renderer leaves in the buffers, one record after the other. -/
def renderAll (renderer : Renderer) : List Rendering → List Text
  | [] => []
  | asked :: rest =>
    let written := renderer.renderInto asked.busy asked.buffer asked.logger asked.event
    written.1 :: renderAll written.2 rest

theorem renderAll_eq {renderer : Renderer} {layout : Layout} (h : renderer.IsFaithful layout)
    (renderings : List Rendering) :
    renderer.renderAll renderings = renderings.map fun asked => asked.buffer
      ++ Record.text layout (Timestamp.text layout.zone asked.event.millis) asked.logger
          asked.event := by
  induction renderings generalizing renderer with
  | nil => rfl
  | cons asked rest ih =>
      obtain ⟨htext, hfaithful⟩ :=
        renderInto_spec h asked.busy asked.buffer asked.logger asked.event
      unfold renderAll
      dsimp only
      rw [List.map_cons, htext, ih hfaithful]

/-- **A renderer has no memory.** However many records it has rendered, in whatever order of their
times, into whatever buffers, and whether or not its stamper was busy: each buffer holds what it held,
and behind it the record that a new renderer of the layout writes into an empty buffer. Likewise each
text of a stamper tells its instant, whatever was stamped before. -/
theorem renderAll_eq_fresh (layout : Layout) (renderings : List Rendering)
    (instants : List (Bool × Int)) :
    (∀ busy, (new layout).renderAll renderings = renderings.map fun asked =>
        asked.buffer ++ ((new layout).renderInto busy [] asked.logger asked.event).1)
      ∧ List.Forall₂ (Timestamp.Tells layout.zone) (instants.map (·.2))
          ((Stamper.new layout.zone).stampAll instants) := by
  have hnew := isFaithful_new layout
  constructor
  · intro busy
    rw [renderAll_eq hnew]
    refine List.map_congr_left fun asked _ => ?_
    rw [(renderInto_spec hnew busy [] asked.logger asked.event).1, List.nil_append]
  · rw [Stamper.stampAll_eq (Stamper.isFaithful_new layout.zone), List.forall₂_map_left_iff,
      List.forall₂_map_right_iff, List.forall₂_same]
    intro instant _
    exact Timestamp.tells_text layout.zone instant.2

end Renderer

end Logbook
