import Logbook.Appender.Sink
import Mathlib.Data.List.Basic

/-!
# Logbook — all sinks write the same text

A stream without a buffer, a stream behind one, the console and the memory are told apart by when the
text goes out, not by what it is. Each of them is related to the text that it was given so far; the
relation is kept by every call, and so by every sequence of calls.

* **`Appender.Transcribes`** — the step: the relation is kept, and every call succeeds.
  **`Appender.Transcribes.holds_askAll`** — the run.
* **`Destination.Reliable`** — the destinations that never fail, and what has been delivered to them.
* **`Stream.Carries`** — what is delivered and what waits in the buffer are the text, in this order.
* **`Memory.collect_flatten`** — what was taken from a memory and what it still holds.
* **`Appender.sinks_write_the_same`** — the headline.
-/

namespace Logbook

namespace Appender

/-! ## Calls -/

/-- What may be asked of any appender. -/
inductive Call where
  | append (record : Text)
  | flush
  deriving DecidableEq, Repr

/-- The records that are handed over by some calls. -/
def Call.records : List Call → List Text
  | [] => []
  | .append record :: rest => record :: records rest
  | .flush :: rest => records rest

/-- The records as lines. -/
def lines (records : List Text) : Text :=
  records.flatMap (· ++ ['\n'])

variable {α : Type} [Appender α]

/-- The appender after a call. -/
def ask (appender : α) : Call → α
  | .append record => (append appender record).2
  | .flush => (flush appender).2

/-- The appender takes the record, or flushes without a failure. -/
def Obeys (appender : α) : Call → Prop
  | .append record => (append appender record).1 = .accepted
  | .flush => (flush appender).1 = .ok ()

/-- The appender after some calls. -/
def askAll (appender : α) (calls : List Call) : α :=
  calls.foldl ask appender

/-- The relation ties an appender to the text that was given to it: a record is taken and becomes a
line of the text, and a flush succeeds and adds nothing. -/
structure Transcribes (holds : Text → α → Prop) : Prop where
  append : ∀ {text appender}, holds text appender → ∀ record, ∃ next,
    append appender record = (.accepted, next) ∧ holds (text ++ (record ++ ['\n'])) next
  flush : ∀ {text appender}, holds text appender → ∃ next,
    flush appender = (.ok (), next) ∧ holds text next

variable {holds : Text → α → Prop} {text : Text} {appender : α}

theorem Transcribes.obeys (h : Transcribes holds) (hholds : holds text appender) (call : Call) :
    Obeys appender call := by
  cases call with
  | append record =>
      obtain ⟨next, happend, -⟩ := h.append hholds record
      rw [Obeys, happend]
  | flush =>
      obtain ⟨next, hflush, -⟩ := h.flush hholds
      rw [Obeys, hflush]

/-- **Every sequence of calls** leaves the text with the records as lines behind it. -/
theorem Transcribes.holds_askAll (h : Transcribes holds) (hholds : holds text appender)
    (calls : List Call) :
    holds (text ++ lines (Call.records calls)) (askAll appender calls) := by
  induction calls generalizing text appender with
  | nil => simpa [lines, Call.records, askAll] using hholds
  | cons call rest ih =>
      cases call with
      | append record =>
          obtain ⟨next, happend, hnext⟩ := h.append hholds record
          have hask : ask appender (.append record) = next := congrArg Prod.snd happend
          have htail := ih hnext
          rw [List.append_assoc] at htail
          rw [askAll, List.foldl_cons, hask]
          exact htail
      | flush =>
          obtain ⟨next, hflush, hnext⟩ := h.flush hholds
          have hask : ask appender .flush = next := congrArg Prod.snd hflush
          rw [askAll, List.foldl_cons, hask]
          exact ih hnext

end Appender

/-! ## The console and the memory -/

theorem Console.transcribes (stream : ConsoleStream) :
    Appender.Transcribes fun text (console : Console) => console = ⟨stream, text⟩ where
  append := by
    rintro text console rfl record
    exact ⟨_, rfl, by rw [List.append_assoc]⟩
  flush := by
    rintro text console rfl
    exact ⟨_, rfl, rfl⟩

theorem Memory.transcribes :
    Appender.Transcribes fun text (memory : Memory) => memory.contents = text where
  append := by
    rintro text memory rfl record
    refine ⟨_, rfl, ?_⟩
    rw [contents, List.flatMap_append, List.flatMap_singleton]
    rfl
  flush := by
    rintro text memory rfl
    exact ⟨_, rfl, rfl⟩

namespace Memory

/-- What may be asked of a memory. -/
inductive Access where
  | append (record : Text)
  | flush
  | take
  deriving DecidableEq, Repr

/-- The records that are handed over by some accesses. -/
def Access.records : List Access → List Text
  | [] => []
  | .append record :: rest => record :: records rest
  | .flush :: rest => records rest
  | .take :: rest => records rest

/-- The lists that are taken by some accesses, in their order, and the memory that is left. -/
def collect (memory : Memory) : List Access → List (List Text) × Memory
  | [] => ([], memory)
  | .append record :: rest => (Appender.append memory record).2.collect rest
  | .flush :: rest => (Appender.flush memory).2.collect rest
  | .take :: rest =>
    let (taken, memory) := memory.take
    let (later, memory) := memory.collect rest
    (taken :: later, memory)

/-- **No record is lost, and none comes twice**: what was taken, and behind it what is still held,
are the records. -/
theorem collect_flatten (memory : Memory) (accesses : List Access) :
    (memory.collect accesses).1.flatten ++ (memory.collect accesses).2.records
      = memory.records ++ Access.records accesses := by
  -- on the accesses, for any memory: behind a `take` the rest begins with the empty one
  induction accesses generalizing memory with
  | nil => simp [collect, Access.records]
  | cons access rest ih =>
      cases access with
      | append record =>
          rw [collect, ih, Access.records]
          exact List.append_assoc memory.records [record] _
      | flush => exact ih memory
      | take =>
          have htail := ih Memory.empty
          rw [collect, Access.records, take, List.flatten_cons, List.append_assoc, htail]
          rfl

end Memory

/-! ## Streams -/

/-- What it means for the destinations of a type never to fail: the sound ones among them stay sound,
take each text whole behind what was delivered to them before, and are flushed without ado. -/
structure Destination.Reliable (δ : Type) [Destination δ] where
  Sound : δ → Prop
  delivered : δ → Text
  write : ∀ {destination}, Sound destination → ∀ text, ∃ next,
    Destination.write destination text = (.ok (), next) ∧ Sound next
      ∧ delivered next = delivered destination ++ text
  flush : ∀ {destination}, Sound destination → ∃ next,
    Destination.flush destination = (.ok (), next) ∧ Sound next
      ∧ delivered next = delivered destination

/-- A collector that refuses nothing never fails. -/
def Collector.reliable : Destination.Reliable Collector where
  Sound collector := collector.refusesWrites = false ∧ collector.refusesFlush = false
  delivered := written
  write := by
    rintro collector ⟨hwrites, hflush⟩ text
    refine ⟨{ collector with written := collector.written ++ text }, ?_, ⟨hwrites, hflush⟩, rfl⟩
    simp [Destination.write, hwrites]
  flush := by
    rintro collector ⟨hwrites, hflush⟩
    refine ⟨collector, ?_, ⟨hwrites, hflush⟩, rfl⟩
    simp [Destination.flush, hflush]

theorem Text.eq_nil_of_byteLength {text : Text} (h : Text.byteLength text = 0) : text = [] := by
  cases text with
  | nil => rfl
  | cons c rest =>
      have hsize := c.utf8Size_pos
      rw [byteLength, List.foldr_cons] at h
      omega

namespace Stream

variable {δ : Type} [Destination δ]

/-- The text that waits in the buffer. -/
def waiting (stream : Stream δ) : Text :=
  stream.buffer.getD []

/-- An open stream of this name, with a buffer or without, to which this text was given since its
destination had the text `before`: part of it has been delivered, and what follows waits. -/
structure Carries (reliable : Destination.Reliable δ) (before : Text) (name : Text)
    (isBuffered : Bool) (text : Text) (stream : Stream δ) : Prop where
  isOpen : stream.isOpen = true
  name_eq : stream.name = name
  isBuffered_eq : stream.buffer.isSome = isBuffered
  sound : reliable.Sound stream.destination
  delivered : ∃ gone, reliable.delivered stream.destination = before ++ gone
    ∧ gone ++ stream.waiting = text

variable {reliable : Destination.Reliable δ} {before name : Text} {isBuffered : Bool} {text : Text}
  {stream : Stream δ}

/-- With nothing waiting, all of the text has been delivered. -/
theorem Carries.delivered_eq (h : Carries reliable before name isBuffered text stream)
    (hempty : stream.waiting = []) : reliable.delivered stream.destination = before ++ text := by
  obtain ⟨gone, hdelivered, rfl⟩ := h.delivered
  rw [hempty, List.append_nil, hdelivered]

theorem carries_unbuffered {start : δ} (hstart : reliable.Sound start) (name : Text) :
    Carries reliable (reliable.delivered start) name false [] (unbuffered name start) :=
  ⟨rfl, rfl, rfl, hstart, [], (List.append_nil _).symm, rfl⟩

theorem carries_buffered {start : δ} (hstart : reliable.Sound start) (name : Text) :
    Carries reliable (reliable.delivered start) name true [] (buffered name start) :=
  ⟨rfl, rfl, rfl, hstart, [], (List.append_nil _).symm, rfl⟩

theorem Carries.waiting_eq_nil (h : Carries reliable before name false text stream) :
    stream.waiting = [] := by
  have hbuffer : stream.buffer = none := by simpa using h.isBuffered_eq
  rw [waiting, hbuffer, Option.getD_none]

theorem writeOut_spec (hsound : reliable.Sound stream.destination) (more : Text) :
    ∃ next, stream.writeOut more = (.ok (), { stream with destination := next })
      ∧ reliable.Sound next
      ∧ reliable.delivered next = reliable.delivered stream.destination ++ more := by
  obtain ⟨next, hwrite, hnext⟩ := reliable.write hsound more
  exact ⟨next, by rw [writeOut, hwrite], hnext⟩

/-- A text may be written past the buffer if nothing waits in it. -/
theorem Carries.writeOut (h : Carries reliable before name isBuffered text stream)
    (hempty : stream.waiting = []) (more : Text) :
    ∃ next, stream.writeOut more = (.ok (), next)
      ∧ Carries reliable before name isBuffered (text ++ more) next := by
  obtain ⟨next, hwrite, hsound, hnext⟩ := writeOut_spec h.sound more
  refine ⟨_, hwrite, h.isOpen, h.name_eq, h.isBuffered_eq, hsound, text ++ more, ?_, ?_⟩
  · rw [hnext, h.delivered_eq hempty, List.append_assoc]
  · exact (congrArg (text ++ more ++ ·) hempty).trans (List.append_nil _)

theorem drain_of_waiting (hempty : stream.waiting = []) : stream.drain = (.ok (), stream) := by
  unfold waiting at hempty
  unfold drain
  cases hbuffer : stream.buffer with
  | none => rfl
  | some waiting =>
      rw [hbuffer, Option.getD_some] at hempty
      rw [hempty]

theorem Carries.drain (h : Carries reliable before name isBuffered text stream) :
    ∃ next, stream.drain = (.ok (), next)
      ∧ Carries reliable before name isBuffered text next ∧ next.waiting = [] := by
  by_cases hempty : stream.waiting = []
  · exact ⟨stream, drain_of_waiting hempty, h, hempty⟩
  · obtain ⟨next, hwrite, hsound, hnext⟩ := writeOut_spec h.sound stream.waiting
    obtain ⟨gone, hgone, htext⟩ := h.delivered
    have hbuffer : stream.buffer = some stream.waiting := by
      cases hbuffer : stream.buffer with
      | none => simp [waiting, hbuffer] at hempty
      | some waiting => simp [Stream.waiting, hbuffer]
    refine ⟨{ stream with buffer := some [], destination := next }, ?_,
      ⟨h.isOpen, h.name_eq, ?_, hsound, text, ?_, ?_⟩, rfl⟩
    · obtain ⟨c, rest, hwaiting⟩ := List.exists_cons_of_ne_nil hempty
      rw [hwaiting] at hbuffer hwrite
      rw [Stream.drain, hbuffer]
      dsimp only
      rw [hwrite]
    · rw [← h.isBuffered_eq, hbuffer]
      rfl
    · rw [hnext, hgone, List.append_assoc, htext]
    · exact List.append_nil text

/-- A text that finds room goes into the buffer. If it alone fills the buffer, nothing may wait. -/
theorem Carries.hold (h : Carries reliable before name true text stream) {more : Text}
    (hroom : stream.waiting = [] ∨ Text.byteLength more < capacity) :
    ∃ next, stream.hold more = (.ok (), next)
      ∧ Carries reliable before name true (text ++ more) next := by
  unfold Stream.hold
  split
  · next hfills =>
    exact h.writeOut (hroom.resolve_right (Nat.not_lt.mpr hfills)) more
  · obtain ⟨gone, hgone, htext⟩ := h.delivered
    refine ⟨_, rfl, h.isOpen, h.name_eq, rfl, h.sound, gone, hgone, ?_⟩
    rw [← htext, List.append_assoc]
    rfl

/-- **A text on its way** is delivered or waits, behind what was given before. -/
theorem Carries.put (h : Carries reliable before name isBuffered text stream) (more : Text) :
    ∃ next, stream.put more = (.ok (), next)
      ∧ Carries reliable before name isBuffered (text ++ more) next := by
  have hkind := h.isBuffered_eq
  unfold Stream.put
  cases hbuffer : stream.buffer with
  | none => exact h.writeOut (by rw [waiting, hbuffer, Option.getD_none]) more
  | some waiting =>
      rw [hbuffer, Option.isSome_some] at hkind
      subst hkind
      dsimp only
      split
      · next hfits =>
        refine h.hold ?_
        rw [Stream.waiting, hbuffer, Option.getD_some]
        -- a text as long as the buffer fits behind nothing only
        by_cases hlong : Text.byteLength more < capacity
        · exact .inr hlong
        · exact .inl (Text.eq_nil_of_byteLength (by omega))
      · obtain ⟨next, hdrain, hnext, hempty⟩ := h.drain
        rw [hdrain]
        exact hnext.hold (.inl hempty)

theorem Carries.flushOut (h : Carries reliable before name isBuffered text stream) :
    ∃ next, stream.flushOut = (.ok (), next)
      ∧ Carries reliable before name isBuffered text next ∧ next.waiting = [] := by
  obtain ⟨drained, hdrain, hdrained, hempty⟩ := h.drain
  obtain ⟨gone, hgone, htext⟩ := hdrained.delivered
  obtain ⟨next, hflush, hsound, hnext⟩ := reliable.flush hdrained.sound
  refine ⟨{ drained with destination := next }, ?_, ⟨hdrained.isOpen, hdrained.name_eq,
    hdrained.isBuffered_eq, hsound, gone, hnext.trans hgone, htext⟩, hempty⟩
  rw [Stream.flushOut, hdrain]
  dsimp only
  rw [hflush]

/-- **A stream transcribes** what it is given, with a buffer or without. -/
theorem transcribes (reliable : Destination.Reliable δ) (before name : Text) (isBuffered : Bool) :
    Appender.Transcribes (Carries reliable before name isBuffered) where
  append := by
    intro text stream h record
    obtain ⟨next, hput, hnext⟩ := h.put (record ++ ['\n'])
    refine ⟨next, ?_, hnext⟩
    change stream.append record = _
    rw [Stream.append, if_pos h.isOpen, hput]
  flush := by
    intro text stream h
    obtain ⟨next, hflush, hnext, -⟩ := h.flushOut
    refine ⟨next, ?_, hnext⟩
    change stream.flush = _
    rw [Stream.flush, if_pos h.isOpen, hflush]
    rfl

/-! ## The end of a stream -/

theorem giveUp_destination (hempty : stream.waiting = []) :
    stream.giveUp.destination = stream.destination := by
  rw [giveUp, drain_of_waiting hempty]

/-- **Nothing waits** in a stream that was flushed, closed or released. -/
theorem Carries.delivered_at_end (h : Carries reliable before name isBuffered text stream) :
    reliable.delivered stream.flush.2.destination = before ++ text
      ∧ stream.close.1 = .ok ()
      ∧ reliable.delivered stream.close.2.destination = before ++ text
      ∧ reliable.delivered (Appender.release stream).destination = before ++ text := by
  obtain ⟨next, hflush, hnext, hempty⟩ := h.flushOut
  have hdelivered := hnext.delivered_eq hempty
  have hrelease : Appender.release stream = stream.release := rfl
  rw [Stream.flush, Stream.close, hrelease, Stream.release, if_pos h.isOpen, if_pos h.isOpen,
    if_pos h.isOpen, hflush]
  refine ⟨hdelivered, rfl, ?_, ?_⟩
  · rw [giveUp_destination hempty, hdelivered]
  · rw [giveUp_destination hempty, hdelivered]

theorem name_drain (stream : Stream δ) : stream.drain.2.name = stream.name := by
  unfold drain
  split
  · rfl
  · rfl
  · next waiting _ _ =>
    have hname : (stream.writeOut waiting).2.name = stream.name := rfl
    split <;> next h =>
      rw [h] at hname
      exact hname

theorem name_flushOut (stream : Stream δ) : stream.flushOut.2.name = stream.name := by
  have hname := stream.name_drain
  unfold flushOut
  split <;> next h =>
    rw [h] at hname
    exact hname

theorem name_close (stream : Stream δ) : stream.close.2.name = stream.name := by
  unfold close
  split
  · exact (name_drain _).trans stream.name_flushOut
  · rfl

theorem isOpen_close (stream : Stream δ) : stream.close.2.isOpen = false := by
  unfold close
  split
  · rfl
  · next h => exact Bool.eq_false_iff.mpr h

/-- **A closed stream** refuses every record, whatever its destination, and has nothing else to do. -/
theorem closed_spec (h : stream.isOpen = false) :
    (∀ record, stream.append record
        = (.refused (.writer (stream.name ++ " appender is closed".toList)), stream))
      ∧ stream.flush = (.ok (), stream)
      ∧ stream.close = (.ok (), stream)
      ∧ Appender.release stream = stream := by
  have hclosed : ¬ stream.isOpen = true := Bool.eq_false_iff.mp h
  refine ⟨fun record => ?_, ?_, ?_, ?_⟩
  · rw [append, if_neg hclosed]
  · rw [flush, if_neg hclosed]
  · rw [close, if_neg hclosed]
  · change stream.release = stream
    rw [release, if_neg hclosed]

end Stream

namespace Appender

variable {δ : Type} [Destination δ]

/-- **All sinks write the same text.** Whatever records and flushes an appender was given, in whatever
order and of whatever length, it takes the next record and the next flush succeeds; what a stream
without a buffer has delivered, what stands on the console and what a memory holds are the records so
far, each with a line feed behind it. What a stream behind a buffer has delivered is the front of that
text, and all of it when the stream is flushed, closed or released. A stream that is closed refuses
each record as a writer, and a flush or another close of it succeeds; from then on it stays as it is.
And however records are taken from a memory in between, the lists that were taken and the records that
are held make up those that came, each once and in order. -/
theorem sinks_write_the_same (reliable : Destination.Reliable δ) {start : δ}
    (hstart : reliable.Sound start) (name : Text) (out : ConsoleStream) (calls : List Call) :
    let text := lines (Call.records calls)
    let before := reliable.delivered start
    let plain := askAll (Stream.unbuffered name start) calls
    let held := askAll (Stream.buffered name start) calls
    let console := askAll (Console.new out) calls
    let memory := askAll Memory.empty calls
    (∀ call, Obeys plain call ∧ Obeys held call ∧ Obeys console call ∧ Obeys memory call)
      ∧ reliable.delivered plain.destination = before ++ text
      ∧ console = ⟨out, text⟩
      ∧ memory.contents = text
      ∧ (∃ gone, gone <+: text ∧ reliable.delivered held.destination = before ++ gone)
      ∧ (∀ stream ∈ [plain, held],
          reliable.delivered stream.flush.2.destination = before ++ text
            ∧ reliable.delivered (release stream).destination = before ++ text
            ∧ stream.close.1 = .ok ()
            ∧ let closed := stream.close.2
              reliable.delivered closed.destination = before ++ text
                ∧ (∀ record, closed.append record
                    = (.refused (.writer (name ++ " appender is closed".toList)), closed))
                ∧ closed.flush = (.ok (), closed)
                ∧ closed.close = (.ok (), closed)
                ∧ release closed = closed
                ∧ ∀ later, askAll closed later = closed)
      ∧ ∀ accesses, (Memory.empty.collect accesses).1.flatten
            ++ (Memory.empty.collect accesses).2.records
          = Memory.Access.records accesses := by
  intro text before plain held console memory
  have hplain : Stream.Carries reliable before name false text plain :=
    (Stream.transcribes reliable before name false).holds_askAll
      (Stream.carries_unbuffered hstart name) calls
  have hheld : Stream.Carries reliable before name true text held :=
    (Stream.transcribes reliable before name true).holds_askAll
      (Stream.carries_buffered hstart name) calls
  have hconsole : console = ⟨out, text⟩ := (Console.transcribes out).holds_askAll rfl calls
  have hmemory : memory.contents = text := Memory.transcribes.holds_askAll rfl calls
  refine ⟨fun call => ⟨(Stream.transcribes _ _ _ _).obeys hplain call,
      (Stream.transcribes _ _ _ _).obeys hheld call, (Console.transcribes out).obeys hconsole call,
      Memory.transcribes.obeys hmemory call⟩,
    hplain.delivered_eq hplain.waiting_eq_nil, hconsole, hmemory, ?_, ?_, ?_⟩
  · obtain ⟨gone, hgone, htext⟩ := hheld.delivered
    exact ⟨gone, ⟨held.waiting, htext⟩, hgone⟩
  · intro stream hmem
    obtain ⟨isBuffered, hcarries⟩ :
        ∃ isBuffered, Stream.Carries reliable before name isBuffered text stream := by
      rcases List.mem_pair.mp hmem with rfl | rfl
      · exact ⟨false, hplain⟩
      · exact ⟨true, hheld⟩
    obtain ⟨hflush, hclose, hclosed, hrelease⟩ := hcarries.delivered_at_end
    obtain ⟨happend, hflushed, hagain, hreleased⟩ := Stream.closed_spec stream.isOpen_close
    rw [stream.name_close, hcarries.name_eq] at happend
    refine ⟨hflush, hrelease, hclose, hclosed, happend, hflushed, hagain, hreleased, fun later => ?_⟩
    refine List.foldl_fixed' (fun call => ?_) later
    cases call with
    | append record => exact congrArg Prod.snd (happend record)
    | flush =>
        change stream.close.2.flush.2 = stream.close.2
        rw [hflushed]
  · exact fun accesses => Memory.empty.collect_flatten accesses

/-- A flush between two records, on the collector. -/
theorem sinks_write_the_same_collected :
    Collector.reliable.Sound Collector.empty
      ∧ lines (Call.records [.append "a".toList, .flush, .append "b".toList]) = "a\nb\n".toList
      ∧ (askAll (Stream.unbuffered Stream.defaultName Collector.empty)
            [.append "a".toList, .flush, .append "b".toList]).destination.written
          = "a\nb\n".toList
      ∧ (askAll (Stream.buffered Stream.defaultName Collector.empty)
            [.append "a".toList, .flush, .append "b".toList]).destination.written
          = "a\n".toList
      ∧ ((askAll (Stream.buffered Stream.defaultName Collector.empty)
            [.append "a".toList, .flush, .append "b".toList]).close.2.append "c".toList).1
          = .refused (.writer "stream appender is closed".toList) := by
  have hsound : Collector.reliable.Sound Collector.empty := ⟨rfl, rfl⟩
  obtain ⟨-, hplain, -, -, -, hends, -⟩ :=
    sinks_write_the_same Collector.reliable hsound Stream.defaultName .standardError
      [.append "a".toList, .flush, .append "b".toList]
  obtain ⟨-, -, -, -, happend, -⟩ := hends _ (List.mem_pair.mpr (.inr rfl))
  refine ⟨hsound, by decide, hplain, by decide +kernel, ?_⟩
  rw [happend]
  decide

end Appender

end Logbook
