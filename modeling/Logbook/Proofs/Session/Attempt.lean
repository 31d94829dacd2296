import Logbook.Appender.Trial
import Logbook.Attempt
import Logbook.Proofs.Session.Run
import Mathlib.Data.List.Chain

/-!
# Logbook — runs on an error stream

On an error stream that takes every line the calls of a session do what `Session.perform` says. On
any other they follow it up to the first notice that is refused. What is lost then is a logger that
was about to be made or a mute that was being made; an appender is never behind.

* **`Destination.Refuses`**, **`Destination.TakesAll`** — a stream that refuses one of some notices,
  and one that never refuses; `post_ne_none_iff` and `post_of_takesAll` say what becomes of notices
  there.
* **`Attempt.Follows`** — an attempt against the step that it attempts, with one lemma for each way
  to put attempts together.
* **`Session.attempt`**, **`Session.attempt_follows`** — an operation on an error stream.
* **`Session.calls`**, **`Session.left`** — the calls of a run, each with the error stream that it
  finds and going on from what the last one left; `calls_of_takesAll` says when they are a run, and
  `pairwise_grows_registriesOn` that the registry only grows, whatever breaks off.
-/

namespace Logbook

/-! ## Notices on a stream -/

namespace Destination

variable {δ : Type} [Destination δ]

/-- The stream after some texts, whatever it made of them. -/
def after (stream : δ) (texts : List Text) : δ :=
  texts.foldl (fun stream text => (write stream text).2) stream

/-- The stream takes every text, whatever was written before. -/
def TakesAll (stream : δ) : Prop :=
  ∀ texts text, (write (after stream texts) text).1 = .ok ()

/-- The stream refuses the line of one of the notices when it comes to it. -/
def Refuses (stream : δ) (notices : List Notice) : Prop :=
  ∃ earlier notice rest, notices = earlier ++ notice :: rest
    ∧ (write (after stream (earlier.map Notice.line)) notice.line).1 ≠ .ok ()

theorem TakesAll.after {stream : δ} (h : TakesAll stream) (texts : List Text) :
    TakesAll (after stream texts) := by
  intro more text
  have hboth := h (texts ++ more) text
  rwa [Destination.after, List.foldl_append] at hboth

theorem not_refuses_nil (stream : δ) : ¬ Refuses stream [] := by
  rintro ⟨earlier, notice, rest, hnil, -⟩
  exact List.append_ne_nil_of_right_ne_nil _ (List.cons_ne_nil _ _) hnil.symm

theorem refuses_cons_iff {stream : δ} {notice : Notice} {rest : List Notice} :
    Refuses stream (notice :: rest)
      ↔ (write stream notice.line).1 ≠ .ok () ∨ Refuses (write stream notice.line).2 rest := by
  constructor
  · rintro ⟨earlier, refused, behind, hsplit, hrefused⟩
    cases earlier with
    | nil =>
        obtain ⟨rfl, -⟩ := List.cons.inj hsplit
        exact .inl hrefused
    | cons first earlier =>
        obtain ⟨rfl, rfl⟩ := List.cons.inj hsplit
        exact .inr ⟨earlier, refused, behind, rfl, hrefused⟩
  · rintro (hrefused | ⟨earlier, refused, behind, rfl, hrefused⟩)
    · exact ⟨[], notice, rest, rfl, hrefused⟩
    · exact ⟨notice :: earlier, refused, behind, rfl, hrefused⟩

/-- **Posting breaks off just if a notice is refused.** -/
theorem post_ne_none_iff {stream : δ} {notices : List Notice} :
    (post stream notices).1 ≠ none ↔ Refuses stream notices := by
  induction notices generalizing stream with
  | nil => exact iff_of_false (fun h => h rfl) (not_refuses_nil stream)
  | cons notice rest ih =>
      rw [refuses_cons_iff, post]
      rcases hwrite : write stream notice.line with ⟨outcome, next⟩
      cases outcome with
      | ok _ => simp [ih]
      | error reason => simp

/-- A stream that takes every text has the lines of the notices in the end. -/
theorem post_of_takesAll {stream : δ} (h : TakesAll stream) (notices : List Notice) :
    post stream notices = (none, after stream (notices.map Notice.line)) := by
  induction notices generalizing stream with
  | nil => rfl
  | cons notice rest ih =>
      have htaken : (write stream notice.line).1 = .ok () := h [] _
      have hrest := ih (h.after [notice.line])
      rw [post]
      rcases hwrite : write stream notice.line with ⟨outcome, next⟩
      rw [hwrite] at htaken
      subst htaken
      have hnext : after stream [notice.line] = next := congrArg Prod.snd hwrite
      rw [hnext] at hrest
      rw [List.map_cons, after, List.foldl_cons, hwrite]
      exact hrest

theorem post_append (stream : δ) (notices more : List Notice) :
    post stream (notices ++ more)
      = match post stream notices with
        | (none, stream) => post stream more
        | (some breakdown, stream) => (some breakdown, stream) := by
  induction notices generalizing stream with
  | nil => rfl
  | cons notice rest ih =>
      rw [List.cons_append, post, post]
      rcases write stream notice.line with ⟨outcome, next⟩
      cases outcome with
      | ok _ => exact ih next
      | error reason => rfl

end Destination

theorem Collector.refuses {collector : Collector} (h : collector.refusesWrites = true)
    (text : Text) : (Destination.write collector text).1 ≠ .ok () := by
  have hwrite : Destination.write collector text = (.error "pipe closed".toList, collector) :=
    if_pos h
  rw [hwrite]
  nofun

/-- A collector that was not told to refuse takes every text. -/
theorem Collector.takesAll {collector : Collector} (h : collector.refusesWrites = false) :
    Destination.TakesAll collector := by
  intro texts text
  induction texts generalizing collector with
  | nil =>
      show (if collector.refusesWrites then _ else _ : Except Text Unit × Collector).1 = _
      rw [if_neg (Bool.eq_false_iff.mp h)]
  | cons first rest ih =>
      have hwrite : Destination.write collector first
          = (.ok (), { collector with written := collector.written ++ first }) :=
        if_neg (Bool.eq_false_iff.mp h)
      rw [Destination.after, List.foldl_cons, hwrite]
      exact ih h

/-! ## Attempts against steps -/

namespace Attempt

open Destination

variable {δ σ τ ι : Type} [Destination δ]

/-- The attempt posts the notices of the step and breaks off where one is refused. If none is, it
ends where the step does, and otherwise with something of which `p` holds. -/
structure Follows (attempt : Attempt δ σ) (stream : δ) (step : Reported σ) (p : σ → Prop) :
    Prop where
  posted : post stream step.notices = (attempt.breakdown?, attempt.stream)
  finished : attempt.breakdown? = none → attempt.state = step.value
  givenUp : attempt.breakdown? ≠ none → p attempt.state

variable {stream : δ} {p : σ → Prop}

theorem follows_ofReported (step : Reported σ) {left : σ} (hleft : p left) :
    (ofReported stream step left).Follows stream step p := by
  unfold ofReported
  rcases hpost : post stream step.notices with ⟨_ | breakdown, next⟩
  · exact ⟨hpost, fun _ => rfl, fun h => absurd rfl h⟩
  · exact ⟨hpost, nofun, fun _ => hleft⟩

theorem Follows.andThen {attempt : Attempt δ σ} {step : Reported σ}
    (h : attempt.Follows stream step p) {f : σ → δ → Attempt δ σ} {g : σ → Reported σ}
    (hf : attempt.breakdown? = none →
      (f step.value attempt.stream).Follows attempt.stream (g step.value) p) :
    (attempt.andThen f).Follows stream (step >>= g) p := by
  obtain ⟨hposted, hfinished, hgivenUp⟩ := h
  rcases attempt with ⟨_ | breakdown, state, next⟩
  · -- the second attempt goes on where the first one has ended
    have hstate : state = step.value := hfinished rfl
    subst hstate
    obtain ⟨hsecond, hdone, hlost⟩ := hf rfl
    refine ⟨?_, hdone, hlost⟩
    rw [Reported.notices_bind, post_append, hposted]
    exact hsecond
  · refine ⟨?_, nofun, hgivenUp⟩
    rw [Reported.notices_bind, post_append, hposted]
    rfl

/-- Steps that each keep `p`, and that are each followed, are followed all together. -/
theorem follows_all {attemptOne : σ → δ → ι → Attempt δ σ} {step : σ → ι → Reported σ}
    (hstep : ∀ state item, p state → p (step state item).value)
    (hone : ∀ state stream item, p state →
      (attemptOne state stream item).Follows stream (step state item) p)
    (items : List ι) {state : σ} (hstate : p state) (stream : δ) :
    (all attemptOne state stream items).Follows stream (items.foldlM step state) p := by
  induction items generalizing state stream with
  | nil => exact ⟨rfl, fun _ => rfl, fun h => absurd rfl h⟩
  | cons item rest ih =>
      rw [List.foldlM_cons]
      exact (hone state stream item hstate).andThen fun _ =>
        ih (hstep state item hstate) _

theorem Follows.close {attempt : Attempt δ σ} {step : Reported σ}
    (h : attempt.Follows stream step p) (finish : σ → τ) {giveUp : σ → τ} {q : τ → Prop}
    (hq : ∀ state, p state → q (giveUp state)) :
    (attempt.close finish giveUp).Follows stream (finish <$> step) q := by
  obtain ⟨hposted, hfinished, hgivenUp⟩ := h
  have hnotices : (finish <$> step).notices = step.notices := by
    rw [map_eq_pure_bind, Reported.notices_bind, Reported.notices_pure, List.append_nil]
  rcases attempt with ⟨_ | breakdown, state, next⟩
  · refine ⟨by rw [hnotices, hposted]; rfl, fun _ => ?_, fun hbroken => absurd rfl hbroken⟩
    exact congrArg finish (hfinished rfl)
  · exact ⟨by rw [hnotices, hposted]; rfl, nofun, fun _ => hq state (hgivenUp nofun)⟩

end Attempt

/-! ## Registries -/

section Registry

variable {δ : Type} [Destination δ] {base : Registry}

theorem Registry.attemptObtainAll_follows {registry : Registry} (hbase : base.Grows registry)
    (stream : δ) (names : List Text) :
    (registry.attemptObtainAll stream names).Follows stream (registry.obtainAll names)
      base.Grows := by
  refine Attempt.follows_all (fun now name hnow => ?_) (fun now stream name hnow => ?_) names hbase
    stream
  · exact hnow.trans (now.meets_obtain name).value
  · exact Attempt.follows_ofReported _ hnow

theorem Registry.attemptVisit_follows (registry : Registry) (stream : δ) (parent : Text)
    (asks : Registry → Handle → List Text) :
    (registry.attemptVisit stream parent asks).Follows stream
      (registry.visitDescendants parent fun handle now => now.obtainAll (asks now handle))
      registry.Grows := by
  refine Attempt.follows_all (fun now handle hnow => ?_) (fun now stream handle hnow => ?_) _
    (Registry.Grows.refl registry) stream
  · exact hnow.trans (now.meets_obtainAll (asks now handle)).value
  · exact Registry.attemptObtainAll_follows hnow stream (asks now handle)

theorem Mute.attemptNames_follows (registry : Registry) (stream : δ) (names : List Text) :
    (Mute.attemptNames registry stream names).Follows stream (Mute.ofNames registry names)
      fun made => registry.Grows made.2 := by
  refine Attempt.follows_all (fun made name hmade => ?_) (fun made stream name hmade => ?_) names
    ?_ stream
  · exact hmade.trans (Mute.meets_addTree made.1 made.2 name).value
  · exact Attempt.follows_ofReported _ hmade
  · exact Registry.Grows.refl registry

end Registry

/-! ## Sessions -/

namespace Session

variable {α δ : Type} [CivilTime] [Appender α] [Destination δ]

/-- The session after an operation on an error stream. -/
def attempt (session : Session α) (stream : δ) : Operation → Attempt δ (Session α)
  | .obtain name =>
    (session.registry.attemptObtainAll stream [name]).close session.withRegistry
      session.withRegistry
  | .visit parent asks =>
    (session.registry.attemptVisit stream parent asks).close session.withRegistry
      session.withRegistry
  | .mute label names => session.attemptMute stream label names
  -- the others leave no notices, or leave them when everything is done
  | operation =>
    let next := session.perform operation
    .ofReported stream next next.value

/-- What is left of a session by an operation, whether or not it breaks off. -/
inductive Leaves (session : Session α) (operation : Operation) (next : Session α) : Prop where
  /-- Something that a clerical operation came to on its way. -/
  | kept (hclerical : operation.event? = none) (hkeeps : session.Keeps next)
  /-- All that the operation does: a record has been handed over before there is a notice. -/
  | done (hdone : next = (session.perform operation).value)

theorem attempt_obtain_follows (session : Session α) (stream : δ) (name : Text) :
    (session.attempt stream (.obtain name)).Follows stream (session.perform (.obtain name))
      (session.Leaves (.obtain name)) := by
  have hgivenUp : ∀ registry, session.registry.Grows registry →
      session.Leaves (.obtain name) (session.withRegistry registry) :=
    fun _ hgrows => .kept rfl (keeps_withRegistry hgrows)
  have hsame : session.perform (.obtain name)
      = session.withRegistry <$> session.registry.obtainAll [name] := by
    simp [perform, Backend.logger, Registry.obtainAll, withRegistry, registry]
  rw [hsame]
  exact (Registry.attemptObtainAll_follows (Registry.Grows.refl session.registry) stream
    [name]).close session.withRegistry hgivenUp

theorem attempt_visit_follows (session : Session α) (stream : δ) (parent : Text)
    (asks : Registry → Handle → List Text) :
    (session.attempt stream (.visit parent asks)).Follows stream
      (session.perform (.visit parent asks)) (session.Leaves (.visit parent asks)) := by
  have hgivenUp : ∀ registry, session.registry.Grows registry →
      session.Leaves (.visit parent asks) (session.withRegistry registry) :=
    fun _ hgrows => .kept rfl (keeps_withRegistry hgrows)
  have hvisit := (session.registry.attemptVisit_follows stream parent asks).close
    session.withRegistry hgivenUp
  rw [map_eq_pure_bind] at hvisit
  exact hvisit

theorem attempt_mute_follows (session : Session α) (stream : δ) (label : Text)
    (names : List Text) :
    (session.attempt stream (.mute label names)).Follows stream
      (session.perform (.mute label names)) (session.Leaves (.mute label names)) := by
  have hgivenUp : ∀ made : Mute × Registry, session.registry.Grows made.2 →
      session.Leaves (.mute label names) (session.withRegistry (made.1.drop made.2)) :=
    fun made hmade => .kept rfl (keeps_withRegistry (hmade.trans (made.1.grows_drop made.2)))
  have hsame : session.perform (.mute label names)
      = session.hold label <$> Mute.ofNames session.registry names := by
    simp only [perform, Session.mute, Backend.mute, map_eq_pure_bind, bind_assoc, pure_bind]
    rfl
  rw [hsame]
  exact (Mute.attemptNames_follows session.registry stream names).close (session.hold label)
    hgivenUp

/-- **An operation on an error stream** posts its notices, and goes through if they are taken. -/
theorem attempt_follows (session : Session α) (stream : δ) (operation : Operation) :
    (session.attempt stream operation).Follows stream (session.perform operation)
      (session.Leaves operation) := by
  have hlast : (Attempt.ofReported stream (session.perform operation)
      (session.perform operation).value).Follows stream (session.perform operation)
        (session.Leaves operation) :=
    Attempt.follows_ofReported _ (.done rfl)
  cases operation with
  | obtain name => exact session.attempt_obtain_follows stream name
  | visit parent asks => exact session.attempt_visit_follows stream parent asks
  | mute label names => exact session.attempt_mute_follows stream label names
  | replaceSettings _ | setHidesStacks _ _ | unmute _ | log _ _ | emit _ _ => exact hlast

theorem attempt_leaves (session : Session α) (stream : δ) (operation : Operation) :
    session.Leaves operation (session.attempt stream operation).state := by
  have hfollows := session.attempt_follows stream operation
  by_cases hdone : (session.attempt stream operation).breakdown? = none
  · rw [hfollows.finished hdone]
    exact .done rfl
  · exact hfollows.givenUp hdone

theorem grows_attempt (session : Session α) (stream : δ) (operation : Operation) :
    session.registry.Grows (session.attempt stream operation).state.registry := by
  cases session.attempt_leaves stream operation with
  | kept _ hkeeps => exact hkeeps.grows
  | done hdone =>
      rw [hdone]
      exact session.grows_perform operation

open Destination in
theorem attempt_of_takesAll (session : Session α) {stream : δ} (h : TakesAll stream)
    (operation : Operation) :
    session.attempt stream operation
      = ⟨none, (session.perform operation).value,
          after stream ((session.perform operation).notices.map Notice.line)⟩ := by
  obtain ⟨hposted, hfinished, -⟩ := session.attempt_follows stream operation
  rw [post_of_takesAll h, Prod.mk.injEq] at hposted
  obtain ⟨hdone, hstream⟩ := hposted
  rw [hstream, ← hfinished hdone.symm, hdone]

end Session

/-! ## Calls one after the other -/

/-- A call: an operation, with the session and the error stream that it finds. -/
structure Call (δ α : Type) where
  session : Session α
  stream : δ
  operation : Operation

section

variable {α δ : Type} [CivilTime] [Appender α] [Destination δ]

namespace Call

/-- How the call goes. -/
def attempt (call : Call δ α) : Attempt δ (Session α) :=
  call.session.attempt call.stream call.operation

/-- The notices that the call has to leave. -/
def notices (call : Call δ α) : List Notice :=
  (call.session.perform call.operation).notices

/-- **A call breaks off just if one of its notices is refused.** -/
theorem breakdown?_ne_none_iff (call : Call δ α) :
    call.attempt.breakdown? ≠ none ↔ Destination.Refuses call.stream call.notices := by
  have hposted := (call.session.attempt_follows call.stream call.operation).posted
  rw [← Destination.post_ne_none_iff, notices, hposted]
  rfl

end Call

namespace Session

/-- The calls of a run. Each is given with the error stream as it finds it, since others may write
there in between. A call that breaks off ends itself alone: the next goes on from what it left. -/
def calls (session : Session α) : List (δ × Operation) → List (Call δ α)
  | [] => []
  | (stream, operation) :: rest =>
    ⟨session, stream, operation⟩ :: (session.attempt stream operation).state.calls rest

/-- The session that the calls of a run leave. -/
def left (session : Session α) : List (δ × Operation) → Session α
  | [] => session
  | (stream, operation) :: rest => (session.attempt stream operation).state.left rest

/-- The registry at every point of the calls of a run: before the first one and after each. -/
def registriesOn (session : Session α) (turns : List (δ × Operation)) : List Registry :=
  (session.calls turns).map (·.session.registry) ++ [(session.left turns).registry]

theorem registriesOn_cons (session : Session α) (stream : δ) (operation : Operation)
    (rest : List (δ × Operation)) :
    session.registriesOn ((stream, operation) :: rest)
      = session.registry :: (session.attempt stream operation).state.registriesOn rest := rfl

theorem head?_registriesOn (session : Session α) (turns : List (δ × Operation)) :
    (session.registriesOn turns).head? = some session.registry := by
  cases turns with
  | nil => rfl
  | cons turn rest => rfl

/-- **The registry only grows over the calls**, whatever breaks off. -/
theorem pairwise_grows_registriesOn (session : Session α) (turns : List (δ × Operation)) :
    (session.registriesOn turns).Pairwise Registry.Grows := by
  have : IsTrans Registry Registry.Grows := ⟨fun _ _ _ => Registry.Grows.trans⟩
  rw [← List.isChain_iff_pairwise]
  induction turns generalizing session with
  | nil => exact List.isChain_singleton _
  | cons turn rest ih =>
      obtain ⟨stream, operation⟩ := turn
      rw [registriesOn_cons, List.isChain_cons, head?_registriesOn]
      refine ⟨fun registry hregistry => ?_, ih _⟩
      rw [← Option.some.inj hregistry]
      exact session.grows_attempt stream operation

/-- **On streams that take every line the calls are a run**, and the streams have the notices. -/
theorem calls_of_takesAll (session : Session α) {turns : List (δ × Operation)}
    (htakes : ∀ turn ∈ turns, Destination.TakesAll turn.1) :
    (∀ call ∈ session.calls turns, call.attempt.breakdown? = none
        ∧ call.attempt.stream = Destination.after call.stream (call.notices.map Notice.line))
      ∧ session.left turns = (session.run (turns.map Prod.snd)).value
      ∧ (session.calls turns).flatMap Call.notices = (session.run (turns.map Prod.snd)).notices
      ∧ session.registriesOn turns = session.registries (turns.map Prod.snd) := by
  induction turns generalizing session with
  | nil => exact ⟨fun _ hcall => absurd hcall List.not_mem_nil, rfl, rfl, rfl⟩
  | cons turn rest ih =>
      obtain ⟨stream, operation⟩ := turn
      obtain ⟨hstream, hrest⟩ := List.forall_mem_cons.mp htakes
      have hfirst := session.attempt_of_takesAll hstream operation
      obtain ⟨hcalls, hleft, hnotices, hregistries⟩ := ih (session.perform operation).value hrest
      rw [List.map_cons, run_cons, Reported.value_bind, Reported.notices_bind, registriesOn_cons,
        registries_cons, calls, left, hfirst]
      refine ⟨List.forall_mem_cons.mpr ⟨⟨?_, ?_⟩, hcalls⟩, hleft, ?_, ?_⟩
      · exact congrArg Attempt.breakdown? hfirst
      · exact congrArg Attempt.stream hfirst
      · rw [List.flatMap_cons, hnotices]
        rfl
      · rw [hregistries]

end Session

end

end Logbook
