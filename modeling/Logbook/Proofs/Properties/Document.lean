import Logbook.Proofs.Properties.Spelling
import Mathlib.Data.List.Basic

/-!
# Logbook — every way to write settings down

Any list of entries can be written as a properties text, and in many ways: with lines that say
nothing before, between and behind the entries, either end of a line, blanks around keys and
separators, and each key and value in any of its spellings. Reading gives the list back, whatever the
way.

* **`Properties.Separates`**, **`Properties.EntryLine`**, **`Properties.IdleLine`** — the lines.
* **`Properties.Written`** — the ways of writing a list of entries.
* **`Properties.parse_every_writing`** — the headline. Behind blanks, a separator is never part of
  the value, whatever else may be written there: `mark_behind_gap_is_skipped`.
-/

namespace Logbook

/-- Blanks in front of a text that begins with no blank are all that is trimmed. -/
theorem Text.trimStart_append {blanks text : Text} (hblanks : ∀ c ∈ blanks, Text.isBlank c = true)
    (htext : ∀ c ∈ text.head?, Text.isBlank c = false) : Text.trimStart (blanks ++ text) = text := by
  rw [Text.trimStart, List.dropWhile_append_of_pos hblanks]
  cases text with
  | nil => rfl
  | cons c rest => rw [List.dropWhile_cons_of_neg (by simp [htext c rfl])]

namespace Properties

/-! ## Lines -/

/-- A blank inside a line: a space, a tab, or another blank that has no part in ending a line. -/
def isGap (c : Char) : Bool :=
  Text.isBlank c && c != '\n' && c != '\r'

/-- What may stand for itself at the beginning of a key. -/
def mayOpenKey (c : Char) : Bool :=
  mayBeInKey c && c != '#' && c != '!'

/-- What may stand for itself in a value. -/
def mayBeInValue (_ : Char) : Bool :=
  true

/-- What may stand for itself at the beginning of a value, behind a separator. -/
def mayOpenValue (c : Char) : Bool :=
  !Text.isBlank c

/-- What separates a key from a value, together with the characters that may stand for themselves at
the beginning of the value: an equals sign or a colon, perhaps among blanks; or blanks alone, behind
which `afterGap` has a say in it. -/
inductive Separates (afterGap : Char → Bool) : Text → (Char → Bool) → Prop
  | mark {before after : Text} {c : Char} (hbefore : ∀ d ∈ before, isGap d = true)
      (hmark : c = '=' ∨ c = ':') (hafter : ∀ d ∈ after, isGap d = true) :
      Separates afterGap (before ++ c :: after) mayOpenValue
  | gap {blanks : Text} (hblanks : ∀ d ∈ blanks, isGap d = true) (hsome : blanks ≠ []) :
      Separates afterGap blanks fun c => mayOpenValue c && afterGap c

/-- The lines of an entry: perhaps blanks, its key in some spelling, a separation, and its value in
some spelling. -/
inductive EntryLine (afterGap : Char → Bool) (key value : Text) : Text → Prop
  | mk {indent keySpelled separation valueSpelled : Text} {opens : Char → Bool}
      (hindent : ∀ d ∈ indent, isGap d = true) (hsome : key ≠ [])
      (hkey : Spells mayBeInKey mayOpenKey key keySpelled)
      (hseparation : Separates afterGap separation opens)
      (hvalue : Spells mayBeInValue opens value valueSpelled) :
      EntryLine afterGap key value (indent ++ (keySpelled ++ (separation ++ valueSpelled)))

/-- The lines that say nothing: blank ones, and those that begin with a `#` or a `!` behind blanks.
They may end in any way, with a backslash as well. -/
inductive IdleLine : Text → Prop
  | mk {blanks comment : Text} (hblanks : ∀ d ∈ blanks, Text.isBlank d = true)
      (hcomment : ∀ c ∈ comment.head?, c = '#' ∨ c = '!') (hline : '\n' ∉ blanks ++ comment) :
      IdleLine (blanks ++ comment)

/-- The lines, each with the entries that it stands for: one or none. -/
inductive Line (afterGap : Char → Bool) : List (Text × Text) → Text → Prop
  | idle {line : Text} (hidle : IdleLine line) : Line afterGap [] line
  | entry {key value line : Text} (hentry : EntryLine afterGap key value line) :
      Line afterGap [(key, value)] line

/-- The ways of writing a list of entries: lines that stand for them in this order, each but the last
ended by a line feed or by a carriage return and a line feed. The last one may be empty. -/
inductive Written (afterGap : Char → Bool) : List (Text × Text) → Text → Prop
  | last {entries : List (Text × Text)} {line : Text} (hline : Line afterGap entries line) :
      Written afterGap entries line
  | line {new entries : List (Text × Text)} {line ending rest : Text}
      (hline : Line afterGap new line) (hending : ending ∈ [['\n'], ['\r', '\n']])
      (hrest : Written afterGap entries rest) :
      Written afterGap (new ++ entries) (line ++ (ending ++ rest))

/-! ## Cutting a line in two -/

theorem isBlank_of_isGap {c : Char} (h : isGap c = true) : Text.isBlank c = true := by
  simp only [isGap, Bool.and_eq_true] at h
  exact h.1.1

theorem onLine_of_isGap {c : Char} (h : isGap c = true) : c ∉ ['\n', '\r'] := by
  simp only [isGap, Bool.and_eq_true, bne_iff_ne] at h
  simp [h.1.2, h.2]

theorem ne_of_isBlank {c d : Char} (h : Text.isBlank c = true) (hd : Text.isBlank d = false) :
    c ≠ d := by
  rintro rfl
  rw [h] at hd
  cases hd

theorem not_isSeparator_of_isBlank {c : Char} (h : Text.isBlank c = true) :
    isSeparator c = false := by
  have hequals : c ≠ '=' := ne_of_isBlank h (by decide)
  have hcolon : c ≠ ':' := ne_of_isBlank h (by decide)
  simp [isSeparator, hequals, hcolon]

theorem Separates.ne_nil {afterGap opens : Char → Bool} {separation : Text}
    (h : Separates afterGap separation opens) : separation ≠ [] := by
  cases h with
  | mark _ _ _ => simp
  | gap _ hsome => exact hsome

theorem Separates.plain {afterGap opens : Char → Bool} {separation : Text}
    (h : Separates afterGap separation opens) : ∀ d ∈ separation, d ∉ ['\n', '\r', '\\'] := by
  have hgap : ∀ d, isGap d = true → d ∉ ['\n', '\r', '\\'] := by
    intro d hd hmem
    have hline := onLine_of_isGap hd
    have hslash : d ≠ '\\' := ne_of_isBlank (isBlank_of_isGap hd) (by decide)
    simp only [List.mem_cons, List.not_mem_nil, or_false] at hmem hline
    tauto
  cases h with
  | gap hblanks _ => exact fun d hd => hgap d (hblanks d hd)
  | mark hbefore hmark hafter =>
      refine List.forall_mem_append.mpr ⟨fun d hd => hgap d (hbefore d hd), ?_⟩
      refine List.forall_mem_cons.mpr ⟨?_, fun d hd => hgap d (hafter d hd)⟩
      rcases hmark with rfl | rfl <;> decide

theorem Separates.not_isBlank {afterGap opens : Char → Bool} {separation : Text}
    (h : Separates afterGap separation opens) {c : Char} (hc : c = '\\' ∨ opens c = true) :
    Text.isBlank c = false := by
  rcases hc with rfl | hopens
  · decide
  · cases h with
    | mark _ _ _ => simpa [mayOpenValue] using hopens
    | gap _ _ =>
        simp only [mayOpenValue, Bool.and_eq_true, Bool.not_eq_true'] at hopens
        exact hopens.1

theorem cut_separator {c : Char} (hc : isSeparator c = true) (rest : Text) :
    cut (c :: rest) = ([], Text.trimStart rest) := by
  have hslash : c ≠ '\\' := by
    rintro rfl
    revert hc
    decide
  simp [cut, hslash, hc]

theorem cut_blank {c : Char} (hc : Text.isBlank c = true) (rest : Text) :
    cut (c :: rest) = ([], Text.trimStart (dropSeparator (Text.trimStart rest))) := by
  have hslash : c ≠ '\\' := ne_of_isBlank hc (by decide)
  simp [cut, hslash, hc, not_isSeparator_of_isBlank hc]

/-- **Behind the key, the separation is taken for what it is**, and all of it. -/
theorem Separates.cut_append {opens : Char → Bool} {separation value : Text}
    (h : Separates (fun c => !isSeparator c) separation opens)
    (hvalue : ∀ c ∈ value.head?, c = '\\' ∨ opens c = true) :
    cut (separation ++ value) = ([], value) := by
  have hstart : ∀ c ∈ value.head?, Text.isBlank c = false := fun c hc => h.not_isBlank (hvalue c hc)
  have htrim : ∀ {blanks : Text}, (∀ d ∈ blanks, isGap d = true) →
      Text.trimStart (blanks ++ value) = value := fun hblanks =>
    Text.trimStart_append (fun d hd => isBlank_of_isGap (hblanks d hd)) hstart
  have hkept : Text.trimStart value = value := @htrim [] nofun
  cases h with
  | @mark before after c hbefore hmark hafter =>
      have hsep : isSeparator c = true := by rcases hmark with rfl | rfl <;> decide
      have hc : Text.isBlank c = false := by rcases hmark with rfl | rfl <;> decide
      cases before with
      | nil => rw [List.nil_append, List.cons_append, cut_separator hsep, htrim hafter]
      | cons b blanks =>
          obtain ⟨hb, hblanks⟩ := List.forall_mem_cons.mp hbefore
          have hmarked : Text.trimStart (blanks ++ c :: (after ++ value)) = c :: (after ++ value) :=
            Text.trimStart_append (fun d hd => isBlank_of_isGap (hblanks d hd)) (by simp [hc])
          rw [List.cons_append, List.cons_append, List.append_assoc, List.cons_append,
            cut_blank (isBlank_of_isGap hb), hmarked, dropSeparator, if_pos hsep, htrim hafter]
  | gap hblanks hsome =>
      -- the value begins with no separator, so none is dropped
      have hdrop : dropSeparator value = value := by
        cases value with
        | nil => rfl
        | cons c rest =>
            have hsep : isSeparator c = false := by
              rcases hvalue c rfl with rfl | hopens
              · decide
              · simp only [Bool.and_eq_true, Bool.not_eq_true'] at hopens
                exact hopens.2
            rw [dropSeparator, hsep]
            rfl
      cases separation with
      | nil => exact absurd rfl hsome
      | cons b blanks =>
          obtain ⟨hb, hblanks⟩ := List.forall_mem_cons.mp hblanks
          rw [List.cons_append, cut_blank (isBlank_of_isGap hb), htrim hblanks, hdrop, hkept]

/-! ## Reading a line -/

theorem mayBeInKey_of_mayOpenKey {c : Char} (h : mayOpenKey c = true) : mayBeInKey c = true := by
  simp only [mayOpenKey, Bool.and_eq_true] at h
  exact h.1.1

/-- A key shows at its first character that its line is neither blank nor a comment. -/
theorem not_isIgnored_of_opens {c : Char} (h : c = '\\' ∨ mayOpenKey c = true) :
    Text.isBlank c = false ∧ ∀ rest, isIgnored (c :: rest) = false := by
  rcases h with rfl | hopens
  · exact ⟨by decide, fun _ => rfl⟩
  · simp only [mayOpenKey, mayBeInKey, Bool.and_eq_true, Bool.not_eq_true', bne_iff_ne] at hopens
    exact ⟨hopens.1.1.1, fun _ => by simp [isIgnored, hopens.1.2, hopens.2]⟩

/-- **A line of an entry is read as the entry.** Behind its indentation it is neither a comment nor
blank, it goes on in no other line, and it is cut where its key ends. -/
theorem EntryLine.reads {key value line : Text}
    (h : EntryLine (fun c => !isSeparator c) key value line) :
    isIgnored (Text.trimStart line) = false ∧ isContinued (Text.trimStart line) = false
      ∧ entry? (Text.trimStart line) = some (key, value) := by
  obtain @⟨indent, keySpelled, separation, valueSpelled, opens, hindent, hsome, hkey, hseparation,
    hvalue⟩ := h
  have hbegins : ∃ d rest, keySpelled = d :: rest ∧ (d = '\\' ∨ mayOpenKey d = true) := by
    obtain ⟨c, text, rfl⟩ := List.exists_cons_of_ne_nil hsome
    exact hkey.head
  obtain ⟨d, rest, hspelled, hopens⟩ := hbegins
  obtain ⟨hblank, hignored⟩ := not_isIgnored_of_opens hopens
  have htrim : Text.trimStart (indent ++ (keySpelled ++ (separation ++ valueSpelled)))
      = keySpelled ++ (separation ++ valueSpelled) :=
    Text.trimStart_append (fun c hc => isBlank_of_isGap (hindent c hc))
      (by simp [hspelled, hblank])
  rw [htrim]
  refine ⟨?_, ?_, ?_⟩
  · rw [hspelled, List.cons_append, hignored]
  · -- no backslash of the whole line is left without a character to protect
    have hkeySettled : Settled (fun _ => true) keySpelled :=
      hkey.settled (fun _ _ => rfl) (fun _ _ => rfl) (fun _ _ _ => rfl)
    have hseparationSettled : Settled (fun _ => true) separation :=
      settled_of_forall fun c hc => ⟨rfl, fun hslash => hseparation.plain c hc (by simp [hslash])⟩
    have hvalueSettled : Settled (fun _ => true) valueSpelled :=
      hvalue.settled (fun _ _ => rfl) (fun _ _ => rfl) (fun _ _ _ => rfl)
    have hsettled := hkeySettled.append (hseparationSettled.append hvalueSettled)
    have hcontinued : isContinued ([] ++ (keySpelled ++ (separation ++ valueSpelled))) = false :=
      hsettled.not_isContinued rfl
    exact hcontinued
  · -- in the key nothing that would end it stands for itself
    have hkeySettled : Settled mayBeInKey keySpelled :=
      hkey.settled (fun _ h => h) (fun _ => mayBeInKey_of_mayOpenKey) (fun _ _ h => h.mayBeInKey)
    have hcut : cut (keySpelled ++ (separation ++ valueSpelled)) = (keySpelled, valueSpelled) := by
      rw [hkeySettled.cut_append, hseparation.cut_append hvalue.of_head?, List.append_nil]
    simp [hcut, entry?, unescape_spells hkey, unescape_spells hvalue, hsome]

theorem EntryLine.onLine {afterGap : Char → Bool} {key value line : Text}
    (h : EntryLine afterGap key value line) : line ≠ [] ∧ ∀ c ∈ line, c ∉ ['\n', '\r'] := by
  obtain @⟨indent, keySpelled, separation, valueSpelled, opens, hindent, hsome, hkey, hseparation,
    hvalue⟩ := h
  refine ⟨by simp [hseparation.ne_nil], ?_⟩
  refine List.forall_mem_append.mpr ⟨fun c hc => onLine_of_isGap (hindent c hc), ?_⟩
  refine List.forall_mem_append.mpr ⟨hkey.onLine, ?_⟩
  refine List.forall_mem_append.mpr ⟨fun c hc hmem => ?_, hvalue.onLine⟩
  refine hseparation.plain c hc ?_
  simp only [List.mem_cons, List.not_mem_nil, or_false] at hmem ⊢
  tauto

/-- **An idle line is ignored.** -/
theorem IdleLine.isIgnored {line : Text} (h : IdleLine line) :
    Properties.isIgnored (Text.trimStart line) = true := by
  obtain @⟨blanks, comment, hblanks, hcomment, -⟩ := h
  have hstart : ∀ c ∈ comment.head?, Text.isBlank c = false := by
    intro c hc
    rcases hcomment c hc with rfl | rfl <;> decide
  rw [Text.trimStart_append hblanks hstart]
  cases comment with
  | nil => rfl
  | cons c rest => rcases hcomment c rfl with rfl | rfl <;> rfl

/-! ## Reading lines -/

theorem Line.onLine {afterGap : Char → Bool} {entries : List (Text × Text)} {line : Text}
    (h : Line afterGap entries line) : '\n' ∉ line := by
  cases h with
  | idle hidle =>
      cases hidle with
      | mk _ _ hline => exact hline
  | entry hentry => exact fun hmem => hentry.onLine.2 _ hmem (by decide)

theorem Line.eq_nil {afterGap : Char → Bool} {entries : List (Text × Text)}
    (h : Line afterGap entries []) : entries = [] := by
  cases h with
  | idle _ => rfl
  | entry hentry => exact absurd rfl hentry.onLine.1

/-- **What a line stands for comes in front of what the later lines stand for.** -/
theorem Line.parse_cons {entries : List (Text × Text)} {line : Text}
    (h : Line (fun c => !isSeparator c) entries line) (rest : List Text) :
    (logicalLines [] (line :: rest)).filterMap entry?
      = entries ++ (logicalLines [] rest).filterMap entry? := by
  cases h with
  | idle hidle => simp [logicalLines, hidle.isIgnored]
  | entry hentry =>
      obtain ⟨hignored, hcontinued, hentry⟩ := hentry.reads
      simp [logicalLines, hignored, hcontinued, hentry]

theorem IdleLine.of_concat_return {line : Text} (h : IdleLine (line ++ ['\r'])) : IdleLine line := by
  generalize hwhole : line ++ ['\r'] = whole at h
  cases h with
  | @mk blanks comment hblanks hcomment hline =>
      have hmem : '\n' ∉ line := fun hmem => hline (by rw [← hwhole]; exact List.mem_append_left _ hmem)
      rcases List.eq_nil_or_concat' comment with rfl | ⟨front, c, rfl⟩
      · -- the line is blank, and so it is without its last character
        rw [List.append_nil] at hwhole
        have hblank : ∀ d ∈ line, Text.isBlank d = true := fun d hd =>
          hblanks d (by rw [← hwhole]; exact List.mem_append_left _ hd)
        rw [← List.append_nil line] at hmem ⊢
        exact .mk hblank nofun hmem
      · rw [← List.append_assoc] at hwhole
        obtain ⟨rfl, -⟩ := List.append_inj' hwhole rfl
        refine .mk hblanks (fun d hd => hcomment d ?_) hmem
        cases front with
        | nil => cases hd
        | cons e front => exact hd

theorem Line.of_concat_return {afterGap : Char → Bool} {entries : List (Text × Text)} {line : Text}
    (h : Line afterGap entries (line ++ ['\r'])) : Line afterGap entries line := by
  cases h with
  | idle hidle => exact .idle hidle.of_concat_return
  | entry hentry => exact absurd (hentry.onLine.2 '\r' (by simp)) (by decide)

theorem lines_cons {c : Char} {rest first : Text} {others : List Text} (hc : c ≠ '\n')
    (hreturn : c = '\r' → rest.head? ≠ some '\n') (hrest : lines rest = first :: others) :
    lines (c :: rest) = (c :: first) :: others := by
  have hnot : ∀ later, c = '\r' → rest = '\n' :: later → False := by
    rintro later hr rfl
    exact hreturn hr rfl
  rw [lines, hrest]
  · exact hc
  · exact hnot

/-- **A line is read up to its end**, whatever comes behind. A carriage return in front of the line
feed belongs to the end. -/
theorem lines_line {line ending : Text} (hline : '\n' ∉ line)
    (hending : ending = ['\n'] ∧ line.getLast? ≠ some '\r' ∨ ending = ['\r', '\n']) (rest : Text) :
    lines (line ++ (ending ++ rest)) = line :: lines rest := by
  induction line with
  | nil => rcases hending with ⟨rfl, -⟩ | rfl <;> simp [lines]
  | cons c line ih =>
      rw [List.mem_cons, not_or] at hline
      have hc : c ≠ '\n' := Ne.symm hline.1
      cases line with
      | nil =>
          refine lines_cons hc ?_ (ih hline.2 ?_)
          · rcases hending with ⟨rfl, hlast⟩ | rfl
            · rintro rfl
              exact absurd rfl hlast
            · simp
          · exact hending.imp_left fun ⟨hending, _⟩ => ⟨hending, by simp⟩
      | cons d line =>
          refine lines_cons hc ?_ (ih hline.2 ?_)
          · rintro - hhead
            cases hhead
            exact hline.2 List.mem_cons_self
          · simpa [List.getLast?_cons_cons] using hending

/-- A line is read up to its end, or up to a carriage return that stands there by itself. -/
theorem lines_append {line ending : Text} (hline : '\n' ∉ line)
    (hending : ending ∈ [['\n'], ['\r', '\n']]) (rest : Text) :
    ∃ read, lines (line ++ (ending ++ rest)) = read :: lines rest
      ∧ (line = read ∨ line = read ++ ['\r']) := by
  have hcases : ending = ['\n'] ∨ ending = ['\r', '\n'] := by simpa using hending
  rcases hcases with rfl | rfl
  · by_cases hreturn : line.getLast? = some '\r'
    · -- the carriage return counts as part of the ending
      obtain ⟨read, rfl⟩ := List.getLast?_eq_some_iff.mp hreturn
      have hread : '\n' ∉ read := fun hmem => hline (List.mem_append_left _ hmem)
      refine ⟨read, ?_, .inr rfl⟩
      simpa using lines_line hread (.inr rfl) rest
    · exact ⟨line, lines_line hline (.inl ⟨rfl, hreturn⟩) rest, .inl rfl⟩
  · exact ⟨line, lines_line hline (.inr rfl) rest, .inl rfl⟩

theorem lines_last {line : Text} (hline : '\n' ∉ line) (hsome : line ≠ []) : lines line = [line] := by
  induction line with
  | nil => exact absurd rfl hsome
  | cons c line ih =>
      rw [List.mem_cons, not_or] at hline
      have hc : c ≠ '\n' := Ne.symm hline.1
      cases line with
      | nil =>
          rw [lines, lines]
          · exact hc
          · exact nofun
      | cons d line =>
          refine lines_cons hc (fun _ hhead => ?_) (ih hline.2 (List.cons_ne_nil d line))
          cases hhead
          exact hline.2 List.mem_cons_self

/-- **Whatever is written is read.** -/
theorem parse_written {entries : List (Text × Text)} {text : Text}
    (h : Written (fun c => !isSeparator c) entries text) : parse text = entries := by
  induction h with
  | @last entries line hline =>
      rcases List.eq_nil_or_concat line with rfl | ⟨_, _, hsome⟩
      · rw [hline.eq_nil]
        rfl
      · have hread := hline.parse_cons []
        rw [parse, lines_last hline.onLine (by simp [hsome]), hread]
        simp [logicalLines]
  | @line new entries line ending rest hline hending _ ih =>
      obtain ⟨read, hlines, hread⟩ := lines_append hline.onLine hending rest
      have hreadLine : Line (fun c => !isSeparator c) new read := by
        rcases hread with rfl | rfl
        · exact hline
        · exact hline.of_concat_return
      rw [parse, hlines, hreadLine.parse_cons, ← ih, parse]

/-! ## Writing -/

/-- One way of writing a list of entries: a line for each. -/
def write (entries : List (Text × Text)) : Text :=
  entries.flatMap fun entry => spell entry.1 ++ ('=' :: spell entry.2) ++ ['\n']

theorem entryLine_spell {afterGap : Char → Bool} {key : Text} (hkey : key ≠ []) (value : Text) :
    EntryLine afterGap key value (spell key ++ ('=' :: spell value)) := by
  have hseparation : Separates afterGap ([] ++ '=' :: []) mayOpenValue := .mark nofun (.inl rfl) nofun
  have hkeySpelled : Spells mayBeInKey mayOpenKey key (spell key) :=
    spells_spell (by decide) (by decide) key
  have hvalueSpelled : Spells mayBeInValue mayOpenValue value (spell value) :=
    spells_spell (by decide) (by decide) value
  exact @EntryLine.mk _ _ _ [] _ _ _ _ nofun hkey hkeySpelled hseparation hvalueSpelled

/-- **Every list of entries can be written**, as long as no key is empty. -/
theorem written_write {afterGap : Char → Bool} {entries : List (Text × Text)}
    (hkeys : ∀ entry ∈ entries, entry.1 ≠ []) : Written afterGap entries (write entries) := by
  induction entries with
  | nil =>
      have hidle : IdleLine ([] ++ []) := .mk nofun nofun nofun
      exact .last (.idle hidle)
  | cons entry rest ih =>
      obtain ⟨hkey, hrest⟩ := List.forall_mem_cons.mp hkeys
      have hwrite : write (entry :: rest)
          = (spell entry.1 ++ ('=' :: spell entry.2)) ++ (['\n'] ++ write rest) := by
        simp [write]
      rw [hwrite]
      exact .line (.entry (entryLine_spell hkey entry.2)) List.mem_cons_self (ih hrest)

/-- **Properties text can express every list of entries, in every spelling.** Whatever way a list of
entries is written in, reading gives just this list, in its order and with its duplicates. Behind
blanks alone a value may begin with anything that may begin one elsewhere, but for a separator that
stands for itself. And every list without empty keys can be written. -/
theorem parse_every_writing :
    (∀ entries text, Written (fun c => !isSeparator c) entries text → parse text = entries)
      ∧ ∀ entries : List (Text × Text), (∀ entry ∈ entries, entry.1 ≠ []) →
          Written (fun c => !isSeparator c) entries (write entries)
            ∧ parse (write entries) = entries := by
  refine ⟨fun _ _ hwritten => parse_written hwritten, fun entries hkeys => ?_⟩
  have hwritten : Written (fun c => !isSeparator c) entries (write entries) := written_write hkeys
  exact ⟨hwritten, parse_written hwritten⟩

/-- A comment that ends in a backslash, and an entry with four kinds of spelling in a last line that
does not end. -/
theorem parse_every_writing_mixed :
    let entries := [("k=1".toList, "é\n".toList)]
    let text := "# note\\\r\n\t k\\=1 : \\u00E9\\n".toList
    Written (fun c => !isSeparator c) entries text ∧ parse text = entries
      ∧ (∀ entry ∈ entries, entry.1 ≠ []) ∧ parse (write entries) = entries := by
  intro entries text
  have hidle : IdleLine ([] ++ "# note\\".toList) := .mk nofun (by simp) (by decide)
  have hkey : Spells mayBeInKey mayOpenKey "k=1".toList
      (['k'] ++ (['\\', '='] ++ (['1'] ++ []))) :=
    .cons (.itself (by decide) (by decide)) <| .cons (.escaped (by decide)) <|
      .cons (.itself (by decide) (by decide)) .nil
  have hseparation : Separates (fun c => !isSeparator c) ([' '] ++ ':' :: [' ']) mayOpenValue :=
    .mark (List.forall_mem_singleton.mpr rfl) (.inr rfl) (List.forall_mem_singleton.mpr rfl)
  have hnine : IsDigit 9 '9' := ⟨by decide, .inl rfl⟩
  have hfourteen : IsDigit 14 'E' := ⟨by decide, .inr rfl⟩
  have hzero : IsDigit 0 '0' := ⟨by decide, .inl rfl⟩
  have hvalue : Spells mayBeInValue mayOpenValue "é\n".toList
      (['\\', 'u', '0', '0', 'E', '9'] ++ (['\\', 'n'] ++ [])) :=
    .cons (.coded hzero hzero hfourteen hnine (by decide)) <| .cons (.lettered (by decide)) .nil
  have hindent : ∀ d ∈ ['\t', ' '], isGap d = true :=
    List.forall_mem_cons.mpr ⟨rfl, List.forall_mem_singleton.mpr rfl⟩
  have hentry : EntryLine (fun c => !isSeparator c) "k=1".toList "é\n".toList _ :=
    @EntryLine.mk _ _ _ ['\t', ' '] _ _ _ _ hindent (by decide) hkey hseparation hvalue
  have hwritten : Written (fun c => !isSeparator c) ([] ++ entries) text :=
    @Written.line _ _ _ _ ['\r', '\n'] _ (.idle hidle) (by decide) (.last (.entry hentry))
  have hkeys : ∀ entry ∈ entries, entry.1 ≠ [] := by decide
  exact ⟨hwritten, parse_every_writing.1 entries text hwritten, hkeys,
    (parse_every_writing.2 entries hkeys).2⟩

/-- Behind blanks alone, a value cannot begin with a separator that stands for itself: the separator
would belong to the blanks, and the same text would be two lists of entries. -/
theorem mark_behind_gap_is_skipped :
    Written (fun _ => true) [("a".toList, "=b".toList)] "a =b".toList
      ∧ parse "a =b".toList = [("a".toList, "b".toList)]
      ∧ ¬ ∀ entries text, Written (fun _ => true) entries text → parse text = entries := by
  have hkey : Spells mayBeInKey mayOpenKey "a".toList (['a'] ++ []) :=
    .cons (.itself (by decide) (by decide)) .nil
  have hseparation : Separates (fun _ => true) [' '] fun c => mayOpenValue c && true :=
    .gap (List.forall_mem_singleton.mpr rfl) (List.cons_ne_nil _ _)
  have hvalue : Spells mayBeInValue (fun c => mayOpenValue c && true) "=b".toList
      (['='] ++ (['b'] ++ [])) :=
    .cons (.itself (by decide) (by decide)) <| .cons (.itself (by decide) (by decide)) .nil
  have hentry : EntryLine (fun _ => true) "a".toList "=b".toList _ :=
    @EntryLine.mk _ _ _ [] _ _ _ _ nofun (by decide) hkey hseparation hvalue
  have hwritten : Written (fun _ => true) [("a".toList, "=b".toList)] "a =b".toList :=
    .last (.entry hentry)
  have hparse : parse "a =b".toList = [("a".toList, "b".toList)] := by decide +kernel
  refine ⟨hwritten, hparse, fun hall => ?_⟩
  have hread := hall _ _ hwritten
  rw [hparse] at hread
  exact absurd hread (by decide)

end Properties

end Logbook
