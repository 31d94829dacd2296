import Logbook.Properties
import Mathlib.Data.List.Basic

/-!
# Logbook — the spellings of a text

A key or a value can be spelled in many ways: each character as itself, where nothing is against it,
or behind a backslash, or by its code. Three scanners read a spelling, and they must agree on what a
backslash protects: the one that joins lines, the one that cuts a line in two, and the one that takes
the escapes away.

* **`Properties.SpellsChar`**, **`Properties.Spells`** — the spellings of a character and of a text.
* **`Properties.Settled`** — what the first two scanners need to know of a spelling: each backslash
  protects a character behind it, so `not_isContinued` and `cut_append` hold.
* **`Properties.unescape_spells`** — the third scanner gives the text back.
* **`Properties.spell`** — one spelling, for any text.
-/

namespace Logbook.Properties

/-! ## Characters -/

/-- A hexadecimal digit of this value, in either case. -/
def IsDigit (value : Nat) (digit : Char) : Prop :=
  value < 16 ∧ (digit = Nat.digitChar value ∨ digit = (Nat.digitChar value).toUpper)

/-- The characters that a letter stands for behind a backslash, each with its letter. -/
def letters : List (Char × Char) :=
  [('\t', 't'), ('\n', 'n'), ('\r', 'r'), ('\x0c', 'f')]

/-- The spellings of a character, where `raw` says which ones may stand for themselves: as itself,
but never a backslash or the end of a line; behind a backslash, but never the end of a line or a
letter that means something there; by its letter; or by its code, in four digits. -/
inductive SpellsChar (raw : Char → Bool) (c : Char) : Text → Prop
  | itself (hraw : raw c = true) (hplain : c ∉ ['\\', '\n', '\r']) : SpellsChar raw c [c]
  | escaped (hescaped : c ∉ ['t', 'n', 'r', 'f', 'u', '\n', '\r']) : SpellsChar raw c ['\\', c]
  | lettered {letter : Char} (hletter : (c, letter) ∈ letters) : SpellsChar raw c ['\\', letter]
  | coded {w x y z : Char} {i j k l : Nat} (hw : IsDigit i w) (hx : IsDigit j x) (hy : IsDigit k y)
      (hz : IsDigit l z) (hcode : c.toNat = 16 * (16 * (16 * i + j) + k) + l) :
      SpellsChar raw c ['\\', 'u', w, x, y, z]

/-- The spellings of a text, where `first` says which characters may stand for themselves at its
beginning, and `raw` which ones may after that. -/
inductive Spells (raw : Char → Bool) : (first : Char → Bool) → Text → Text → Prop
  | nil {first : Char → Bool} : Spells raw first [] []
  | cons {first : Char → Bool} {c : Char} {text piece spelled : Text}
      (hpiece : SpellsChar first c piece) (hrest : Spells raw raw text spelled) :
      Spells raw first (c :: text) (piece ++ spelled)

/-! ## Digits -/

/-- What holds of the sixteen digits in either case holds of every digit. -/
theorem IsDigit.forall {p : Nat → Char → Prop} {value : Nat} {digit : Char}
    (h : IsDigit value digit)
    (hall : ∀ v : Fin 16, p v (Nat.digitChar v) ∧ p v (Nat.digitChar v).toUpper) :
    p value digit := by
  obtain ⟨hlt, rfl | rfl⟩ := h
  · exact (hall ⟨value, hlt⟩).1
  · exact (hall ⟨value, hlt⟩).2

theorem IsDigit.plain {value : Nat} {digit : Char} (h : IsDigit value digit) :
    digit ∉ ['\\', '\n', '\r', '+'] ∧ Text.isBlank digit = false ∧ isSeparator digit = false := by
  refine h.forall (p := fun _ d =>
    d ∉ ['\\', '\n', '\r', '+'] ∧ Text.isBlank d = false ∧ isSeparator d = false) ?_
  decide

theorem IsDigit.hexDigit? {value : Nat} {digit : Char} (h : IsDigit value digit) :
    Numeral.hexDigit? digit = some value := by
  refine h.forall (p := fun v d => Numeral.hexDigit? d = some v) ?_
  decide

theorem scalar?_toNat (c : Char) : scalar? c.toNat = some c := by
  have hvalid : c.toNat.isValidChar := c.valid
  rw [scalar?, dif_pos hvalid]
  rfl

theorem codePoint?_digits {c w x y z : Char} {i j k l : Nat} (hw : IsDigit i w) (hx : IsDigit j x)
    (hy : IsDigit k y) (hz : IsDigit l z) (hcode : c.toNat = 16 * (16 * (16 * i + j) + k) + l) :
    codePoint? [w, x, y, z] = some c := by
  have hread : Numeral.readHex? [w, x, y, z] = some c.toNat := by
    simp [Numeral.readHex?, hw.hexDigit?, hx.hexDigit?, hy.hexDigit?, hz.hexDigit?, hcode]
  have hsign : w ≠ '+' := fun hplus => hw.plain.1 (by simp [hplus])
  unfold codePoint?
  split
  · next heq => exact absurd (List.cons.inj heq).1 hsign
  · next heq =>
    cases heq
    rw [hread]
    exact scalar?_toNat c
  · next hnone => exact absurd rfl (hnone w x y z)

/-! ## Taking the escapes away -/

theorem unescape_cons {c : Char} (hc : c ≠ '\\') (rest : Text) :
    unescape (c :: rest) = c :: unescape rest := by
  simp [unescape, hc]

/-- Every letter but `u` takes the backslash in front of it away. -/
theorem unescape_pair {letter : Char} (hletter : letter ≠ 'u') (rest : Text) :
    unescape ('\\' :: letter :: rest) = escaped letter :: unescape rest := by
  rw [unescape]
  · exact fun _ _ _ _ _ heq => absurd heq hletter
  · exact hletter

/-- The spelling of a character stands for it, whatever comes behind. -/
theorem unescape_piece {raw : Char → Bool} {c : Char} {piece : Text} (h : SpellsChar raw c piece)
    (rest : Text) : unescape (piece ++ rest) = c :: unescape rest := by
  cases h with
  | itself hraw hplain =>
      have hslash : c ≠ '\\' := fun heq => hplain (by simp [heq])
      exact unescape_cons hslash rest
  | escaped hescaped =>
      simp only [List.mem_cons, List.not_mem_nil, or_false, not_or] at hescaped
      obtain ⟨ht, hn, hr, hf, hu, -, -⟩ := hescaped
      have hself : escaped c = c := by simp [escaped, ht, hn, hr, hf]
      rw [List.cons_append, List.cons_append, List.nil_append, unescape_pair hu, hself]
  | @lettered letter hletter =>
      have hall : ∀ entry ∈ letters, entry.2 ≠ 'u' ∧ escaped entry.2 = entry.1 := by decide
      obtain ⟨hu, hstands⟩ := hall _ hletter
      rw [List.cons_append, List.cons_append, List.nil_append, unescape_pair hu, hstands]
  | coded hw hx hy hz hcode =>
      have hdecoded := codePoint?_digits hw hx hy hz hcode
      simp only [List.cons_append, List.nil_append, unescape, hdecoded]

/-- **A spelling stands for the text that it spells.** -/
theorem unescape_spells {raw first : Char → Bool} {text spelled : Text}
    (h : Spells raw first text spelled) : unescape spelled = text := by
  induction h with
  | nil => rfl
  | cons hpiece hrest ih => rw [unescape_piece hpiece, ih]

/-! ## What a backslash protects -/

/-- A text in which each backslash stands in front of a character that it protects, and all others
are `plain`. -/
inductive Settled (plain : Char → Bool) : Text → Prop
  | nil : Settled plain []
  | plain {c : Char} {rest : Text} (hplain : plain c = true) (hslash : c ≠ '\\')
      (hrest : Settled plain rest) : Settled plain (c :: rest)
  | pair {c : Char} {rest : Text} (hrest : Settled plain rest) : Settled plain ('\\' :: c :: rest)

theorem Settled.append {plain : Char → Bool} {text rest : Text} (h : Settled plain text)
    (hrest : Settled plain rest) : Settled plain (text ++ rest) := by
  induction h with
  | nil => exact hrest
  | plain hplain hslash _ ih => exact .plain hplain hslash ih
  | pair _ ih => exact .pair ih

theorem settled_of_forall {plain : Char → Bool} {text : Text}
    (h : ∀ c ∈ text, plain c = true ∧ c ≠ '\\') : Settled plain text := by
  induction text with
  | nil => exact .nil
  | cons c rest ih =>
      obtain ⟨⟨hplain, hslash⟩, hrest⟩ := List.forall_mem_cons.mp h
      exact .plain hplain hslash (ih hrest)

theorem SpellsChar.settled {raw plain : Char → Bool} {c : Char} {piece : Text}
    (h : SpellsChar raw c piece) (hraw : ∀ c, raw c = true → plain c = true)
    (hdigit : ∀ value digit, IsDigit value digit → plain digit = true) : Settled plain piece := by
  have hdigits : ∀ {value digit}, IsDigit value digit → plain digit = true ∧ digit ≠ '\\' :=
    fun h => ⟨hdigit _ _ h, fun hslash => h.plain.1 (by simp [hslash])⟩
  cases h with
  | itself hself hplain => exact .plain (hraw c hself) (fun heq => hplain (by simp [heq])) .nil
  | escaped _ => exact .pair .nil
  | lettered _ => exact .pair .nil
  | coded hw hx hy hz _ =>
      refine .pair (settled_of_forall ?_)
      simp only [List.forall_mem_cons, List.not_mem_nil, false_imp_iff, implies_true, and_true]
      exact ⟨hdigits hw, hdigits hx, hdigits hy, hdigits hz⟩

/-- In a spelling each backslash protects a character behind it. -/
theorem Spells.settled {raw first plain : Char → Bool} {text spelled : Text}
    (h : Spells raw first text spelled) (hraw : ∀ c, raw c = true → plain c = true)
    (hfirst : ∀ c, first c = true → plain c = true)
    (hdigit : ∀ value digit, IsDigit value digit → plain digit = true) : Settled plain spelled := by
  induction h with
  | nil => exact .nil
  | cons hpiece _ ih => exact (hpiece.settled hfirst hdigit).append (ih hraw)

/-! ## The characters of a spelling -/

theorem SpellsChar.onLine {raw : Char → Bool} {c : Char} {piece : Text} (h : SpellsChar raw c piece) :
    ∀ d ∈ piece, d ∉ ['\n', '\r'] := by
  have hdigit : ∀ {value digit}, IsDigit value digit → digit ∉ ['\n', '\r'] :=
    fun h hmem => h.plain.1 (by simp only [List.mem_cons] at hmem ⊢; tauto)
  have hslash : '\\' ∉ ['\n', '\r'] := by decide
  cases h with
  | itself _ hplain =>
      refine List.forall_mem_singleton.mpr fun hmem => hplain ?_
      exact List.mem_cons_of_mem _ hmem
  | escaped hescaped =>
      refine List.forall_mem_cons.mpr ⟨hslash, List.forall_mem_singleton.mpr fun hmem => ?_⟩
      exact hescaped (by simp only [List.mem_cons] at hmem ⊢; tauto)
  | lettered hletter =>
      have hall : ∀ entry ∈ letters, entry.2 ∉ ['\n', '\r'] := by decide
      exact List.forall_mem_cons.mpr ⟨hslash, List.forall_mem_singleton.mpr (hall _ hletter)⟩
  | coded hw hx hy hz _ =>
      simp only [List.forall_mem_cons, List.not_mem_nil, false_imp_iff, implies_true, and_true]
      exact ⟨hslash, by decide, hdigit hw, hdigit hx, hdigit hy, hdigit hz⟩

theorem Spells.onLine {raw first : Char → Bool} {text spelled : Text}
    (h : Spells raw first text spelled) : ∀ d ∈ spelled, d ∉ ['\n', '\r'] := by
  induction h with
  | nil => exact nofun
  | cons hpiece _ ih => exact List.forall_mem_append.mpr ⟨hpiece.onLine, ih⟩

/-- A spelling begins with a backslash or with a character that may begin it. -/
theorem Spells.head {raw first : Char → Bool} {c : Char} {text spelled : Text}
    (h : Spells raw first (c :: text) spelled) :
    ∃ d rest, spelled = d :: rest ∧ (d = '\\' ∨ first d = true) := by
  cases h with
  | cons hpiece _ =>
      cases hpiece with
      | itself hraw _ => exact ⟨_, _, rfl, .inr hraw⟩
      | escaped _ => exact ⟨_, _, rfl, .inl rfl⟩
      | lettered _ => exact ⟨_, _, rfl, .inl rfl⟩
      | coded _ _ _ _ _ => exact ⟨_, _, rfl, .inl rfl⟩

theorem Spells.of_head? {raw first : Char → Bool} {text spelled : Text}
    (h : Spells raw first text spelled) : ∀ d ∈ spelled.head?, d = '\\' ∨ first d = true := by
  intro d hd
  cases text with
  | nil =>
      cases h
      cases hd
  | cons c text =>
      obtain ⟨e, rest, rfl, hfirst⟩ := h.head
      cases hd
      exact hfirst

/-! ## Joining lines and cutting them -/

theorem isContinued_concat (text : Text) (c : Char) :
    isContinued (text ++ [c]) = (c == '\\' && !isContinued text) := by
  by_cases hc : c = '\\'
  · -- the run at the end grows by one, and its parity turns over
    subst hc
    simp only [isContinued, List.reverse_append, List.reverse_singleton, List.singleton_append,
      beq_self_eq_true, List.takeWhile_cons_of_pos, List.length_cons, Bool.true_and]
    generalize (text.reverse.takeWhile (· == '\\')).length = run
    rcases Nat.mod_two_eq_zero_or_one run with heven | hodd
    · simp [heven, Nat.add_mod]
    · simp [hodd, Nat.add_mod]
  · simp [isContinued, hc]

/-- **A settled text goes on in no other line**, behind any text that does not either. -/
theorem Settled.not_isContinued {plain : Char → Bool} {text : Text} (h : Settled plain text) :
    ∀ {front : Text}, isContinued front = false → isContinued (front ++ text) = false := by
  -- the front takes the text over, one character or one protected pair at a time
  induction h with
  | nil =>
      intro front hfront
      rw [List.append_nil]
      exact hfront
  | @plain c rest hplain hslash _ ih =>
      intro front _
      rw [List.append_cons]
      refine ih ?_
      rw [isContinued_concat, beq_false_of_ne hslash, Bool.false_and]
  | @pair c rest _ ih =>
      intro front hfront
      rw [List.append_cons, List.append_cons]
      refine ih ?_
      rw [isContinued_concat, isContinued_concat, hfront]
      simp

/-- What may stand for itself in a key. -/
def mayBeInKey (c : Char) : Bool :=
  !Text.isBlank c && !isSeparator c

theorem IsDigit.mayBeInKey {value : Nat} {digit : Char} (h : IsDigit value digit) :
    mayBeInKey digit = true := by
  simp [Properties.mayBeInKey, h.plain.2.1, h.plain.2.2]

/-- **A key is cut off whole**: up to the first blank or separator that nothing protects. -/
theorem Settled.cut_append {key : Text} (h : Settled mayBeInKey key) (rest : Text) :
    cut (key ++ rest) = (key ++ (cut rest).1, (cut rest).2) := by
  induction h with
  | nil => rfl
  | @plain c text hplain hslash _ ih =>
      simp only [mayBeInKey, Bool.and_eq_true, Bool.not_eq_true'] at hplain
      simp [cut, hslash, hplain, ih]
  | @pair c text _ ih => simp [cut, ih]

/-! ## One spelling for any text -/

/-- The spelling of a character that puts a backslash in front of it where it can. -/
def spellChar (c : Char) : Text :=
  if c = '\n' then ['\\', 'n']
  else if c = '\r' then ['\\', 'r']
  else if c ∈ ['t', 'n', 'r', 'f', 'u'] then [c]
  else ['\\', c]

/-- One spelling of a text. -/
def spell (text : Text) : Text :=
  text.flatMap spellChar

theorem spellsChar_spellChar {raw : Char → Bool} (hraw : ['t', 'n', 'r', 'f', 'u'].all raw = true)
    (c : Char) : SpellsChar raw c (spellChar c) := by
  unfold spellChar
  split_ifs with hn hr hletter
  · exact .lettered (by rw [hn]; decide)
  · exact .lettered (by rw [hr]; decide)
  · refine .itself (List.all_eq_true.mp hraw c hletter) fun hmem => ?_
    have hapart : ∀ d ∈ ['t', 'n', 'r', 'f', 'u'], d ∉ ['\\', '\n', '\r'] := by simp
    exact hapart c hletter hmem
  · refine .escaped fun hmem => ?_
    simp only [List.mem_cons, List.not_mem_nil, or_false, not_or] at hmem hletter
    tauto

theorem spells_spell {raw first : Char → Bool}
    (hraw : ['t', 'n', 'r', 'f', 'u'].all raw = true)
    (hfirst : ['t', 'n', 'r', 'f', 'u'].all first = true) (text : Text) :
    Spells raw first text (spell text) := by
  induction text generalizing first with
  | nil => exact .nil
  | cons c rest ih => exact .cons (spellsChar_spellChar hfirst c) (ih hraw)

end Logbook.Properties
