import Logbook.Proofs.Text.Trailing
import Logbook.Template

/-!
# Logbook — templates, placeholder by placeholder

A template is cut at its placeholders. Right in front of a placeholder stands a run of backslashes,
which may be empty, and in front of the run a literal text that does not end in a backslash. Cut in
this way a template has exactly one outline, and filling it goes from slot to slot.

* **`Slot`**, **`Outline`** — a placeholder with what stands in front of it, and a whole template.
* **`Outline.text_bijective`** — every template has exactly one outline.
* **`Slot.filled`**, **`Outline.filled`** — what becomes of a slot, by the argument whose turn it
  is. The turn is counted by `turn`, and not by running through the template.
* **`fill_slot`** — one slot is filled; **`fill_slots`** — all of them, by induction on the slots.
-/

namespace Logbook.Template

/-- The two characters of a placeholder. -/
def placeholder : Text := ['{', '}']

/-- A placeholder, with the literal text and the backslashes in front of it. -/
@[ext]
structure Slot where
  literal : Text
  backslashes : Nat
  literal_clean : ¬ placeholder <:+: literal
  literal_end : literal.getLast? ≠ some '\\'

/-- A template: its placeholders, and the text behind the last one. -/
@[ext]
structure Outline where
  slots : List Slot
  tail : Text
  tail_clean : ¬ placeholder <:+: tail

def Slot.text (slot : Slot) : Text :=
  slot.literal ++ (List.replicate slot.backslashes '\\' ++ placeholder)

def Outline.text (outline : Outline) : Text :=
  outline.slots.flatMap Slot.text ++ outline.tail

/-! ## Every template has exactly one outline

Two cuts of one text at a placeholder are compared by `List.append_eq_append_iff`: one front is the
other with something behind it, and there no placeholder has room. -/

theorem eq_nil_of_placeholder_append {a r s : Text} (ha : ¬ placeholder <:+: a)
    (h : placeholder ++ r = a ++ (placeholder ++ s)) : a = [] := by
  match a with
  | [] => rfl
  | [c] =>
      -- the second character of the placeholder would be its first one
      have hbrace : '}' = '{' := (List.cons.inj (List.cons.inj h).2).1
      exact absurd hbrace (by decide)
  | c :: d :: rest =>
      have hc : '{' = c := (List.cons.inj h).1
      have hd : '}' = d := (List.cons.inj (List.cons.inj h).2).1
      subst hc hd
      exact absurd ⟨[], rest, rfl⟩ ha

/-- The first placeholder of a text can be cut out in one way only. -/
theorem append_placeholder_inj {a b r s : Text} (ha : ¬ placeholder <:+: a)
    (hb : ¬ placeholder <:+: b) (h : a ++ (placeholder ++ r) = b ++ (placeholder ++ s)) :
    a = b ∧ r = s := by
  have hfront : a = b := by
    rcases List.append_eq_append_iff.mp h with ⟨x, rfl, hx⟩ | ⟨x, rfl, hx⟩
    · have hclean : ¬ placeholder <:+: x := fun hwithin =>
        hb (hwithin.trans (List.suffix_append a x).isInfix)
      rw [eq_nil_of_placeholder_append hclean hx, List.append_nil]
    · have hclean : ¬ placeholder <:+: x := fun hwithin =>
        ha (hwithin.trans (List.suffix_append b x).isInfix)
      rw [eq_nil_of_placeholder_append hclean hx, List.append_nil]
  subst hfront
  exact ⟨rfl, List.append_cancel_left (List.append_cancel_left h)⟩

/-- The text in front of a placeholder has none, with the backslashes as without. -/
theorem Slot.front_clean (slot : Slot) :
    ¬ placeholder <:+: slot.literal ++ List.replicate slot.backslashes '\\' := by
  have hbrace : '}' ∉ List.replicate slot.backslashes '\\' := fun hmem =>
    absurd (List.eq_of_mem_replicate hmem) (by decide)
  intro hwithin
  rcases List.infix_append_iff.mp hwithin with hliteral | hrun | ⟨u, v, huv, hu, hv⟩
  · exact slot.literal_clean hliteral
  · exact hbrace (hrun.subset (by decide))
  · -- across the border: the second half is empty, for it would end in the closing brace
    rcases List.eq_nil_or_concat v with rfl | ⟨front, c, rfl⟩
    · rw [List.append_nil] at huv
      exact slot.literal_clean (huv ▸ hu.isInfix)
    · have hc : c = '}' := by
        have hlast := congrArg List.getLast? huv
        simpa [placeholder] using hlast.symm
      exact hbrace (hv.subset (by simp [hc]))

theorem Slot.text_append_inj {slot other : Slot} {rest more : Text}
    (h : slot.text ++ rest = other.text ++ more) : slot = other ∧ rest = more := by
  simp only [Slot.text, List.append_assoc] at h
  simp only [← List.append_assoc slot.literal, ← List.append_assoc other.literal] at h
  obtain ⟨hfront, hrest⟩ := append_placeholder_inj slot.front_clean other.front_clean h
  obtain ⟨hliteral, hrun⟩ :=
    Text.append_replicate_inj slot.literal_end other.literal_end hfront
  exact ⟨Slot.ext hliteral hrun, hrest⟩

theorem Slot.placeholder_infix (slot : Slot) (rest : Text) :
    placeholder <:+: slot.text ++ rest :=
  ⟨slot.literal ++ List.replicate slot.backslashes '\\', rest, by simp [Slot.text]⟩

theorem Outline.text_injective : Function.Injective Outline.text := by
  rintro ⟨slots, tail, hclean⟩ ⟨others, tail', hclean'⟩ h
  -- on the slots of both outlines at once: each pair of first slots is cut off both texts
  induction slots generalizing others with
  | nil =>
      cases others with
      | nil => exact Outline.ext rfl h
      | cons other more =>
          have hcut : tail = other.text ++ (more.flatMap Slot.text ++ tail') := by
            simpa [Outline.text] using h
          exact absurd (hcut ▸ other.placeholder_infix _) hclean
  | cons slot rest ih =>
      cases others with
      | nil =>
          have hcut : slot.text ++ (rest.flatMap Slot.text ++ tail) = tail' := by
            simpa [Outline.text] using h
          exact absurd (hcut ▸ slot.placeholder_infix _) hclean'
      | cons other more =>
          have hcut : slot.text ++ (rest.flatMap Slot.text ++ tail)
              = other.text ++ (more.flatMap Slot.text ++ tail') := by
            simpa [Outline.text] using h
          obtain ⟨rfl, hrest⟩ := Slot.text_append_inj hcut
          obtain ⟨hslots, htail⟩ := Outline.ext_iff.mp (ih more hrest)
          exact Outline.ext (congrArg (slot :: ·) hslots) htail

/-- A text with a placeholder can be cut at the first one. -/
theorem exists_first_placeholder {template : Text} (h : placeholder <:+: template) :
    ∃ front rest, template = front ++ (placeholder ++ rest) ∧ ¬ placeholder <:+: front := by
  induction template with
  | nil => cases List.infix_nil.mp h
  | cons c template ih =>
      by_cases hhere : placeholder <+: c :: template
      · obtain ⟨rest, hrest⟩ := hhere
        exact ⟨[], rest, hrest.symm, by decide⟩
      · obtain ⟨front, rest, rfl, hclean⟩ := ih ((List.infix_cons_iff.mp h).resolve_left hhere)
        refine ⟨c :: front, rest, rfl, fun hwithin => ?_⟩
        rcases List.infix_cons_iff.mp hwithin with hstarts | hwithin
        · exact hhere (hstarts.trans (List.prefix_append (c :: front) _))
        · exact hclean hwithin

/-- A text with a placeholder begins with a slot. -/
theorem exists_slot {template : Text} (h : placeholder <:+: template) :
    ∃ (slot : Slot) (rest : Text), template = slot.text ++ rest := by
  obtain ⟨front, rest, rfl, hclean⟩ := exists_first_placeholder h
  obtain ⟨run, hfront⟩ := Text.eq_dropTrailing_append '\\' front
  have hliteral : Text.dropTrailing '\\' front <:+: front :=
    ⟨[], List.replicate run '\\', hfront.symm⟩
  refine ⟨⟨Text.dropTrailing '\\' front, run, fun hwithin => hclean (hwithin.trans hliteral),
    Text.getLast?_dropTrailing '\\' front⟩, rest, ?_⟩
  conv_lhs => rw [hfront]
  simp [Slot.text]

theorem Outline.text_surjective : Function.Surjective Outline.text := by
  intro template
  -- on the length: what follows a slot is shorter
  induction hlength : template.length using Nat.strong_induction_on generalizing template with
  | _ length ih =>
      by_cases hclean : placeholder <:+: template
      · obtain ⟨slot, rest, rfl⟩ := exists_slot hclean
        have hshorter : rest.length < length := by
          simp only [Slot.text, placeholder, List.length_append, List.length_cons,
            List.length_nil] at hlength
          omega
        obtain ⟨outline, rfl⟩ := ih rest.length hshorter rest rfl
        exact ⟨⟨slot :: outline.slots, outline.tail, outline.tail_clean⟩, by simp [Outline.text]⟩
      · exact ⟨⟨[], template, hclean⟩, rfl⟩

/-- **Every template has exactly one outline.** -/
theorem Outline.text_bijective : Function.Bijective Outline.text :=
  ⟨Outline.text_injective, Outline.text_surjective⟩

/-! ## What becomes of a slot -/

/-- A slot takes an argument unless exactly one backslash stands in front of its placeholder. -/
def Slot.takes (slot : Slot) : Bool := slot.backslashes != 1

/-- What becomes of a slot when its turn comes, given the next argument if one is left. -/
def Slot.filled (slot : Slot) : Option Text → Text
  | none => slot.text
  | some argument =>
    slot.literal ++
      match slot.backslashes with
      | 0 => argument
      | 1 => placeholder
      | more + 2 => List.replicate (more + 1) '\\' ++ argument

/-- How many arguments the slots in front of a place have taken. -/
def turn (slots : List Slot) (place : Nat) : Nat :=
  (slots.take place).countP Slot.takes

/-- Each slot with what becomes of it. -/
def shown (slots : List Slot) (arguments : List Text) : Text :=
  (slots.mapIdx fun place slot => slot.filled arguments[turn slots place]?).flatten

def Outline.filled (outline : Outline) (arguments : List Text) : Text :=
  shown outline.slots arguments ++ outline.tail

theorem countP_takes_cons (slot : Slot) (rest : List Slot) :
    (slot :: rest).countP Slot.takes = slot.takes.toNat + rest.countP Slot.takes := by
  rw [List.countP_cons, Nat.add_comm]
  cases slot.takes with
  | false => rfl
  | true => rfl

theorem shown_cons (slot : Slot) (rest : List Slot) (arguments : List Text) :
    shown (slot :: rest) arguments
      = slot.filled arguments[0]? ++ shown rest (arguments.drop slot.takes.toNat) := by
  have hturn : ∀ place, turn (slot :: rest) (place + 1) = slot.takes.toNat + turn rest place := by
    intro place
    unfold turn
    rw [List.take_succ_cons, countP_takes_cons]
  simp only [shown, List.mapIdx_cons, List.flatten_cons, hturn, List.getElem?_drop]
  rfl

theorem shown_nil (slots : List Slot) : shown slots [] = slots.flatMap Slot.text := by
  induction slots with
  | nil => rfl
  | cons slot rest ih => rw [shown_cons, List.drop_nil, ih]; rfl

/-! ## Filling a template, slot by slot

`fillFrom` carries the number of backslashes that it has passed. A literal text does not end in one,
so behind it the count starts again at zero. -/

theorem fill_nil (template : Text) : fill template [] = template := by
  simp [fill, fillFrom]

section Scan

variable {argument : Text} {arguments : List Text}

theorem fillFrom_nil (passed : Nat) :
    fillFrom passed [] (argument :: arguments) = List.replicate passed '\\' := by
  simp [fillFrom]

theorem fillFrom_backslash (passed : Nat) (rest : Text) :
    fillFrom passed ('\\' :: rest) (argument :: arguments)
      = fillFrom (passed + 1) rest (argument :: arguments) := by
  simp [fillFrom]

theorem fillFrom_other {c : Char} {rest : Text} (hc : c ≠ '\\')
    (hopen : ¬ placeholder <+: c :: rest) (passed : Nat) :
    fillFrom passed (c :: rest) (argument :: arguments)
      = List.replicate passed '\\' ++ c :: fillFrom 0 rest (argument :: arguments) := by
  rw [fillFrom]
  · exact hc
  · exact nofun
  · rintro more - - - rfl rfl
    exact hopen ⟨more, rfl⟩

theorem fillFrom_run (passed run : Nat) (rest : Text) :
    fillFrom passed (List.replicate run '\\' ++ rest) (argument :: arguments)
      = fillFrom (passed + run) rest (argument :: arguments) := by
  induction run generalizing passed with
  | zero => rfl
  | succ run ih =>
      rw [List.replicate_succ, List.cons_append, fillFrom_backslash, ih]
      congr 1
      omega

/-- A literal text is copied, and what follows is scanned afresh. -/
theorem fillFrom_literal {literal after : Text} (hclean : ¬ placeholder <:+: literal)
    (hend : literal.getLast? ≠ some '\\') (hafter : after.head? ≠ some '}') (passed : Nat)
    (hpassed : literal = [] → passed = 0) :
    fillFrom passed (literal ++ after) (argument :: arguments)
      = List.replicate passed '\\' ++ literal ++ fillFrom 0 after (argument :: arguments) := by
  induction literal generalizing passed with
  | nil => rw [hpassed rfl]; rfl
  | cons c rest ih =>
      obtain ⟨hopen, hrest⟩ := not_or.mp (List.infix_cons_iff.not.mp hclean)
      have hend' : rest.getLast? ≠ some '\\' := by
        intro hlast
        rw [List.getLast?_cons, hlast] at hend
        exact hend rfl
      by_cases hc : c = '\\'
      · subst hc
        -- a backslash is not the last character of a literal
        have hne : rest ≠ [] := by
          rintro rfl
          exact hend rfl
        rw [List.cons_append, fillFrom_backslash, ih hrest hend' (passed + 1) (absurd · hne),
          List.replicate_succ']
        simp
      · have hopen' : ¬ placeholder <+: c :: (rest ++ after) := by
          rintro ⟨more, hmore⟩
          obtain ⟨hbrace, hmore⟩ := List.cons.inj hmore
          cases rest with
          | nil =>
              have hclose : '}' :: more = after := hmore
              exact hafter (hclose ▸ rfl)
          | cons d rest =>
              obtain ⟨hclose, -⟩ := List.cons.inj hmore
              exact hopen ⟨rest, by rw [← hbrace, ← hclose]; rfl⟩
        rw [List.cons_append, fillFrom_other hc hopen', ih hrest hend' 0 fun _ => rfl]
        simp

theorem fillFrom_placeholder (slot : Slot) (rest : Text) :
    slot.literal ++ fillFrom slot.backslashes (placeholder ++ rest) (argument :: arguments)
      = slot.filled (some argument)
        ++ fill rest ((argument :: arguments).drop slot.takes.toNat) := by
  obtain ⟨literal, backslashes, hclean, hend⟩ := slot
  match backslashes with
  | 0 => simp [placeholder, fillFrom, Slot.filled, Slot.takes, fill]
  | 1 => simp [placeholder, fillFrom, Slot.filled, Slot.takes, fill]
  | more + 2 => simp [placeholder, fillFrom, Slot.filled, Slot.takes, fill]

end Scan

/-- A text without a placeholder is its own message. -/
theorem fill_clean {template : Text} (hclean : ¬ placeholder <:+: template)
    (arguments : List Text) : fill template arguments = template := by
  cases arguments with
  | nil => exact fill_nil template
  | cons argument arguments =>
      obtain ⟨run, htemplate⟩ := Text.eq_dropTrailing_append '\\' template
      have hfront : Text.dropTrailing '\\' template <:+: template :=
        ⟨[], List.replicate run '\\', htemplate.symm⟩
      have hafter : (List.replicate run '\\').head? ≠ some '}' := by
        cases run <;> simp [List.replicate_succ]
      have hrun : fillFrom 0 (List.replicate run '\\') (argument :: arguments)
          = List.replicate run '\\' := by
        rw [← List.append_nil (List.replicate run '\\'), fillFrom_run, fillFrom_nil, Nat.zero_add,
          List.append_nil]
      conv_lhs => rw [fill, htemplate]
      rw [fillFrom_literal (fun hwithin => hclean (hwithin.trans hfront))
        (Text.getLast?_dropTrailing '\\' template) hafter 0 fun _ => rfl, hrun]
      exact htemplate.symm

/-- **The step.** While an argument is left, the next slot becomes what its backslashes say, and the
rest of the template is filled with what the slot leaves. -/
theorem fill_slot (slot : Slot) (rest argument : Text) (arguments : List Text) :
    fill (slot.text ++ rest) (argument :: arguments)
      = slot.filled (some argument)
        ++ fill rest ((argument :: arguments).drop slot.takes.toNat) := by
  have hafter : (List.replicate slot.backslashes '\\' ++ (placeholder ++ rest)).head?
      ≠ some '}' := by
    cases slot.backslashes <;> simp [List.replicate_succ, placeholder]
  rw [← fillFrom_placeholder, Slot.text, fill, List.append_assoc, List.append_assoc,
    fillFrom_literal slot.literal_clean slot.literal_end hafter 0 fun _ => rfl, fillFrom_run,
    Nat.zero_add]
  rfl

/-- **The run.** A template becomes what its slots become one by one, and its tail. -/
theorem fill_slots (outline : Outline) (arguments : List Text) :
    fill outline.text arguments = outline.filled arguments := by
  obtain ⟨slots, tail, hclean⟩ := outline
  unfold Outline.text Outline.filled
  dsimp only
  -- on the slots: each leaves fewer arguments, or the same
  induction slots generalizing arguments with
  | nil => exact fill_clean hclean arguments
  | cons slot rest ih =>
      cases arguments with
      | nil => rw [fill_nil, shown_nil]
      | cons argument arguments =>
          rw [List.flatMap_cons, List.append_assoc, fill_slot, ih, shown_cons, List.append_assoc]
          rfl

end Logbook.Template
