import Logbook.Proofs.Template.Outline

/-!
# Logbook — the message of a template and its arguments

An error at the end of the arguments is taken off, and what is left fills the slots of the
template. Arguments that are left over are ignored but for one thing: while one is left, an escaped
placeholder loses its backslash, and once none is left the rest of the template is copied with
every backslash.

* **`Argument.Splits`** — the arguments that fill slots, and the error that was taken off.
* **`message_fills_outline`** — the message, from the outline of the template.
* **`shown_append`**, **`shown_take`** — the slots up to the last taking one, and those behind it.
* **`surplus_shows_in_escapes`** — what arguments that are left over do.
-/

namespace Logbook

/-- Of the arguments those of `given` fill slots; an error at their end is taken off, and only
that. -/
inductive Argument.Splits : List Argument → List Argument → Option ErrorChain → Prop where
  | error (given : List Argument) (chain : ErrorChain) :
      Splits (given ++ [.error chain]) given (some chain)
  | nothing {arguments : List Argument}
      (h : ∀ chain, arguments.getLast? ≠ some (.error chain)) :
      Splits arguments arguments none

namespace Argument

theorem error?_eq_some_iff {argument : Argument} {chain : ErrorChain} :
    argument.error? = some chain ↔ argument = .error chain := by
  cases argument <;> simp [error?]

theorem Splits.splitError_eq {arguments given : List Argument} {error : Option ErrorChain}
    (h : Splits arguments given error) : splitError arguments = (given, error) := by
  cases h with
  | error given chain => simp [splitError, error?]
  | nothing hlast =>
      have hnone : (arguments.getLast? >>= error?) = none := by
        cases hlast' : arguments.getLast? with
        | none => rfl
        | some last =>
            refine Option.eq_none_iff_forall_ne_some.mpr fun chain herror => ?_
            rw [error?_eq_some_iff.mp herror] at hlast'
            exact hlast chain hlast'
      rw [splitError, hnone]

theorem Splits.arguments_eq {arguments given : List Argument} {chain : ErrorChain}
    (h : Splits arguments given (some chain)) : arguments = given ++ [.error chain] := by
  cases h
  rfl

theorem splits_splitError (arguments : List Argument) :
    Splits arguments (splitError arguments).1 (splitError arguments).2 := by
  by_cases h : ∃ chain, arguments.getLast? = some (.error chain)
  · obtain ⟨chain, hlast⟩ := h
    obtain ⟨given, rfl⟩ := List.getLast?_eq_some_iff.mp hlast
    rw [(Splits.error given chain).splitError_eq]
    exact .error given chain
  · have hsplits := Splits.nothing (not_exists.mp h)
    rw [hsplits.splitError_eq]
    exact hsplits

end Argument

namespace Template

theorem message_of_splits {outline : Outline} {arguments given : List Argument}
    {error : Option ErrorChain} (h : Argument.Splits arguments given error) :
    message outline.text arguments = (outline.filled (given.map Argument.text), error) := by
  unfold message
  rw [h.splitError_eq]
  dsimp only
  rw [fill_slots]

/-- **A template is filled slot by slot.** It has one outline, and the message is what becomes of
the slots in turn, with the texts of the arguments as they are. An error at the end of the
arguments is handed on and fills no slot. -/
theorem message_fills_outline (template : Text) (arguments : List Argument) :
    ∃ (outline : Outline) (given : List Argument) (error : Option ErrorChain),
      outline.text = template
        ∧ (∀ other : Outline, other.text = template → other = outline)
        ∧ Argument.Splits arguments given error
        ∧ message template arguments = (outline.filled (given.map Argument.text), error) := by
  obtain ⟨outline, rfl⟩ := Outline.text_surjective template
  have hsplits := Argument.splits_splitError arguments
  exact ⟨outline, _, _, rfl, fun _ hother => Outline.text_injective hother, hsplits,
    message_of_splits hsplits⟩

/-! ## Arguments that are left over -/

/-- How many arguments a template takes. -/
def Outline.takers (outline : Outline) : Nat :=
  outline.slots.countP Slot.takes

theorem shown_append (front behind : List Slot) (arguments : List Text) :
    shown (front ++ behind) arguments
      = shown front arguments ++ shown behind (arguments.drop (front.countP Slot.takes)) := by
  induction front generalizing arguments with
  | nil => rfl
  | cons slot front ih =>
      rw [List.cons_append, shown_cons, shown_cons, ih, List.drop_drop, countP_takes_cons,
        List.append_assoc]

/-- Every slot up to the last taking one comes before the arguments run out. -/
theorem turn_lt {front : List Slot} (hlast : ∀ slot ∈ front.getLast?, slot.takes = true)
    {place : Nat} (hplace : place < front.length) : turn front place < front.countP Slot.takes := by
  -- the last slot stands at the place or behind it, and has not had its turn
  have hne : front.drop place ≠ [] := by
    intro hnil
    have hlength := List.drop_eq_nil_iff.mp hnil
    omega
  have hpos : 0 < (front.drop place).countP Slot.takes := by
    refine List.countP_pos_iff.mpr ⟨(front.drop place).getLast hne, List.getLast_mem hne, ?_⟩
    rw [List.getLast_drop]
    exact hlast _ (List.getLast?_eq_some_getLast _)
  have hcount : front.countP Slot.takes
      = (front.take place).countP Slot.takes + (front.drop place).countP Slot.takes := by
    rw [← List.countP_append, List.take_append_drop]
  unfold turn
  omega

/-- Up to the last taking slot, no other arguments count than those that are taken. -/
theorem shown_take {front : List Slot} (hlast : ∀ slot ∈ front.getLast?, slot.takes = true)
    (arguments : List Text) :
    shown front (arguments.take (front.countP Slot.takes)) = shown front arguments := by
  unfold shown
  congr 1
  refine List.mapIdx_eq_mapIdx_iff.mpr fun place hplace => ?_
  rw [List.getElem?_take_of_lt (turn_lt hlast hplace)]

/-- Slots that take nothing all see the same argument. -/
theorem shown_escaped {behind : List Slot} (h : ∀ slot ∈ behind, slot.takes = false)
    (arguments : List Text) :
    shown behind arguments = behind.flatMap fun slot => slot.filled arguments[0]? := by
  induction behind with
  | nil => rfl
  | cons slot behind ih =>
      obtain ⟨hslot, hbehind⟩ := List.forall_mem_cons.mp h
      rw [shown_cons, hslot, Bool.toNat_false, List.drop_zero, ih hbehind]
      rfl

/-- Every outline can be cut behind its last taking slot, if it has one. -/
theorem Outline.exists_cut (outline : Outline) :
    ∃ front behind, outline.slots = front ++ behind
      ∧ (∀ slot ∈ front.getLast?, slot.takes = true) ∧ ∀ slot ∈ behind, slot.backslashes = 1 := by
  refine ⟨outline.slots.rdropWhile (!·.takes), outline.slots.rtakeWhile (!·.takes),
    List.rdropWhile_append_rtakeWhile.symm, ?_, ?_⟩
  · intro slot hslot
    obtain ⟨hne, rfl⟩ := List.mem_getLast?_eq_getLast hslot
    simpa using List.rdropWhile_last_not (!·.takes) outline.slots hne
  · intro slot hslot
    have htakes := List.mem_rtakeWhile_imp hslot
    simpa [Slot.takes] using htakes

section Cut

variable {outline : Outline} {front behind : List Slot}

theorem Outline.takers_eq (hslots : outline.slots = front ++ behind)
    (hbehind : ∀ slot ∈ behind, slot.backslashes = 1) :
    outline.takers = front.countP Slot.takes := by
  have hnone : behind.countP Slot.takes = 0 := by
    refine List.countP_eq_zero.mpr fun slot hslot => ?_
    simp [Slot.takes, hbehind slot hslot]
  rw [Outline.takers, hslots, List.countP_append, hnone, Nat.add_zero]

/-- What arguments become if there are enough of them: those behind the taken ones count by being
there or not. -/
theorem filled_of_cut (hslots : outline.slots = front ++ behind)
    (hlast : ∀ slot ∈ front.getLast?, slot.takes = true)
    (hbehind : ∀ slot ∈ behind, slot.backslashes = 1) {arguments : List Text}
    (henough : outline.takers ≤ arguments.length) :
    outline.filled arguments
      = shown front (arguments.take outline.takers)
        ++ (behind.flatMap fun slot =>
            if arguments.length = outline.takers then slot.text else slot.literal ++ placeholder)
        ++ outline.tail := by
  have htakers := Outline.takers_eq hslots hbehind
  have hescaped : ∀ slot ∈ behind, slot.takes = false := fun slot hslot => by
    simp [Slot.takes, hbehind slot hslot]
  rw [Outline.filled, hslots, shown_append, shown_escaped hescaped, List.getElem?_drop, htakers,
    shown_take hlast]
  congr 2
  refine List.flatMap_congr fun slot hslot => ?_
  split
  · next hall =>
    rw [List.getElem?_eq_none (by omega)]
    rfl
  · next hmore =>
    rw [List.getElem?_eq_getElem (by omega)]
    simp [Slot.filled, hbehind slot hslot]

theorem message_of_cut (hslots : outline.slots = front ++ behind)
    (hlast : ∀ slot ∈ front.getLast?, slot.takes = true)
    (hbehind : ∀ slot ∈ behind, slot.backslashes = 1) {arguments : List Argument}
    (hplain : ∀ argument ∈ arguments, argument.error? = none)
    (henough : outline.takers ≤ arguments.length) :
    (message outline.text arguments).1
      = shown front ((arguments.take outline.takers).map Argument.text)
        ++ (behind.flatMap fun slot =>
            if arguments.length = outline.takers then slot.text else slot.literal ++ placeholder)
        ++ outline.tail := by
  have hsplits : Argument.Splits arguments arguments none := by
    refine .nothing fun chain hchain => ?_
    have hnone := hplain _ (List.mem_of_getLast? hchain)
    cases hnone
  rw [message_of_splits hsplits, filled_of_cut hslots hlast hbehind (by simpa using henough),
    List.length_map, List.map_take]

/-- An escaped placeholder is one character longer with its backslash. -/
theorem length_flatMap_text {behind : List Slot} (h : ∀ slot ∈ behind, slot.backslashes = 1) :
    (behind.flatMap fun slot => slot.text).length
      = (behind.flatMap fun slot => slot.literal ++ placeholder).length + behind.length := by
  induction behind with
  | nil => rfl
  | cons slot behind ih =>
      obtain ⟨hslot, hbehind⟩ := List.forall_mem_cons.mp h
      have htext : slot.text.length = (slot.literal ++ placeholder).length + 1 := by
        simp [Slot.text, hslot]
        omega
      rw [List.flatMap_cons, List.flatMap_cons, List.length_append, List.length_append, htext,
        ih hbehind, List.length_cons]
      omega

end Cut

/-- **Arguments that are left over show in the escaped placeholders behind the last taking one, and
nowhere else.** With just as many arguments as the template takes, these placeholders keep their
backslash; with any more they lose it. So what is left over is ignored if and only if there is no
such placeholder. Every template is the text of one outline. -/
theorem surplus_shows_in_escapes (outline : Outline) {arguments : List Argument}
    (hplain : ∀ argument ∈ arguments, argument.error? = none)
    (henough : outline.takers ≤ arguments.length) :
    Function.Bijective Outline.text
      ∧ ∃ front behind, outline.slots = front ++ behind
        ∧ (∀ slot ∈ front.getLast?, slot.takes = true)
        ∧ (∀ slot ∈ behind, slot.backslashes = 1)
        ∧ (message outline.text arguments).1
            = shown front ((arguments.take outline.takers).map Argument.text)
              ++ (behind.flatMap fun slot =>
                  if arguments.length = outline.takers then slot.text
                  else slot.literal ++ placeholder)
              ++ outline.tail
        ∧ ((message outline.text arguments).1
              = (message outline.text (arguments.take outline.takers)).1
            ↔ arguments.length = outline.takers ∨ behind = []) := by
  obtain ⟨front, behind, hslots, hlast, hbehind⟩ := outline.exists_cut
  have hmessage := message_of_cut hslots hlast hbehind hplain henough
  refine ⟨Outline.text_bijective, front, behind, hslots, hlast, hbehind, hmessage, ?_⟩
  -- the same cut serves for the taken arguments alone, and the messages differ behind it at most
  have hlength : (arguments.take outline.takers).length = outline.takers :=
    List.length_take_of_le henough
  have htaken := message_of_cut hslots hlast hbehind
    (fun argument hargument => hplain argument (List.mem_of_mem_take hargument)) hlength.ge
  rw [hmessage, htaken, List.take_take, Nat.min_self, hlength, List.append_left_inj,
    List.append_right_inj]
  constructor
  · intro hsame
    by_cases hall : arguments.length = outline.takers
    · exact .inl hall
    · right
      -- each escaped placeholder would make one message longer than the other
      have hlengths := congrArg List.length hsame
      simp only [if_neg hall, ↓reduceIte] at hlengths
      have hbackslashes := length_flatMap_text hbehind
      exact List.eq_nil_of_length_eq_zero (by omega)
  · rintro (hall | rfl)
    · simp only [hall]
    · rfl

/-- The last placeholder is escaped, and so an argument too many shows. -/
theorem surplus_shows_in_escapes_last :
    ∃ outline : Outline, outline.text = "a\\{}".toList
      ∧ (∀ argument ∈ [Argument.null], argument.error? = none)
      ∧ outline.takers ≤ [Argument.null].length
      ∧ (message outline.text [.null]).1 ≠ (message outline.text []).1 := by
  let slot : Slot := ⟨['a'], 1, by decide, by decide⟩
  let outline : Outline := ⟨[slot], [], by decide⟩
  have hplain : ∀ argument ∈ [Argument.null], argument.error? = none := by simp [Argument.error?]
  have henough : outline.takers ≤ [Argument.null].length := by decide
  refine ⟨outline, rfl, hplain, henough, fun hsame => ?_⟩
  obtain ⟨-, front, behind, hslots, hlast, -, -, hiff⟩ :=
    surplus_shows_in_escapes outline hplain henough
  rcases hiff.mp hsame with hlength | rfl
  · exact absurd hlength (by decide)
  · rw [List.append_nil] at hslots
    have htakes : slot.takes = true := hlast slot (by rw [← hslots]; rfl)
    exact absurd htakes (by decide)

/-- This template takes one argument, and a second one takes the backslash off its escaped
placeholder. -/
theorem surplus_argument_unescapes :
    (∃ outline : Outline, outline.text = "{} \\{}".toList ∧ outline.takers = 1)
      ∧ (message "{} \\{}".toList [.value ['a']]).1 = "a \\{}".toList
      ∧ (message "{} \\{}".toList [.value ['a'], .value ['b']]).1 = "a {}".toList := by
  refine ⟨⟨⟨[⟨[], 0, ?_, ?_⟩, ⟨[' '], 1, ?_, ?_⟩], [], ?_⟩, ?_, ?_⟩, ?_, ?_⟩ <;> decide

end Template

end Logbook
