import Logbook.Proofs.Properties.Spelling

/-!
# Logbook — escapes by code

Behind a backslash the letter `u` takes up to four characters. Four hexadecimal digits stand for the
character with this number, if there is one, and so do a plus sign and three of them; any other four
characters, and fewer at the end, stand for themselves behind the letter.

* **`Properties.IsClosed`** — the texts that protect nothing behind them: every escape in them is
  complete. `IsClosed.unescape_append` reads on from there.
* **`Properties.Denotes`** — what stands for a character, with a sign or only without one.
* **`Properties.codePoint?_eq_some_iff`** — and that is what the scanner takes for a code.
* **`Properties.DecodesCodes.unsigned_iff`** — what is written without a sign is decoded, and nothing
  else, exactly where no code has one.
* **`Properties.codes_decode`** — the headline, about the keys and values of logical lines. Without a
  sign it would not hold: `signed_code_decodes`.
-/

namespace Logbook

namespace Properties

/-! ## Digits -/

theorem isDigit_of_hexDigit? {digit : Char} {value : Nat}
    (h : Numeral.hexDigit? digit = some value) : IsDigit value digit := by
  have hall : ∀ n : Fin 103, ∀ value ∈ Numeral.hexDigit? (Char.ofNat n),
      value < 16 ∧ (Char.ofNat n = Nat.digitChar value
        ∨ Char.ofNat n = (Nat.digitChar value).toUpper) := by
    decide
  have hlast : digit.toNat ≤ 102 := by
    unfold Numeral.hexDigit? at h
    split_ifs at h with hdecimal hlower hupper
    · exact Nat.le_trans hdecimal.2 (by decide)
    · exact hlower.2
    · exact Nat.le_trans hupper.2 (by decide)
  have hdigit := hall ⟨digit.toNat, Nat.lt_succ_of_le hlast⟩ value
  rw [Char.ofNat_toNat] at hdigit
  exact hdigit h

theorem scalar?_eq_some_iff {code : Nat} {c : Char} : scalar? code = some c ↔ c.toNat = code := by
  constructor
  · intro h
    by_cases hvalid : code.isValidChar
    · rw [scalar?, dif_pos hvalid] at h
      exact (congrArg Char.toNat (Option.some.inj h)).symm
    · rw [scalar?, dif_neg hvalid] at h
      cases h
  · rintro rfl
    exact scalar?_toNat c

/-! ## Codes -/

/-- The texts that stand for a character behind the letter `u`: its number in four hexadecimal digits,
and, if a sign may be there, in three of them behind a plus. -/
inductive Denotes (signed : Prop) (c : Char) : Text → Prop
  | digits {w x y z : Char} {i j k l : Nat} (hw : IsDigit i w) (hx : IsDigit j x) (hy : IsDigit k y)
      (hz : IsDigit l z) (hcode : c.toNat = 16 * (16 * (16 * i + j) + k) + l) :
      Denotes signed c [w, x, y, z]
  | plus {x y z : Char} {j k l : Nat} (hsigned : signed) (hx : IsDigit j x) (hy : IsDigit k y)
      (hz : IsDigit l z) (hcode : c.toNat = 16 * (16 * j + k) + l) :
      Denotes signed c ['+', x, y, z]

theorem codePoint?_plus {c x y z : Char} {j k l : Nat} (hx : IsDigit j x) (hy : IsDigit k y)
    (hz : IsDigit l z) (hcode : c.toNat = 16 * (16 * j + k) + l) :
    codePoint? ['+', x, y, z] = some c := by
  have hread : Numeral.readHex? [x, y, z] = some c.toNat := by
    simp [Numeral.readHex?, hx.hexDigit?, hy.hexDigit?, hz.hexDigit?, hcode]
  rw [codePoint?, hread]
  exact scalar?_toNat c

theorem codePoint?_eq_some_iff {digits : Text} {c : Char} :
    codePoint? digits = some c ↔ Denotes True c digits := by
  constructor
  · intro h
    unfold codePoint? at h
    split at h
    · simp only [Numeral.readHex?] at h
      simp [Option.bind_eq_some_iff] at h
      obtain ⟨j, k, l, ⟨hx, hy, hz⟩, hcode⟩ := h
      exact .plus trivial (isDigit_of_hexDigit? hx) (isDigit_of_hexDigit? hy)
        (isDigit_of_hexDigit? hz) (scalar?_eq_some_iff.mp hcode)
    · simp [Numeral.readHex?, Option.bind_eq_some_iff] at h
      obtain ⟨i, j, k, l, ⟨hw, hx, hy, hz⟩, hcode⟩ := h
      exact .digits (isDigit_of_hexDigit? hw) (isDigit_of_hexDigit? hx) (isDigit_of_hexDigit? hy)
        (isDigit_of_hexDigit? hz) (scalar?_eq_some_iff.mp hcode)
    · cases h
  · intro h
    cases h with
    | digits hw hx hy hz hcode => exact codePoint?_digits hw hx hy hz hcode
    | plus _ hx hy hz hcode => exact codePoint?_plus hx hy hz hcode

/-! ## Escapes -/

/-- A text that protects nothing behind it: each backslash in it has its letter, and the letter `u`
has four characters. -/
inductive IsClosed : Text → Prop
  | nil : IsClosed []
  | plain {c : Char} {rest : Text} (hslash : c ≠ '\\') (hrest : IsClosed rest) : IsClosed (c :: rest)
  | letter {c : Char} {rest : Text} (hletter : c ≠ 'u') (hrest : IsClosed rest) :
      IsClosed ('\\' :: c :: rest)
  | code (w x y z : Char) {rest : Text} (hrest : IsClosed rest) :
      IsClosed ('\\' :: 'u' :: w :: x :: y :: z :: rest)

theorem unescape_code {w x y z decoded : Char} (h : codePoint? [w, x, y, z] = some decoded)
    (rest : Text) : unescape ('\\' :: 'u' :: w :: x :: y :: z :: rest) = decoded :: unescape rest := by
  simp only [unescape, h]

theorem unescape_no_code {w x y z : Char} (h : codePoint? [w, x, y, z] = none) (rest : Text) :
    unescape ('\\' :: 'u' :: w :: x :: y :: z :: rest) = 'u' :: w :: x :: y :: z :: unescape rest := by
  simp only [unescape, h]

theorem exists_four {text : Text} (h : ¬ text.length < 4) :
    ∃ w x y z rest, text = w :: x :: y :: z :: rest := by
  match text, h with
  | w :: x :: y :: z :: rest, _ => exact ⟨w, x, y, z, rest, rfl⟩
  | [], h | [_], h | [_, _], h | [_, _, _], h => exact (h (by simp)).elim

theorem unescape_short {short : Text} (h : short.length < 4) :
    unescape ('\\' :: 'u' :: short) = 'u' :: short := by
  match short, h with
  | [], _ => rfl
  | [_], _ => rfl
  | [_, _], _ => rfl
  | [_, _, _], _ => rfl

/-- **Behind a closed text reading begins anew.** -/
theorem IsClosed.unescape_append {front : Text} (h : IsClosed front) (rest : Text) :
    unescape (front ++ rest) = unescape front ++ unescape rest := by
  induction h with
  | nil => rfl
  | plain hslash _ ih =>
      rw [List.cons_append, unescape_cons hslash, unescape_cons hslash, ih, List.cons_append]
  | letter hletter _ ih =>
      rw [List.cons_append, List.cons_append, unescape_pair hletter, unescape_pair hletter, ih,
        List.cons_append]
  | code w x y z _ ih =>
      simp only [List.cons_append]
      cases hcode : codePoint? [w, x, y, z] with
      | some decoded => rw [unescape_code hcode, unescape_code hcode, ih, List.cons_append]
      | none =>
          rw [unescape_no_code hcode, unescape_no_code hcode, ih]
          rfl

/-- A text that is not closed ends within an escape. -/
inductive IsOpen : Text → Prop
  | letter {front : Text} (hfront : IsClosed front) : IsOpen (front ++ ['\\'])
  | code {front short : Text} (hfront : IsClosed front) (hshort : short.length < 4) :
      IsOpen (front ++ '\\' :: 'u' :: short)

theorem IsClosed.append {front rest : Text} (h : IsClosed front) (hrest : IsClosed rest) :
    IsClosed (front ++ rest) := by
  induction h with
  | nil => exact hrest
  | plain hslash _ ih => exact .plain hslash ih
  | letter hletter _ ih => exact .letter hletter ih
  | code w x y z _ ih => exact .code w x y z ih

theorem IsClosed.append_or {front rest : Text} (h : IsClosed front)
    (hrest : IsClosed rest ∨ IsOpen rest) : IsClosed (front ++ rest) ∨ IsOpen (front ++ rest) := by
  rcases hrest with hrest | hrest
  · exact .inl (h.append hrest)
  · right
    cases hrest with
    | letter hfront =>
        rw [← List.append_assoc]
        exact .letter (h.append hfront)
    | code hfront hshort =>
        rw [← List.append_assoc]
        exact .code (h.append hfront) hshort

theorem isClosed_or_isOpen (text : Text) : IsClosed text ∨ IsOpen text := by
  -- along the scanner, escape by escape
  fun_induction unescape text with
  | case1 => exact .inl .nil
  | case2 w x y z rest decoded hcode ih => exact (IsClosed.code w x y z .nil).append_or ih
  | case3 w x y z rest hcode ih => exact (IsClosed.code w x y z .nil).append_or ih
  | case4 short hshort =>
      refine .inr (.code .nil ?_)
      by_contra hlong
      obtain ⟨w, x, y, z, rest, rfl⟩ := exists_four hlong
      exact hshort w x y z rest rfl
  | case5 letter rest _ hletter ih => exact (IsClosed.letter hletter .nil).append_or ih
  | case6 => exact .inr (.letter .nil)
  | case7 c rest _ _ hpair hlast ih =>
      have hslash : c ≠ '\\' := by
        rintro rfl
        cases rest with
        | nil => exact hlast rfl rfl
        | cons d rest => exact hpair d rest rfl rfl
      exact (IsClosed.plain hslash .nil).append_or ih

theorem IsClosed.of_plain {c : Char} {rest : Text} (hslash : c ≠ '\\')
    (h : IsClosed (c :: rest)) : IsClosed rest := by
  cases h with
  | plain _ hrest => exact hrest
  | letter _ _ => exact absurd rfl hslash
  | code _ _ _ _ _ => exact absurd rfl hslash

theorem IsClosed.of_letter {c : Char} {rest : Text} (hletter : c ≠ 'u')
    (h : IsClosed ('\\' :: c :: rest)) : IsClosed rest := by
  cases h with
  | plain hslash _ => exact absurd rfl hslash
  | letter _ hrest => exact hrest
  | code _ _ _ _ _ => exact absurd rfl hletter

theorem IsClosed.of_code {w x y z : Char} {rest : Text}
    (h : IsClosed ('\\' :: 'u' :: w :: x :: y :: z :: rest)) : IsClosed rest := by
  cases h with
  | plain hslash _ => exact absurd rfl hslash
  | letter hletter _ => exact absurd rfl hletter
  | code _ _ _ _ hrest => exact hrest

theorem IsClosed.of_append {front rest : Text} (h : IsClosed front)
    (hwhole : IsClosed (front ++ rest)) : IsClosed rest := by
  induction h with
  | nil => exact hwhole
  | plain hslash _ ih => exact ih (hwhole.of_plain hslash)
  | letter hletter _ ih => exact ih (hwhole.of_letter hletter)
  | code w x y z _ ih => exact ih hwhole.of_code

theorem IsOpen.not_isClosed {text : Text} (h : IsOpen text) : ¬ IsClosed text := by
  intro hwhole
  cases h with
  | letter hfront =>
      cases hfront.of_append hwhole with
      | plain hslash _ => exact hslash rfl
  | code hfront hshort =>
      cases hfront.of_append hwhole with
      | plain hslash _ => exact hslash rfl
      | letter hletter _ => exact hletter rfl
      | code _ _ _ _ _ => exact absurd hshort (by simp)

/-! ## Decoding -/

/-- Wherever `\u` stands in the spelling with nothing to protect it, the text has the character that
the next four characters denote. Where they denote none, or are fewer, the text has the letter and
these characters themselves. -/
def DecodesCodes (signed : Prop) (spelled text : Text) : Prop :=
  ∀ front rest, IsClosed front → spelled = front ++ '\\' :: 'u' :: rest →
    (∀ c, Denotes signed c (rest.take 4) →
        text = unescape front ++ c :: unescape (rest.drop 4))
      ∧ ((¬ ∃ c, Denotes signed c (rest.take 4)) →
          text = unescape front ++ 'u' :: (rest.take 4 ++ unescape (rest.drop 4)))

theorem Denotes.length_eq {signed : Prop} {c : Char} {digits : Text} (h : Denotes signed c digits) :
    digits.length = 4 := by
  cases h <;> rfl

theorem decodesCodes_unescape (spelled : Text) : DecodesCodes True spelled (unescape spelled) := by
  rintro front rest hfront rfl
  rw [hfront.unescape_append]
  by_cases hshort : rest.length < 4
  · rw [unescape_short hshort, List.take_of_length_le (by omega), List.drop_of_length_le (by omega)]
    refine ⟨fun c hc => ?_, fun _ => by simp [unescape]⟩
    have hlength := hc.length_eq
    omega
  · obtain ⟨w, x, y, z, later, rfl⟩ := exists_four hshort
    constructor
    · intro c hc
      rw [unescape_code (codePoint?_eq_some_iff.mpr hc)]
      rfl
    · intro hnone
      have hcode : codePoint? [w, x, y, z] = none :=
        Option.eq_none_iff_forall_ne_some.mpr fun c hc => hnone ⟨c, codePoint?_eq_some_iff.mp hc⟩
      rw [unescape_no_code hcode]
      rfl

/-- Three digits behind a plus sign, where nothing protects their `\u`. -/
def HasSignedCode (spelled : Text) : Prop :=
  ∃ front x y z rest c, IsClosed front
    ∧ spelled = front ++ '\\' :: 'u' :: '+' :: x :: y :: z :: rest
    ∧ Denotes True c ['+', x, y, z]

theorem not_denotes_plus {c : Char} {digits : Text} : ¬ Denotes False c ('+' :: digits) := by
  intro h
  cases h with
  | digits hw _ _ _ _ => exact hw.plain.1 (by decide)
  | plus hsigned _ _ _ _ => exact hsigned

theorem Denotes.signed {c : Char} {digits : Text} (h : Denotes False c digits) :
    Denotes True c digits := by
  cases h with
  | digits hw hx hy hz hcode => exact .digits hw hx hy hz hcode
  | plus hsigned _ _ _ _ => exact hsigned.elim

theorem Denotes.unsigned_or_plus {c : Char} {digits : Text} (h : Denotes True c digits) :
    Denotes False c digits ∨ ∃ x y z, digits = ['+', x, y, z] := by
  cases h with
  | digits hw hx hy hz hcode => exact .inl (.digits hw hx hy hz hcode)
  | plus _ _ _ _ _ => exact .inr ⟨_, _, _, rfl⟩

/-- Where no code has a sign, and only there, the digits without one are all that is decoded. -/
theorem DecodesCodes.unsigned_iff {spelled text : Text} (h : DecodesCodes True spelled text) :
    DecodesCodes False spelled text ↔ ¬ HasSignedCode spelled := by
  constructor
  · rintro hunsigned ⟨front, x, y, z, rest, c, hfront, heq, hc⟩
    have hdecoded := (h front _ hfront heq).1 c hc
    have hkept := (hunsigned front _ hfront heq).2 fun ⟨_, hplus⟩ => not_denotes_plus hplus
    -- one character for the code in the one reading, five in the other
    have hlength := congrArg List.length (hdecoded.symm.trans hkept)
    simp at hlength
  · intro hnone front rest hfront heq
    obtain ⟨hdecoded, hkept⟩ := h front rest hfront heq
    constructor
    · exact fun c hc => hdecoded c hc.signed
    · intro hunsigned
      apply hkept
      rintro ⟨c, hc⟩
      obtain hdigits | ⟨x, y, z, hplus⟩ := hc.unsigned_or_plus
      · exact hunsigned ⟨c, hdigits⟩
      · refine hnone ⟨front, x, y, z, rest.drop 4, c, hfront, ?_, hplus ▸ hc⟩
        rw [heq, ← List.take_append_drop 4 rest, hplus]
        simp

theorem eq_unescape_cut {line key value : Text} (h : entry? line = some (key, value)) :
    key = unescape (cut line).1 ∧ value = unescape (cut line).2 := by
  unfold entry? at h
  dsimp only at h
  split at h
  · cases h
  · cases h
    exact ⟨rfl, rfl⟩

/-- **Codes decode, and nothing else does.** In the key and in the value of every logical line, each
`\u` that nothing protects is decoded if the number of a character follows, in four hexadecimal digits
or in three behind a plus sign, and else stays as it is without its backslash. Only the four digits are
decoded exactly where no three stand behind a plus sign. A `\u` is protected where the text in front
of it ends within an escape, and nowhere else. -/
theorem codes_decode {line key value : Text} (hentry : entry? line = some (key, value)) :
    DecodesCodes True (cut line).1 key ∧ DecodesCodes True (cut line).2 value
      ∧ (DecodesCodes False (cut line).1 key ↔ ¬ HasSignedCode (cut line).1)
      ∧ (DecodesCodes False (cut line).2 value ↔ ¬ HasSignedCode (cut line).2)
      ∧ ∀ front, ¬ IsClosed front ↔ IsOpen front := by
  obtain ⟨rfl, rfl⟩ := eq_unescape_cut hentry
  have hkey := decodesCodes_unescape (cut line).1
  have hvalue := decodesCodes_unescape (cut line).2
  refine ⟨hkey, hvalue, hkey.unsigned_iff, hvalue.unsigned_iff, fun front => ?_⟩
  exact ⟨(isClosed_or_isOpen front).resolve_left, IsOpen.not_isClosed⟩

/-- A code behind a protected backslash, one that ends in the next backslash, and one of a surrogate. -/
theorem codes_decode_mixed :
    let line := "\\\\\\u0041=\\u00\\u0041\\uD800".toList
    entry? line = some ("\\A".toList, "u00\\u0041uD800".toList)
      ∧ DecodesCodes True (cut line).1 "\\A".toList
      ∧ DecodesCodes True (cut line).2 "u00\\u0041uD800".toList := by
  intro line
  have hentry : entry? line = some ("\\A".toList, "u00\\u0041uD800".toList) := by decide +kernel
  have hcodes := codes_decode hentry
  exact ⟨hentry, hcodes.1, hcodes.2.1⟩

/-- A plus sign in front of three digits is taken for a digit. -/
theorem signed_code_decodes :
    entry? "k=\\u+041".toList = some ("k".toList, "A".toList)
      ∧ ¬ ∀ line key value, entry? line = some (key, value) →
          DecodesCodes False (cut line).1 key ∧ DecodesCodes False (cut line).2 value := by
  have hentry : entry? "k=\\u+041".toList = some ("k".toList, "A".toList) := by decide +kernel
  refine ⟨hentry, fun hall => ?_⟩
  have hvalue := (hall _ _ _ hentry).2 [] "+041".toList .nil (by decide +kernel)
  exact absurd (hvalue.2 fun ⟨_, hplus⟩ => not_denotes_plus hplus) (by decide +kernel)

end Properties

end Logbook
