import Logbook.Text
import Mathlib.Data.List.Lex

/-!
# Logbook — the order of texts

Texts are ordered as in a dictionary: the first place where two texts differ decides, by the code
points there, and a text comes before every longer one that it begins.

* **`ComesBefore`** — this order, in its strict form.
* **`precedes_iff`** — the test that sorts texts is this order or equality.
* **`ComesBefore.append_left`** — what two texts begin with does not decide.
* **`pairwise_comesBefore_mergeSort`** — texts without a duplicate are sorted in strictly ascending
  order.
-/

namespace Logbook.Text

/-- One text stands before another one in the dictionary. -/
def ComesBefore (a b : Text) : Prop :=
  List.Lex (fun c d => c.toNat < d.toNat) a b

theorem precedes_iff {a b : Text} : precedes a b = true ↔ a = b ∨ a.ComesBefore b := by
  unfold ComesBefore
  -- on both texts at once, as the test reads them
  induction a generalizing b with
  | nil =>
      cases b with
      | nil => simp [precedes]
      | cons d rest => simp [precedes]
  | cons c more ih =>
      cases b with
      | nil => simp [precedes]
      | cons d rest =>
          rw [precedes, Bool.or_eq_true, Bool.and_eq_true, decide_eq_true_iff, beq_iff_eq, ih,
            List.cons.injEq]
          constructor
          · rintro (hless | ⟨rfl, rfl | hmore⟩)
            · exact .inr (.rel hless)
            · exact .inl ⟨rfl, rfl⟩
            · exact .inr (.cons hmore)
          · rintro (⟨rfl, rfl⟩ | hlex)
            · exact .inr ⟨rfl, .inl rfl⟩
            · cases hlex with
              | rel hless => exact .inl hless
              | cons hmore => exact .inr ⟨rfl, .inr hmore⟩

theorem ComesBefore.append_left {a b : Text} (h : a.ComesBefore b) (front : Text) :
    (front ++ a).ComesBefore (front ++ b) :=
  List.Lex.append_left _ h front

theorem ComesBefore.cons {a b : Text} (h : a.ComesBefore b) (c : Char) :
    ComesBefore (c :: a) (c :: b) :=
  h.append_left [c]

theorem ComesBefore.not_precedes {a b : Text} (h : a.ComesBefore b) : ¬ precedes b a = true := by
  intro hback
  rcases precedes_iff.mp hback with rfl | hback
  · exact List.lex_irrefl (fun c => Nat.lt_irrefl c.toNat) _ h
  · exact List.lex_asymm (fun {_ _} hless => Nat.lt_asymm hless) h hback

theorem precedes_trans (a b c : Text) (hab : precedes a b = true) (hbc : precedes b c = true) :
    precedes a c = true := by
  rw [precedes_iff] at hab hbc ⊢
  rcases hab with rfl | hab
  · exact hbc
  · rcases hbc with rfl | hbc
    · exact .inr hab
    · have htrans : ∀ {c d e : Char}, c.toNat < d.toNat → d.toNat < e.toNat → c.toNat < e.toNat :=
        Nat.lt_trans
      exact .inr (List.lex_trans htrans hab hbc)

theorem precedes_total (a b : Text) : (precedes a b || precedes b a) = true := by
  induction a generalizing b with
  | nil => rfl
  | cons c more ih =>
      cases b with
      | nil => rfl
      | cons d rest =>
          rcases Nat.lt_trichotomy c.toNat d.toNat with hless | hsame | hless
          · simp [precedes, hless]
          · obtain rfl : c = d := Char.toNat_inj.mp hsame
            simpa [precedes] using ih rest
          · simp [precedes, hless]

theorem precedes_antisymm {a b : Text} (hab : precedes a b = true) (hba : precedes b a = true) :
    a = b :=
  (precedes_iff.mp hab).resolve_right fun hless => hless.not_precedes hba

/-- The same texts in another order are sorted to the same list. -/
theorem mergeSort_congr {texts others : List Text} (h : texts.Perm others) :
    texts.mergeSort precedes = others.mergeSort precedes := by
  have hperm := (List.mergeSort_perm texts precedes).trans
    (h.trans (List.mergeSort_perm others precedes).symm)
  exact hperm.eq_of_pairwise (fun _ _ _ _ => precedes_antisymm)
    (List.pairwise_mergeSort precedes_trans precedes_total texts)
    (List.pairwise_mergeSort precedes_trans precedes_total others)

/-- **Texts without a duplicate are sorted in strictly ascending order.** -/
theorem pairwise_comesBefore_mergeSort {texts : List Text} (hnodup : texts.Nodup) :
    (texts.mergeSort precedes).Pairwise ComesBefore := by
  have hsorted := List.pairwise_mergeSort precedes_trans precedes_total texts
  have hdistinct : (texts.mergeSort precedes).Nodup :=
    (List.mergeSort_perm texts precedes).nodup_iff.mpr hnodup
  exact hsorted.imp₂ (fun a b hab hne => (precedes_iff.mp hab).resolve_left hne) hdistinct

end Logbook.Text
