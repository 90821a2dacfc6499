import Crosscheck.Text.Basic
import Mathlib.Data.List.Basic
/-!
# Lists in the order of their entries

Two lists are compared at the first position at which they differ, and a list comes before every list that
it begins. This orders all lists if the entries are ordered, and texts are ordered so by code point.
-/

namespace Crosscheck

variable {α : Type} {le : α → α → Bool}

/-- The relation orders entries that are different. -/
structure OrdersDistinct (le : α → α → Bool) : Prop where
  total : ∀ {c d}, c ≠ d → le c d ∨ le d c
  antisymm : ∀ {c d}, c ≠ d → le c d → ¬ le d c
  trans : ∀ {c d e}, c ≠ d → d ≠ e → le c d → le d e → le c e

variable [DecidableEq α]

/-- The order of lists by their first difference. -/
def listPrecedes (le : α → α → Bool) : List α → List α → Bool
  | [], _ => true
  | _ :: _, [] => false
  | c :: cs, d :: ds => if c = d then listPrecedes le cs ds else le c d

namespace OrdersDistinct

variable {s t u : List α}

theorem list_total (h : OrdersDistinct le) (s t : List α) : listPrecedes le s t ∨ listPrecedes le t s := by
  induction s generalizing t with
  | nil => exact .inl rfl
  | cons c s ih =>
      cases t with
      | nil => exact .inr rfl
      | cons d t =>
          by_cases hcd : c = d
          · simpa [listPrecedes, hcd] using ih t
          · simpa [listPrecedes, hcd, Ne.symm hcd] using h.total hcd

theorem list_antisymm (h : OrdersDistinct le) (hst : listPrecedes le s t) (hts : listPrecedes le t s) :
    s = t := by
  induction s generalizing t with
  | nil =>
      cases t with
      | nil => rfl
      | cons d t => cases hts
  | cons c s ih =>
      cases t with
      | nil => cases hst
      | cons d t =>
          rw [listPrecedes] at hst hts
          by_cases hcd : c = d
          · subst hcd
            rw [if_pos rfl] at hst hts
            rw [ih hst hts]
          · rw [if_neg hcd] at hst
            rw [if_neg (Ne.symm hcd)] at hts
            exact absurd hts (h.antisymm hcd hst)

theorem list_trans (h : OrdersDistinct le) (hst : listPrecedes le s t) (htu : listPrecedes le t u) :
    listPrecedes le s u := by
  induction s generalizing t u with
  | nil => rfl
  | cons c s ih =>
      cases t with
      | nil => cases hst
      | cons d t =>
          cases u with
          | nil => cases htu
          | cons e u =>
              simp only [listPrecedes] at hst htu ⊢
              by_cases hcd : c = d
              · subst hcd
                by_cases hce : c = e
                · subst hce
                  simp only [if_true] at hst htu ⊢
                  exact ih hst htu
                · simpa [hce] using htu
              · simp only [hcd, if_false] at hst
                by_cases hde : d = e
                · subst hde
                  simpa [hcd] using hst
                · simp only [hde, if_false] at htu
                  have hce : c ≠ e := by
                    rintro rfl
                    exact h.antisymm hcd hst htu
                  simpa [hce] using h.trans hcd hde hst htu

end OrdersDistinct

namespace Text

variable {s t u : Text}

/-- The order of characters by code point. -/
def charBefore (c d : Char) : Bool := c.toNat < d.toNat

theorem charBefore_orders : OrdersDistinct charBefore where
  total hcd := by
    have hne : _ ≠ _ := fun h => hcd (Char.toNat_inj.mp h)
    simp only [charBefore, decide_eq_true_eq]
    omega
  antisymm _ := by
    simp only [charBefore, decide_eq_true_eq]
    omega
  trans _ _ := by
    simp only [charBefore, decide_eq_true_eq]
    omega

theorem precedes_eq (s t : Text) : precedes s t = listPrecedes charBefore s t := by
  induction s generalizing t with
  | nil => cases t <;> rfl
  | cons c s ih =>
      cases t with
      | nil => rfl
      | cons d t => simp only [precedes, listPrecedes, ih, charBefore]

theorem precedes_total (s t : Text) : precedes s t ∨ precedes t s := by
  simpa only [precedes_eq] using charBefore_orders.list_total s t

theorem precedes_antisymm (hst : precedes s t) (hts : precedes t s) : s = t := by
  rw [precedes_eq] at hst hts
  exact charBefore_orders.list_antisymm hst hts

theorem precedes_trans (hst : precedes s t) (htu : precedes t u) : precedes s u := by
  rw [precedes_eq] at hst htu ⊢
  exact charBefore_orders.list_trans hst htu

end Text

end Crosscheck
