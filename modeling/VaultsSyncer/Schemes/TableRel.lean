import Mathlib.Data.List.Sort
import VaultsSyncer.Schemes.Table

/-! Two tables row by row. Where the rows go together under a relation that their keys respect, so do the
    rows that a statement finds, leaves or puts in order.

        rows     a₁  a₂  a₃          WHERE key = k          a₂
                 R   R   R                                  R
        rows'    b₁  b₂  b₃          WHERE key' = k         b₂ -/

namespace Schemes.Table

open List

variable {α β κ : Type} [DecidableEq κ] {R : α → β → Prop} {key : α → κ} {key' : β → κ} {l : List α}
  {l' : List β}

theorem rel_lookup (h : Forall₂ R l l') (hkey : ∀ a b, R a b → key a = key' b) (k : κ) :
    Option.Rel R (lookup key k l) (lookup key' k l') := by
  induction h with
  | nil => exact .none
  | @cons a b l l' hab _ ih =>
    by_cases hk : key a = k
    · have hk' : key' b = k := (hkey a b hab).symm.trans hk
      simp only [lookup, find?_cons, hk, hk', decide_true]
      exact .some hab
    · have hk' : key' b ≠ k := fun h => hk ((hkey a b hab).trans h)
      simpa only [lookup, find?_cons, hk, hk', decide_false] using ih

theorem rel_affected (h : Forall₂ R l l') (hkey : ∀ a b, R a b → key a = key' b) (k : κ) :
    affected key k l = affected key' k l' := by
  induction h with
  | nil => rfl
  | @cons a b l l' hab _ ih =>
    simp only [affected, countP_cons, hkey a b hab] at ih ⊢
    rw [ih]

theorem rel_modify (h : Forall₂ R l l') (hkey : ∀ a b, R a b → key a = key' b) {f : α → α} {f' : β → β}
    (k : κ) (hf : ∀ a b, R a b → R (f a) (f' b)) : Forall₂ R (modify key k f l) (modify key' k f' l') := by
  refine rel_map (P := R) (fun a b hab => ?_) h
  rw [hkey a b hab]
  split_ifs
  · exact hf a b hab
  · exact hab

theorem rel_remove (h : Forall₂ R l l') (hkey : ∀ a b, R a b → key a = key' b) (k : κ) :
    Forall₂ R (remove key k l) (remove key' k l') := by
  refine rel_filter (fun a b hab => ?_) h
  simp only [hkey a b hab]

variable {r : α → α → Prop} {r' : β → β → Prop} [DecidableRel r] [DecidableRel r']

theorem rel_orderedInsert {a : α} {b : β} (hab : R a b) (h : Forall₂ R l l')
    (hr : ∀ a b, R a b → ∀ c d, R c d → (r a c ↔ r' b d)) :
    Forall₂ R (orderedInsert r a l) (orderedInsert r' b l') := by
  induction h with
  | nil => exact .cons hab .nil
  | @cons c d l l' hcd hrest ih =>
    simp only [orderedInsert, hr a b hab c d hcd]
    split_ifs
    · exact .cons hab (.cons hcd hrest)
    · exact .cons hcd ih

theorem rel_insertionSort (h : Forall₂ R l l')
    (hr : ∀ a b, R a b → ∀ c d, R c d → (r a c ↔ r' b d)) :
    Forall₂ R (insertionSort r l) (insertionSort r' l') := by
  induction h with
  | nil => exact .nil
  | cons hab _ ih => exact rel_orderedInsert hab ih hr

end Schemes.Table
