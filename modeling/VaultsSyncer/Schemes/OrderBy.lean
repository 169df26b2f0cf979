import Mathlib.Data.List.Sort

/-! What a query `ORDER BY key DESC LIMIT n` can return. Rows whose keys tie may come in either order,
    so the answer is determined exactly if no tie reaches into the first `n` rows, nor lies across
    their end (`determined_iff`). -/

namespace Schemes.OrderBy

variable {α κ : Type*} [LinearOrder κ] {key : α → κ}

/-- The keys do not increase. -/
def Descending (key : α → κ) (l : List α) : Prop := l.Pairwise fun a b => key b ≤ key a

/-- The keys decrease, so none of them ties with another. -/
def Decreasing (key : α → κ) (l : List α) : Prop := l.Pairwise fun a b => key b < key a

instance (key : α → κ) (l : List α) : Decidable (Decreasing key l) :=
  inferInstanceAs (Decidable (l.Pairwise fun a b => key b < key a))

/-- An order in which the rows may come back. -/
structure Ordered (key : α → κ) (rows answer : List α) : Prop where
  perm : answer.Perm rows
  descending : Descending key answer

theorem descending_cons {a : α} {l : List α} :
    Descending key (a :: l) ↔ (∀ b ∈ l, key b ≤ key a) ∧ Descending key l := List.pairwise_cons

theorem decreasing_cons {a : α} {l : List α} :
    Decreasing key (a :: l) ↔ (∀ b ∈ l, key b < key a) ∧ Decreasing key l := List.pairwise_cons

/-- A row above its successor is above all rows after it. -/
theorem lt_of_head {a b : α} {l : List α} (hl : Descending key (b :: l)) (hab : key b < key a) :
    ∀ c ∈ b :: l, key c < key a := by
  intro c hc
  rcases List.mem_cons.mp hc with rfl | hc
  · exact hab
  · exact ((descending_cons.mp hl).1 c hc).trans_lt hab

/-- Without ties up to the row after the last one returned, every answer is the same. -/
theorem Ordered.take_eq {l p : List α} (hp : Ordered key l p) (hl : Descending key l) {n : ℕ}
    (hn : Decreasing key (l.take (n + 1))) : p.take n = l.take n := by
  induction n generalizing l p with
  | zero => simp
  | succ n ih =>
    cases l with
    | nil => rw [hp.perm.eq_nil]
    | cons a l =>
      rw [List.take_succ_cons, decreasing_cons] at hn
      have htop : ∀ c ∈ l, key c < key a := by
        intro c hc
        cases l with
        | nil => simp at hc
        | cons b l =>
          exact lt_of_head (descending_cons.mp hl).2 (hn.1 b (by simp)) c hc
      cases p with
      | nil => exact absurd hp.perm.symm.eq_nil (by simp)
      | cons b p =>
        -- the first row has the greatest key
        have hab : b = a := by
          have hb : b ∈ a :: l := hp.perm.mem_iff.mp (by simp)
          have ha : a ∈ b :: p := hp.perm.mem_iff.mpr (by simp)
          rcases List.mem_cons.mp hb with rfl | hb
          · rfl
          rcases List.mem_cons.mp ha with rfl | ha
          · rfl
          exact absurd (htop b hb) (not_lt.mpr ((descending_cons.mp hp.descending).1 a ha))
        subst hab
        rw [List.take_succ_cons, List.take_succ_cons]
        have hrest : Ordered key l p := ⟨hp.perm.cons_inv, (descending_cons.mp hp.descending).2⟩
        rw [ih hrest (descending_cons.mp hl).2 hn.2]

/-- Two neighbours that tie can be swapped. -/
theorem exists_take_ne {l : List α} (hl : Descending key l) (hnodup : l.Nodup) {n : ℕ}
    (hn : ¬Decreasing key (l.take (n + 1))) : ∃ p, Ordered key l p ∧ p.take n ≠ l.take n := by
  induction n generalizing l with
  | zero =>
    refine absurd ?_ hn
    cases l <;> simp [Decreasing]
  | succ n ih =>
    cases l with
    | nil => exact absurd (by simp [Decreasing]) hn
    | cons a l =>
      cases l with
      | nil => exact absurd (by simp [Decreasing]) hn
      | cons b l =>
        obtain ⟨hfirst, htail⟩ := descending_cons.mp hl
        obtain ⟨hne, hnodup'⟩ := List.nodup_cons.mp hnodup
        rcases (hfirst b (by simp)).lt_or_eq with hlt | heq
        · have hrest : ¬Decreasing key ((b :: l).take (n + 1)) := by
            intro hdec
            rw [List.take_succ_cons, decreasing_cons] at hn
            exact hn ⟨fun c hc => lt_of_head htail hlt c (List.mem_of_mem_take hc), hdec⟩
          obtain ⟨p, hp, hdiff⟩ := ih htail hnodup' hrest
          refine ⟨a :: p, ⟨hp.perm.cons a, ?_⟩, ?_⟩
          · rw [descending_cons]
            exact ⟨fun c hc => hfirst c (hp.perm.mem_iff.mp hc), hp.descending⟩
          · rw [List.take_succ_cons, List.take_succ_cons]
            exact fun h => hdiff (List.cons_eq_cons.mp h).2
        · refine ⟨b :: a :: l, ⟨List.Perm.swap a b l, ?_⟩, ?_⟩
          · rw [descending_cons, descending_cons]
            obtain ⟨hb, hdesc⟩ := descending_cons.mp htail
            refine ⟨?_, fun c hc => hfirst c (List.mem_cons_of_mem b hc), hdesc⟩
            intro c hc
            rcases List.mem_cons.mp hc with rfl | hc
            · exact heq.ge
            · exact hb c hc
          · intro h
            obtain rfl : b = a := (List.cons_eq_cons.mp (by simpa using h)).1
            exact hne (by simp)

/-- The first `n` rows come back in one order alone. -/
theorem determined_iff {l : List α} (hl : Descending key l) (hnodup : l.Nodup) (n : ℕ) :
    (∀ p, Ordered key l p → p.take n = l.take n) ↔ Decreasing key (l.take (n + 1)) := by
  constructor
  · intro h
    by_contra hn
    obtain ⟨p, hp, hne⟩ := exists_take_ne hl hnodup hn
    exact hne (h p hp)
  · exact fun hn p hp => hp.take_eq hl hn

end Schemes.OrderBy
