import Mathlib.Algebra.Ring.Nat
import Mathlib.Data.List.Nodup

/-! A database table as a list of rows with a key: what a `SELECT`, an `UPDATE`, an `INSERT` and a
    `DELETE` on one key do to what is found under every key. A `Keyed` table carries that its key is
    unique. -/

namespace Schemes.Table

variable {α κ : Type} [DecidableEq κ] (key : α → κ)

/-- `SELECT … WHERE key = k`: the first row under `k`. -/
def lookup (k : κ) (l : List α) : Option α := l.find? fun r => key r = k

/-- `UPDATE … WHERE key = k`. -/
def modify (k : κ) (f : α → α) (l : List α) : List α := l.map fun r => if key r = k then f r else r

/-- The number of rows an `UPDATE … WHERE key = k` changes. -/
def affected (k : κ) (l : List α) : ℕ := l.countP fun r => key r = k

/-- `DELETE … WHERE key = k`. -/
def remove (k : κ) (l : List α) : List α := l.filter fun r => key r ≠ k

variable {key}

theorem lookup_eq_none {k : κ} {l : List α} : lookup key k l = none ↔ k ∉ l.map key := by
  simp only [lookup, List.find?_eq_none, decide_eq_true_eq, List.mem_map, not_exists, not_and]

theorem lookup_key {k : κ} {l : List α} {r : α} (h : lookup key k l = some r) : key r = k := by
  simpa using List.find?_some h

theorem lookup_mem {k : κ} {l : List α} {r : α} (h : lookup key k l = some r) : r ∈ l :=
  List.mem_of_find?_eq_some h

theorem affected_eq_zero {k : κ} {l : List α} : affected key k l = 0 ↔ lookup key k l = none := by
  simp only [affected, List.countP_eq_zero, decide_eq_true_eq, lookup_eq_none, List.mem_map,
    not_exists, not_and]

theorem affected_le_one {l : List α} (h : (l.map key).Nodup) (k : κ) : affected key k l ≤ 1 := by
  have hcount := List.nodup_iff_count_le_one.mp h k
  simpa [affected, List.count_eq_countP, List.countP_map, Function.comp_def, beq_eq_decide] using
    hcount

/-- An update that keeps the key changes what is found under that key and nothing else. -/
theorem lookup_modify {f : α → α} (hf : ∀ r, key (f r) = key r) (k k' : κ) (l : List α) :
    lookup key k' (modify key k f l) =
      if k' = k then (lookup key k l).map f else lookup key k' l := by
  induction l with
  | nil => simp [lookup, modify]
  | cons r l ih =>
    simp only [lookup, modify, List.map_cons, List.find?_cons] at ih ⊢
    rcases eq_or_ne (key r) k with hr | hr
    · rcases eq_or_ne k' k with rfl | hk
      · simp [hr, hf]
      · have hrk : key r ≠ k' := fun h => hk (h ▸ hr)
        simpa [hr, hf, hrk, hk, Ne.symm hk] using ih
    · rcases eq_or_ne (key r) k' with hr' | hr'
      · have hk : k' ≠ k := fun h => hr (hr'.trans h)
        simp [hr', hk]
      · simpa [hr, hr'] using ih

theorem map_key_modify {f : α → α} (hf : ∀ r, key (f r) = key r) (k : κ) (l : List α) :
    (modify key k f l).map key = l.map key := by
  rw [modify, List.map_map]
  refine List.map_congr_left fun r _ => ?_
  by_cases hr : key r = k <;> simp [hr, hf]

/-- An update that finds no row changes none. -/
theorem modify_of_absent {k : κ} {l : List α} (h : k ∉ l.map key) (f : α → α) :
    modify key k f l = l := by
  refine (List.map_congr_left fun r hr => if_neg ?_).trans (List.map_id l)
  rintro rfl
  exact h (List.mem_map_of_mem hr)

/-- What an update of one row adds to a sum over the rows. -/
theorem sum_map_modify (w : α → ℕ) {f : α → α} {k : κ} {l : List α} (h : (l.map key).Nodup) {r : α}
    (hr : lookup key k l = some r) :
    ((modify key k f l).map w).sum + w r = (l.map w).sum + w (f r) := by
  induction l with
  | nil => simp [lookup] at hr
  | cons a l ih =>
    obtain ⟨hfresh, hrest⟩ := List.nodup_cons.mp h
    simp only [modify, List.map_cons, List.sum_cons] at ih ⊢
    by_cases hk : key a = k
    · -- no other row has the key
      have hsame := modify_of_absent (hk ▸ hfresh) f
      rw [modify] at hsame
      obtain rfl : a = r := by simpa [lookup, hk] using hr
      rw [if_pos hk, hsame]
      omega
    · have hr' : lookup key k l = some r := by simpa [lookup, hk] using hr
      have hsum := ih hrest hr'
      rw [if_neg hk]
      omega

/-- A row added at the end is found under its key when nothing else is. -/
theorem lookup_concat (k : κ) (l : List α) (r : α) :
    lookup key k (l ++ [r]) =
      (lookup key k l).or (if key r = k then some r else none) := by
  simp only [lookup, List.find?_append, List.find?_cons, List.find?_nil]
  by_cases hr : key r = k <;> simp [hr]

theorem lookup_remove (k k' : κ) (l : List α) :
    lookup key k' (remove key k l) = if k' = k then none else lookup key k' l := by
  induction l with
  | nil => simp [lookup, remove]
  | cons r l ih =>
    simp only [lookup, remove] at ih ⊢
    rcases eq_or_ne (key r) k with hr | hr
    · rw [List.filter_cons_of_neg (by simp [hr]), ih]
      rcases eq_or_ne k' k with hk | hk
      · simp [hk]
      · simp [hk, hr, Ne.symm hk]
    · rw [List.filter_cons_of_pos (by simp [hr]), List.find?_cons, ih, List.find?_cons]
      rcases eq_or_ne (key r) k' with hr' | hr'
      · simp [hr', show k' ≠ k from hr' ▸ hr]
      · simp [hr']

/-- What is under the key of a row of the table is that row. -/
theorem lookup_of_mem {l : List α} (h : (l.map key).Nodup) {r : α} (hr : r ∈ l) :
    lookup key (key r) l = some r := by
  rcases hfound : lookup key (key r) l with _ | r'
  · exact absurd (List.mem_map_of_mem hr) (lookup_eq_none.mp hfound)
  · rw [List.inj_on_of_nodup_map h (lookup_mem hfound) hr (lookup_key hfound)]

theorem lookup_eq_some_iff {l : List α} (h : (l.map key).Nodup) {k : κ} {r : α} :
    lookup key k l = some r ↔ r ∈ l ∧ key r = k := by
  constructor
  · intro hfound
    exact ⟨lookup_mem hfound, lookup_key hfound⟩
  · rintro ⟨hr, rfl⟩
    exact lookup_of_mem h hr

/-- Under a unique key there is one row or none. -/
theorem filter_eq_toList {l : List α} (h : (l.map key).Nodup) (k : κ) :
    (l.filter fun r => key r = k) = (lookup key k l).toList := by
  induction l with
  | nil => rfl
  | cons r l ih =>
    obtain ⟨hfresh, hrest⟩ := List.nodup_cons.mp h
    by_cases hk : key r = k
    · have hnone : lookup key k l = none := lookup_eq_none.mpr (hk ▸ hfresh)
      rw [List.filter_cons_of_pos (by simpa using hk), ih hrest, hnone]
      simp [lookup, hk]
    · rw [List.filter_cons_of_neg (by simpa using hk), ih hrest]
      simp [lookup, hk]

/-- `DELETE … WHERE NOT p`, on any column. -/
theorem lookup_filter {l : List α} (h : (l.map key).Nodup) (p : α → Bool) (k : κ) :
    lookup key k (l.filter p) = (lookup key k l).filter p := by
  ext r
  rw [lookup_eq_some_iff (h.sublist (List.filter_sublist.map key)), Option.filter_eq_some_iff,
    lookup_eq_some_iff h, List.mem_filter]
  tauto

/-- A table whose key is unique. -/
structure Keyed {α κ : Type} (key : α → κ) where
  rows : List α
  keys_nodup : (rows.map key).Nodup

namespace Keyed

/-- The table of a fresh database. -/
def empty : Keyed key := ⟨[], by simp⟩

/-- The row under a key. -/
def lookup (t : Keyed key) (k : κ) : Option α := Table.lookup key k t.rows

/-- The number of rows an `UPDATE` on a key changes. -/
def affected (t : Keyed key) (k : κ) : ℕ := Table.affected key k t.rows

/-- `UPDATE … WHERE key = k` of columns outside the key. -/
def modify (t : Keyed key) (k : κ) (f : α → α) (hf : ∀ r, key (f r) = key r) : Keyed key where
  rows := Table.modify key k f t.rows
  keys_nodup := by rw [map_key_modify hf]; exact t.keys_nodup

/-- `INSERT` of a row whose key is free. -/
def insert (t : Keyed key) (r : α) (h : t.lookup (key r) = none) : Keyed key where
  rows := t.rows ++ [r]
  keys_nodup := by
    rw [List.map_append, List.map_singleton, List.nodup_append]
    refine ⟨t.keys_nodup, List.nodup_singleton _, ?_⟩
    rintro k hk k' hk' rfl
    rw [List.mem_singleton] at hk'
    exact lookup_eq_none.mp h (hk' ▸ hk)

/-- `DELETE … WHERE key = k`. -/
def remove (t : Keyed key) (k : κ) : Keyed key where
  rows := Table.remove key k t.rows
  keys_nodup := t.keys_nodup.sublist (List.filter_sublist.map key)

theorem lookup_modify (t : Keyed key) (k : κ) (f : α → α) (hf : ∀ r, key (f r) = key r) (k' : κ) :
    (t.modify k f hf).lookup k' = if k' = k then (t.lookup k).map f else t.lookup k' :=
  Table.lookup_modify hf k k' t.rows

theorem lookup_insert (t : Keyed key) (r : α) (h : t.lookup (key r) = none) (k : κ) :
    (t.insert r h).lookup k = if k = key r then some r else t.lookup k := by
  rw [lookup, insert, lookup_concat]
  rcases eq_or_ne k (key r) with rfl | hk
  · rw [show Table.lookup key (key r) t.rows = none from h]
    simp
  · simp [hk, Ne.symm hk, lookup]

theorem lookup_remove (t : Keyed key) (k k' : κ) :
    (t.remove k).lookup k' = if k' = k then none else t.lookup k' :=
  Table.lookup_remove k k' t.rows

theorem affected_eq_zero {t : Keyed key} {k : κ} : t.affected k = 0 ↔ t.lookup k = none :=
  Table.affected_eq_zero

theorem lookup_eq_some_iff {t : Keyed key} {k : κ} {r : α} :
    t.lookup k = some r ↔ r ∈ t.rows ∧ key r = k := Table.lookup_eq_some_iff t.keys_nodup

end Keyed

end Schemes.Table
