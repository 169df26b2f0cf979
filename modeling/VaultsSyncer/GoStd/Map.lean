import Mathlib.Data.List.Nodup

/-! A Go map as the list of its entries, each key once, in the order a range loop happens to take. What is
    stored under a key does not depend on that order (`lookup_perm`). -/

namespace GoStd

variable {κ α : Type} [DecidableEq κ] [BEq κ] [LawfulBEq κ]

omit [DecidableEq κ] in
theorem lookup_eq_none_iff_notMem {m : List (κ × α)} {k : κ} :
    m.lookup k = none ↔ k ∉ m.map Prod.fst := by
  rw [List.lookup_eq_none_iff, List.mem_map]
  constructor
  · rintro h ⟨e, he, rfl⟩
    simpa using h e he
  · intro h e he
    have hne : k ≠ e.1 := fun heq => h ⟨e, he, heq.symm⟩
    simpa using hne

theorem lookup_eq_some_iff_mem {m : List (κ × α)} (hnodup : (m.map Prod.fst).Nodup) {k : κ} {v : α} :
    m.lookup k = some v ↔ (k, v) ∈ m := by
  induction m with
  | nil => simp
  | cons e m ih =>
    obtain ⟨k', v'⟩ := e
    rw [List.map_cons, List.nodup_cons] at hnodup
    rw [List.lookup_cons, List.mem_cons, Prod.mk.injEq]
    by_cases h : k = k'
    · subst h
      have hnotMem : (k, v) ∉ m := fun hmem =>
        hnodup.1 (List.mem_map.mpr ⟨_, hmem, rfl⟩)
      simp [hnotMem, eq_comm]
    · rw [beq_eq_false_iff_ne.mpr h]
      simpa [h] using ih hnodup.2

theorem lookup_perm {m m' : List (κ × α)} (h : m.Perm m') (hnodup : (m.map Prod.fst).Nodup) (k : κ) :
    m'.lookup k = m.lookup k := by
  have hnodup' : (m'.map Prod.fst).Nodup := (h.map Prod.fst).nodup_iff.mp hnodup
  refine Option.ext fun v => ?_
  rw [lookup_eq_some_iff_mem hnodup, lookup_eq_some_iff_mem hnodup', h.mem_iff]

theorem lookup_filter_ne {k k' : κ} (h : k' ≠ k) : ∀ m : List (κ × α),
    (m.filter fun e => e.1 ≠ k).lookup k' = m.lookup k'
  | [] => rfl
  | (k'', a) :: m => by
      by_cases hk : k'' = k
      · subst hk
        have hne : (k' == k'') = false := beq_eq_false_iff_ne.mpr h
        rw [List.filter_cons_of_neg (by simp), List.lookup_cons, hne]
        exact lookup_filter_ne h m
      · simp only [List.filter_cons, ne_eq, hk, not_false_eq_true, decide_true, if_true,
          List.lookup_cons]
        split
        · rfl
        · exact lookup_filter_ne h m

/-- `m[k] = v`. -/
def setEntry (m : List (κ × α)) (k : κ) (v : α) : List (κ × α) := (k, v) :: m.filter fun e => e.1 ≠ k

theorem lookup_setEntry (m : List (κ × α)) (k k' : κ) (v : α) :
    (setEntry m k v).lookup k' = if k' = k then some v else m.lookup k' := by
  rw [setEntry, List.lookup_cons]
  split_ifs with h
  · rw [h, beq_self_eq_true]
  · rw [beq_eq_false_iff_ne.mpr h]
    exact lookup_filter_ne h m

omit [BEq κ] [LawfulBEq κ] in
theorem nodup_setEntry {m : List (κ × α)} (hnodup : (m.map Prod.fst).Nodup) (k : κ) (v : α) :
    ((setEntry m k v).map Prod.fst).Nodup := by
  rw [setEntry, List.map_cons, List.nodup_cons]
  refine ⟨fun hmem => ?_, hnodup.sublist (List.filter_sublist.map Prod.fst)⟩
  obtain ⟨e, he, rfl⟩ := List.mem_map.mp hmem
  simpa using List.of_mem_filter he

/-- `for … { m[k] = v }`. -/
def setEntries (m : List (κ × α)) (entries : List (κ × α)) : List (κ × α) :=
  entries.foldl (fun m e => setEntry m e.1 e.2) m

/-- A later entry replaces an earlier one. -/
theorem lookup_setEntries (m entries : List (κ × α)) (k : κ) :
    (setEntries m entries).lookup k = (entries.reverse.lookup k).or (m.lookup k) := by
  induction entries generalizing m with
  | nil => rfl
  | cons e entries ih =>
    rw [setEntries, List.foldl_cons, ← setEntries, ih, lookup_setEntry, List.reverse_cons,
      List.lookup_append, Option.or_assoc, List.lookup_cons]
    split_ifs with h
    · rw [h, beq_self_eq_true]
      rfl
    · rw [beq_eq_false_iff_ne.mpr h]
      rfl

theorem lookup_setEntries_of_nodup {m entries : List (κ × α)} (hnodup : (entries.map Prod.fst).Nodup)
    (k : κ) : (setEntries m entries).lookup k = (entries.lookup k).or (m.lookup k) := by
  rw [lookup_setEntries, lookup_perm entries.reverse_perm.symm hnodup]

omit [BEq κ] [LawfulBEq κ] in
theorem nodup_setEntries {m : List (κ × α)} (hnodup : (m.map Prod.fst).Nodup)
    (entries : List (κ × α)) : ((setEntries m entries).map Prod.fst).Nodup := by
  induction entries generalizing m with
  | nil => exact hnodup
  | cons e entries ih => exact ih (nodup_setEntry hnodup e.1 e.2)

/-- The entries of the keys that `f` has something for. -/
theorem lookup_filterMap (f : κ → Option α) (keys : List κ) (k : κ) :
    (keys.filterMap fun k => (f k).map (k, ·)).lookup k = if k ∈ keys then f k else none := by
  induction keys with
  | nil => simp
  | cons k' keys ih =>
    by_cases h : k = k'
    · subst h
      rcases hf : f k with _ | v
      · rw [List.filterMap_cons_none (by rw [hf]; rfl), ih, hf]
        simp
      · rw [List.filterMap_cons_some (by rw [hf]; rfl), List.lookup_cons, beq_self_eq_true]
        simp
    · have hbeq : (k == k') = false := beq_eq_false_iff_ne.mpr h
      rcases hf : f k' with _ | v
      · rw [List.filterMap_cons_none (by rw [hf]; rfl), ih]
        simp [h]
      · rw [List.filterMap_cons_some (by rw [hf]; rfl), List.lookup_cons, hbeq, ih]
        simp [h]

end GoStd
