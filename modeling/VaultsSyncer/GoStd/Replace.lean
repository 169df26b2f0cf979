import Mathlib.Data.List.Infix
import VaultsSyncer.GoStd.Strings

/-! Replacing and trimming in strings. A text of parts with a separator before each is replaced part by
    part: `/w/` occurs first where the first part `w` is that has another one after it
    (`replaceFirst_parts`). -/

namespace GoStd

/-! ### The first occurrence -/

theorem isSome_replaceFirst (old new new' s : List Char) :
    (replaceFirst old new s).isSome = (replaceFirst old new' s).isSome := by
  induction s with
  | nil => simp only [replaceFirst]; split_ifs <;> rfl
  | cons c s ih =>
    simp only [replaceFirst]
    split_ifs
    · rfl
    · rw [Option.isSome_map, Option.isSome_map, ih]

theorem replaceFirst_append {sep : Char} {s : List Char} (h : sep ∉ s) (old new rest : List Char) :
    replaceFirst (sep :: old) new (s ++ rest) = (replaceFirst (sep :: old) new rest).map (s ++ ·) := by
  induction s with
  | nil => simp
  | cons c s ih =>
    rw [List.mem_cons, not_or] at h
    have hstart : (sep :: old).isPrefixOf (c :: (s ++ rest)) = false := by
      simp [List.isPrefixOf, h.1]
    rw [List.cons_append, replaceFirst, hstart, if_neg Bool.false_ne_true, ih h.2, Option.map_map]
    rfl

/-- The first part `w` that is not the last one, replaced. -/
def replacePart (w new : List Char) : List (List Char) → Option (List (List Char))
  | p :: q :: ps => if p = w then some (new :: q :: ps) else (replacePart w new (q :: ps)).map (p :: ·)
  | _ => none

theorem prefix_concat_sep {sep : Char} {w p rest : List Char} (hw : sep ∉ w) (hp : sep ∉ p) :
    w ++ [sep] <+: p ++ sep :: rest ↔ p = w := by
  constructor
  · rintro ⟨t, ht⟩
    rw [List.append_assoc, List.singleton_append] at ht
    have htake := congrArg (List.takeWhile (· ≠ sep)) ht
    have hall {l : List Char} (hl : sep ∉ l) : ∀ c ∈ l, decide (c ≠ sep) = true :=
      fun c hc => decide_eq_true fun heq => hl (heq ▸ hc)
    rw [List.takeWhile_append_of_pos (hall hw), List.takeWhile_append_of_pos (hall hp)] at htake
    simpa using htake.symm
  · rintro rfl
    exact ⟨rest, by simp⟩

theorem replaceFirst_parts {sep : Char} {w : List Char} (new : List Char) (hw : sep ∉ w)
    {parts : List (List Char)} (hparts : ∀ p ∈ parts, sep ∉ p) {first : List Char} (hfirst : sep ∉ first) :
    replaceFirst (sep :: w ++ [sep]) (sep :: new ++ [sep]) (first ++ parts.flatMap (sep :: ·)) =
      (replacePart w new parts).map fun ps => first ++ ps.flatMap (sep :: ·) := by
  induction parts generalizing first with
  | nil =>
    rw [List.cons_append, replaceFirst_append hfirst]
    rfl
  | cons p parts ih =>
    rw [List.forall_mem_cons] at hparts
    have ih := ih hparts.2 hparts.1
    rw [List.cons_append] at ih ⊢
    rw [replaceFirst_append hfirst, List.flatMap_cons, @List.cons_append _ sep p,
      replaceFirst]
    rcases parts with _ | ⟨q, ps⟩
    · -- the last part has no separator after it
      have hstart : (sep :: (w ++ [sep])).isPrefixOf (sep :: (p ++ [].flatMap (sep :: ·))) = false := by
        rw [Bool.eq_false_iff, ne_eq, List.isPrefixOf_iff_prefix, List.prefix_cons_inj,
          List.flatMap_nil, List.append_nil]
        exact fun h => hparts.1 (h.subset (by simp))
      rw [hstart, if_neg Bool.false_ne_true, ih]
      rfl
    · have hstart : (sep :: (w ++ [sep])).isPrefixOf (sep :: (p ++ (q :: ps).flatMap (sep :: ·))) = true ↔
          p = w := by
        rw [List.isPrefixOf_iff_prefix, List.prefix_cons_inj, List.flatMap_cons, List.cons_append]
        exact prefix_concat_sep hw hparts.1
      simp only [hstart, replacePart]
      split_ifs with h
      · subst h
        simp [List.flatMap_cons]
      · rw [ih]
        cases replacePart w new (q :: ps) <;> simp

/-! ### Suffixes -/

theorem hasSuffix_append (s t : String) : hasSuffix (s ++ t) t = true := by
  rw [hasSuffix, List.isSuffixOf_iff_suffix, String.toList_append]
  exact List.suffix_append _ _

theorem trimSuffix_append (s t : String) : trimSuffix (s ++ t) t = s := by
  rw [trimSuffix, if_pos (hasSuffix_append s t), String.toList_append, List.length_append,
    Nat.add_sub_cancel, List.take_left, String.ofList_toList]

theorem trimSuffix_of_not {s t : String} (h : ¬t.toList <:+ s.toList) : trimSuffix s t = s := by
  rw [trimSuffix, if_neg]
  rwa [hasSuffix, List.isSuffixOf_iff_suffix]

/-! ### Every occurrence -/

/-- A text is replaced part by part, where the pattern does not have the separator. -/
theorem replaceFrom_append_sep {old new : List Char} {sep : Char} (hold : old ≠ []) (hsep : sep ∉ old)
    {s : List Char} {skip : ℕ} (hskip : skip ≤ s.length) (rest : List Char) :
    replaceFrom old new skip (s ++ sep :: rest) =
      replaceFrom old new skip s ++ sep :: replaceFrom old new 0 rest := by
  induction s generalizing skip with
  | nil =>
    obtain rfl : skip = 0 := Nat.le_zero.mp hskip
    have hstart : old.isPrefixOf (sep :: rest) = false := by
      rcases old with _ | ⟨c, old⟩
      · exact absurd rfl hold
      · have hne : c ≠ sep := fun heq => hsep (heq ▸ List.mem_cons_self)
        simp [List.isPrefixOf, hne]
    change (if old.isPrefixOf (sep :: rest) = true then _ else _) = _
    rw [hstart, if_neg Bool.false_ne_true]
    rfl
  | cons c s ih =>
    rcases skip with _ | skip
    · -- the pattern ends before the separator, or is not there
      have hstart : old.isPrefixOf (c :: (s ++ sep :: rest)) = old.isPrefixOf (c :: s) := by
        rw [Bool.eq_iff_iff, List.isPrefixOf_iff_prefix, List.isPrefixOf_iff_prefix, ← List.cons_append]
        refine ⟨fun hpre => ?_, fun hpre => hpre.trans (List.prefix_append _ _)⟩
        rcases List.prefix_or_prefix_of_prefix hpre (List.prefix_append (c :: s) _) with h | ⟨t, rfl⟩
        · exact h
        · rw [List.prefix_append_right_inj] at hpre
          rcases t with _ | ⟨d, t⟩
          · rw [List.append_nil]
          · rw [List.cons_prefix_cons] at hpre
            exact absurd (List.mem_append_right _ (hpre.1 ▸ List.mem_cons_self)) hsep
      rw [List.cons_append, replaceFrom, hstart, replaceFrom]
      split_ifs with hfound
      · rw [List.isPrefixOf_iff_prefix] at hfound
        have hlength := hfound.length_le
        rw [List.length_cons] at hlength
        rw [ih (by omega), List.append_assoc]
      · rw [ih (Nat.zero_le _), List.cons_append]
    · exact ih (Nat.le_of_succ_le_succ hskip)

theorem replaceFrom_parts {old new : List Char} {sep : Char} (hold : old ≠ []) (hsep : sep ∉ old)
    (parts : List (List Char)) (first : List Char) :
    replaceFrom old new 0 (first ++ parts.flatMap (sep :: ·)) = replaceFrom old new 0 first ++
      (parts.map (replaceFrom old new 0)).flatMap (sep :: ·) := by
  induction parts generalizing first with
  | nil => simp
  | cons p parts ih =>
    rw [List.flatMap_cons, List.cons_append, replaceFrom_append_sep hold hsep (Nat.zero_le _), ih]
    rfl

/-- What is there afterwards was there before, or has been put in. -/
theorem mem_replaceFrom {old new : List Char} {c : Char} {skip : ℕ} {s : List Char}
    (h : c ∈ replaceFrom old new skip s) : c ∈ s ∨ c ∈ new := by
  induction s generalizing skip with
  | nil => exact .inl h
  | cons d s ih =>
    rcases skip with _ | skip
    · rw [replaceFrom] at h
      split_ifs at h
      · rcases List.mem_append.mp h with h | h
        · exact .inr h
        · exact (ih h).imp_left (List.mem_cons_of_mem _)
      · rcases List.mem_cons.mp h with rfl | h
        · exact .inl List.mem_cons_self
        · exact (ih h).imp_left (List.mem_cons_of_mem _)
    · exact (ih h).imp_left (List.mem_cons_of_mem _)

/-- An occurrence of the pattern is replaced as a whole. -/
theorem replaceFrom_pattern {old : List Char} (hold : old ≠ []) (new rest : List Char) :
    replaceFrom old new 0 (old ++ rest) = new ++ replaceFrom old new 0 rest := by
  have hskip (skipped : List Char) : replaceFrom old new skipped.length (skipped ++ rest) =
      replaceFrom old new 0 rest := by
    induction skipped with
    | nil => rfl
    | cons c skipped ih => exact ih
  rcases old with _ | ⟨c, old⟩
  · exact absurd rfl hold
  · have hstart : (c :: old).isPrefixOf (c :: (old ++ rest)) = true := by
      rw [List.isPrefixOf_iff_prefix, ← List.cons_append]
      exact List.prefix_append _ _
    rw [List.cons_append, replaceFrom, hstart, if_pos rfl]
    exact congrArg _ (hskip old)

end GoStd
