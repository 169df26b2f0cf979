import VaultsSyncer.Schemes.Glob
import VaultsSyncer.Sync.Engine

/-! Which names the patterns of a filter let through. `matchPattern` looks at one star, the first or
    the last character of the pattern; it takes every other star for a plain character. -/

namespace VaultsSyncer

open GoStd Schemes

/-! ### Patterns -/

theorem utf8_star_cons {s : String} {q : List Char} (h : s.toList = '*' :: q) :
    utf8 s = 42 :: utf8 (String.ofList q) := by
  rw [utf8_eq_flatMap, h, List.flatMap_cons, utf8_eq_flatMap, String.toList_ofList]
  rfl

theorem utf8_concat_star {s : String} {q : List Char} (h : s.toList = q ++ ['*']) :
    utf8 s = utf8 (String.ofList q) ++ [42] := by
  rw [utf8_eq_flatMap, h, List.flatMap_append, utf8_eq_flatMap, String.toList_ofList]
  rfl

/-- The first byte is a star where the first character is one. -/
theorem head_utf8_eq_star {s : String} : (utf8 s).head? = some 42 ↔ s.toList.head? = some '*' := by
  have hprefix : utf8 "*" <+: utf8 s ↔ ['*'] <+: s.toList := utf8_prefix_iff
  rw [List.head?_eq_some_iff, List.head?_eq_some_iff]
  constructor
  · rintro ⟨bs, hbs⟩
    obtain ⟨q, hq⟩ := hprefix.mp ⟨bs, hbs.symm⟩
    exact ⟨q, hq.symm⟩
  · rintro ⟨q, hq⟩
    exact ⟨_, utf8_star_cons hq⟩

theorem getLast_utf8_eq_star {s : String} :
    (utf8 s).getLast? = some 42 ↔ ∃ q, s.toList = q ++ ['*'] := by
  have hsuffix : utf8 "*" <:+ utf8 s ↔ ['*'] <:+ s.toList := utf8_suffix_iff
  rw [List.getLast?_eq_some_iff]
  constructor
  · rintro ⟨bs, hbs⟩
    obtain ⟨q, hq⟩ := hsuffix.mp ⟨bs, hbs.symm⟩
    exact ⟨q, hq.symm⟩
  · rintro ⟨q, hq⟩
    exact ⟨_, utf8_concat_star hq⟩

/-- What `matchPattern` does, on characters. -/
theorem matchPattern_iff_endMatch {pattern name : String} :
    matchPattern pattern name = true ↔ EndMatch '*' pattern.toList name.toList := by
  unfold matchPattern
  by_cases hall : pattern = "*"
  · subst hall
    exact iff_of_true rfl (.inr (.inl ⟨[], rfl, List.nil_suffix⟩))
  by_cases heq : pattern = name
  · subst heq
    rw [if_neg hall, if_pos rfl]
    exact iff_of_true rfl (.inl rfl)
  have hne : pattern.toList ≠ name.toList := fun h => heq (String.toList_injective h)
  simp only [if_neg hall, if_neg heq, EndMatch, hne, false_or]
  by_cases hhead : pattern.toList.head? = some '*'
  · obtain ⟨q, hq⟩ := List.head?_eq_some_iff.mp hhead
    have hends : (∃ q', pattern.toList = '*' :: q' ∧ q' <:+ name.toList) ↔
        utf8 (String.ofList q) <:+ utf8 name := by
      rw [utf8_suffix_iff, String.toList_ofList, hq]
      simp
    simp only [hends, hhead, ne_eq, not_true_eq_false, false_and, or_false, utf8_star_cons hq,
      List.head?_cons, true_and, List.length_cons, Nat.add_sub_cancel, List.drop_succ_cons,
      List.drop_zero]
    by_cases hlen : (utf8 (String.ofList q)).length ≤ (utf8 name).length
    · rw [if_pos hlen, decide_eq_true_eq, List.suffix_iff_eq_drop, eq_comm]
    · -- a name that is too short has no such end, and no such beginning
      rw [if_neg hlen, if_pos (not_le.mp hlen), ite_self]
      exact iff_of_false Bool.false_ne_true fun h => hlen h.length_le
  · have hhead' : ¬(utf8 pattern).head? = some 42 := mt head_utf8_eq_star.mp hhead
    have hfront : ¬∃ q, pattern.toList = '*' :: q ∧ q <:+ name.toList := by
      rintro ⟨q, hq, -⟩
      exact hhead (List.head?_eq_some_iff.mpr ⟨q, hq⟩)
    simp only [hhead', hhead, hfront, false_and, if_false, false_or, ne_eq, not_false_eq_true, true_and]
    by_cases hlast : ∃ q, pattern.toList = q ++ ['*']
    · obtain ⟨q, hq⟩ := hlast
      have hends : (∃ q', pattern.toList = q' ++ ['*'] ∧ q' <+: name.toList) ↔
          utf8 (String.ofList q) <+: utf8 name := by
        rw [utf8_prefix_iff, String.toList_ofList, hq]
        simp
      simp only [hends, utf8_concat_star hq, List.getLast?_concat, if_true, List.length_append,
        List.length_singleton, Nat.add_sub_cancel, List.take_left]
      by_cases hlen : (utf8 name).length < (utf8 (String.ofList q)).length
      · rw [if_pos hlen]
        exact iff_of_false Bool.false_ne_true fun h => hlen.not_ge h.length_le
      · rw [if_neg hlen, decide_eq_true_eq, List.prefix_iff_eq_take, eq_comm]
    · rw [if_neg (mt getLast_utf8_eq_star.mp hlast)]
      refine iff_of_false Bool.false_ne_true ?_
      rintro ⟨q, hq, -⟩
      exact hlast ⟨q, hq⟩

/-- Whatever matches a pattern is one of its words; and all of them match exactly where the pattern has
    no star but a single one in front or at the end. -/
theorem matchPattern_globs (pattern : String) :
    (∀ name, matchPattern pattern name = true → name.toList ∈ glob '*' pattern.toList) ∧
    ((∀ name : String, matchPattern pattern name = true ↔ name.toList ∈ glob '*' pattern.toList) ↔
      Anchored '*' pattern.toList) := by
  refine ⟨fun name h => (matchPattern_iff_endMatch.mp h).mem_glob, ?_⟩
  simp only [matchPattern_iff_endMatch]
  rw [← endMatch_iff_mem_glob]
  constructor
  · intro h x
    simpa using h (String.ofList x)
  · intro h name
    exact h name.toList

/-- A star inside matches nothing but itself, and so does one of two stars. -/
theorem matchPattern_misses :
    ¬(matchPattern "db-*-prod" "db-eu-prod" = true ↔
      "db-eu-prod".toList ∈ glob '*' "db-*-prod".toList) ∧
    ¬(matchPattern "*prod*" "my-prod-key" = true ↔
      "my-prod-key".toList ∈ glob '*' "*prod*".toList) := by
  have hinside : "db-".toList ++ "eu".toList ++ "-prod".toList ∈
      glob '*' ("db-".toList ++ ['*'] ++ "-prod".toList) :=
    append_mem_glob (append_mem_glob (mem_glob_self _) (mem_glob_star _)) (mem_glob_self _)
  have htwo : "my-".toList ++ "prod".toList ++ "-key".toList ∈
      glob '*' (['*'] ++ "prod".toList ++ ['*']) :=
    append_mem_glob (append_mem_glob (mem_glob_star _) (mem_glob_self _)) (mem_glob_star _)
  constructor
  · intro h
    exact absurd (h.mpr hinside) (by decide +kernel)
  · intro h
    exact absurd (h.mpr htwo) (by decide +kernel)

/-! ### Filters -/

/-- No exclude pattern matches the name, and one of the patterns does if there are any. -/
def FilterConfig.Admits (filter : FilterConfig) (name : String) : Prop :=
  (∀ pattern ∈ filter.exclude, matchPattern pattern name = false) ∧
    (filter.patterns ≠ [] → ∃ pattern ∈ filter.patterns, matchPattern pattern name = true)

instance (filter : FilterConfig) (name : String) : Decidable (filter.Admits name) :=
  inferInstanceAs (Decidable (_ ∧ _))

/-- The test in the body of the loop. -/
theorem admits_iff {filter : FilterConfig} {name : String} :
    (if filter.exclude.any fun pattern => matchPattern pattern name then false
      else if filter.patterns = [] then true
      else filter.patterns.any fun pattern => matchPattern pattern name) = true ↔
      filter.Admits name := by
  unfold FilterConfig.Admits
  by_cases hexclude : filter.exclude.any fun pattern => matchPattern pattern name
  · obtain ⟨pattern, hmem, hmatch⟩ := List.any_eq_true.mp hexclude
    rw [if_pos hexclude]
    refine iff_of_false Bool.false_ne_true fun h => ?_
    exact Bool.false_ne_true ((h.1 pattern hmem).symm.trans hmatch)
  · have hnone : ∀ pattern ∈ filter.exclude, matchPattern pattern name = false := by
      intro pattern hmem
      exact Bool.eq_false_iff.mpr fun hmatch => hexclude (List.any_eq_true.mpr ⟨pattern, hmem, hmatch⟩)
    rw [if_neg hexclude, and_iff_right hnone]
    by_cases hpatterns : filter.patterns = []
    · rw [if_pos hpatterns]
      exact iff_of_true rfl fun h => absurd hpatterns h
    · rw [if_neg hpatterns, List.any_eq_true, imp_iff_right hpatterns]

/-- The way past the loop keeps what the loop would keep. -/
theorem admits_of_empty {filter : FilterConfig} (h : filter.patterns = [] ∧ filter.exclude = [])
    (name : String) : filter.Admits name := by
  rw [FilterConfig.Admits, h.1, h.2]
  exact ⟨fun _ hmem => absurd hmem List.not_mem_nil, fun hne => absurd rfl hne⟩

theorem filterSecrets_eq_filter (secrets : List String) (filter : FilterConfig) :
    filterSecrets secrets filter = secrets.filter fun name => filter.Admits name := by
  unfold filterSecrets
  by_cases h : filter.patterns = [] ∧ filter.exclude = []
  · rw [if_pos h]
    refine (List.filter_eq_self.mpr fun name _ => ?_).symm
    exact decide_eq_true (admits_of_empty h name)
  · rw [if_neg h]
    refine List.filter_congr fun name _ => Bool.eq_iff_iff.mpr ?_
    rw [admits_iff, decide_eq_true_eq]

theorem filterSecrets_sublist (secrets : List String) (filter : FilterConfig) :
    (filterSecrets secrets filter).Sublist secrets := by
  rw [filterSecrets_eq_filter]
  exact List.filter_sublist

/-- With more to exclude, no further name is admitted. -/
theorem FilterConfig.Admits.mono {filter : FilterConfig} {exclude : List String}
    (hsub : filter.exclude ⊆ exclude) {name : String}
    (h : { filter with exclude := exclude }.Admits name) : filter.Admits name :=
  ⟨fun pattern hmem => h.1 pattern (hsub hmem), h.2⟩

/-- `filterSecrets` leaves the names that the filter admits, in their order and as often as they were.
    So excluding more adds no name, a name that is excluded is gone whatever the patterns say, and to
    filter again changes nothing. -/
theorem filterSecrets_spec (secrets : List String) (filter : FilterConfig) :
    (filterSecrets secrets filter = secrets.filter fun name => filter.Admits name) ∧
    (∀ name, (filterSecrets secrets filter).count name =
      if filter.Admits name then secrets.count name else 0) ∧
    (∀ exclude, filter.exclude ⊆ exclude →
      (filterSecrets secrets { filter with exclude := exclude }).Sublist (filterSecrets secrets filter)) ∧
    (∀ name, ∀ pattern ∈ filter.exclude, matchPattern pattern name = true →
      name ∉ filterSecrets secrets filter) ∧
    filterSecrets (filterSecrets secrets filter) filter = filterSecrets secrets filter := by
  simp only [filterSecrets_eq_filter]
  refine ⟨trivial, fun name => ?_, fun exclude hsub => ?_, fun name pattern hmem hmatch hname => ?_, ?_⟩
  · split_ifs with h
    · exact List.count_filter (p := fun name => decide (filter.Admits name)) (decide_eq_true h)
    · refine List.count_eq_zero.mpr fun hname => h ?_
      exact of_decide_eq_true (List.mem_filter.mp hname).2
  · refine List.monotone_filter_right secrets fun name h => ?_
    exact decide_eq_true ((of_decide_eq_true h : FilterConfig.Admits _ name).mono hsub)
  · have hadmits : filter.Admits name := of_decide_eq_true (List.mem_filter.mp hname).2
    exact Bool.false_ne_true ((hadmits.1 pattern hmem).symm.trans hmatch)
  · rw [List.filter_filter]
    simp

example : filterSecrets ["db-a", "tmp", "db-b", "db-a"] { patterns := ["db-*"], exclude := ["*-b"] } =
    ["db-a", "db-a"] := by decide +kernel

end VaultsSyncer
