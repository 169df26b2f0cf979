import Mathlib.Computability.Language

/-! Glob patterns over any alphabet. One letter is the *star* and stands for any word; every other
    letter stands for itself.

        a * b     ↦     {a} · ⊤ · {b}

    The patterns that are *anchored* have no star, or one at an end. For them it takes one comparison
    to match a word: of the whole of it, of its end, or of its beginning. -/

namespace Schemes

variable {α : Type} [DecidableEq α]

/-- The words that a pattern stands for. -/
def glob (star : α) (p : List α) : Language α :=
  (p.map fun a => if a = star then (⊤ : Language α) else {[a]}).prod

variable {star : α} {p q x y : List α}

@[simp] theorem glob_nil : glob star [] = 1 := rfl

@[simp] theorem glob_star : glob star [star] = ⊤ := by
  simp [glob]

theorem glob_letter {a : α} (h : a ≠ star) : glob star [a] = {[a]} := by
  simp [glob, h]

theorem glob_append (p q : List α) : glob star (p ++ q) = glob star p * glob star q := by
  rw [glob, List.map_append, List.prod_append]
  rfl

theorem append_mem_glob (hx : x ∈ glob star p) (hy : y ∈ glob star q) : x ++ y ∈ glob star (p ++ q) := by
  rw [glob_append]
  exact Language.append_mem_mul hx hy

theorem mem_glob_star (x : List α) : x ∈ glob star [star] := by
  rw [glob_star]
  exact Set.mem_univ x

/-- A pattern is one of its words: a star can stand for itself. -/
theorem mem_glob_self (p : List α) : p ∈ glob star p := by
  induction p with
  | nil => exact Language.nil_mem_one
  | cons a p ih =>
    have hletter : [a] ∈ glob star [a] := by
      by_cases ha : a = star
      · rw [ha]
        exact mem_glob_star _
      · rw [glob_letter ha]
        exact Set.mem_singleton _
    exact append_mem_glob hletter ih

/-- The shortest of its words is what is left without the stars. -/
theorem filter_mem_glob (p : List α) : p.filter (· ≠ star) ∈ glob star p := by
  induction p with
  | nil => exact Language.nil_mem_one
  | cons a p ih =>
    by_cases ha : a = star
    · rw [List.filter_cons_of_neg (by simp [ha]), ha]
      exact append_mem_glob (mem_glob_star []) ih
    · rw [List.filter_cons_of_pos (by simp [ha])]
      have hletter : [a] ∈ glob star [a] := by
        rw [glob_letter ha]
        exact Set.mem_singleton _
      exact append_mem_glob hletter ih

/-- A pattern without stars has no other word. -/
theorem mem_glob_of_notMem (h : star ∉ p) : x ∈ glob star p ↔ x = p := by
  induction p generalizing x with
  | nil => exact Language.mem_one x
  | cons a p ih =>
    obtain ⟨ha, hp⟩ := not_or.mp (mt List.mem_cons.mpr h)
    rw [← List.singleton_append, glob_append, glob_letter (Ne.symm ha), Language.mem_mul]
    constructor
    · rintro ⟨u, hu, v, hv, rfl⟩
      rw [(ih hp).mp hv, Set.mem_singleton_iff.mp hu]
    · rintro rfl
      exact ⟨[a], Set.mem_singleton _, p, (ih hp).mpr rfl, rfl⟩

theorem mem_glob_star_cons : x ∈ glob star (star :: p) ↔ ∃ y ∈ glob star p, y <:+ x := by
  rw [← List.singleton_append, glob_append, Language.mem_mul]
  constructor
  · rintro ⟨u, -, y, hy, rfl⟩
    exact ⟨y, hy, List.suffix_append u y⟩
  · rintro ⟨y, hy, u, rfl⟩
    exact ⟨u, mem_glob_star u, y, hy, rfl⟩

theorem mem_glob_concat_star : x ∈ glob star (p ++ [star]) ↔ ∃ y ∈ glob star p, y <+: x := by
  rw [glob_append, Language.mem_mul]
  constructor
  · rintro ⟨y, hy, u, -, rfl⟩
    exact ⟨y, hy, List.prefix_append y u⟩
  · rintro ⟨y, hy, u, rfl⟩
    exact ⟨y, hy, u, mem_glob_star u, rfl⟩

/-! ### Matching by one comparison -/

/-- A word is the pattern; or the first letter is a star, and it ends in the rest; or else the last one
    is a star, and it begins with the rest. -/
def EndMatch (star : α) (p x : List α) : Prop :=
  p = x ∨ (∃ q, p = star :: q ∧ q <:+ x) ∨ p.head? ≠ some star ∧ ∃ q, p = q ++ [star] ∧ q <+: x

/-- No star, or one at an end. -/
def Anchored (star : α) (p : List α) : Prop :=
  star ∉ p ∨ ∃ q, star ∉ q ∧ (p = star :: q ∨ p = q ++ [star])

/-- One comparison finds words of the pattern only, whatever the pattern. -/
theorem EndMatch.mem_glob (h : EndMatch star p x) : x ∈ glob star p := by
  rcases h with rfl | ⟨q, rfl, hq⟩ | ⟨-, q, rfl, hq⟩
  · exact mem_glob_self p
  · exact mem_glob_star_cons.mpr ⟨q, mem_glob_self q, hq⟩
  · exact mem_glob_concat_star.mpr ⟨q, mem_glob_self q, hq⟩

theorem Anchored.endMatch (hp : Anchored star p) (hx : x ∈ glob star p) : EndMatch star p x := by
  rcases hp with hp | ⟨q, hq, rfl | rfl⟩
  · exact .inl ((mem_glob_of_notMem hp).mp hx).symm
  · obtain ⟨y, hy, hyx⟩ := mem_glob_star_cons.mp hx
    obtain rfl := (mem_glob_of_notMem hq).mp hy
    exact .inr (.inl ⟨y, rfl, hyx⟩)
  · obtain ⟨y, hy, hyx⟩ := mem_glob_concat_star.mp hx
    obtain rfl := (mem_glob_of_notMem hq).mp hy
    cases y with
    | nil => exact .inr (.inl ⟨[], rfl, List.nil_suffix⟩)
    | cons a y =>
      refine .inr (.inr ⟨fun h => ?_, a :: y, rfl, hyx⟩)
      obtain rfl : a = star := Option.some.inj h
      exact hq List.mem_cons_self

theorem notMem_of_length_le_filter (h : p.length ≤ (p.filter (· ≠ star)).length) : star ∉ p := by
  have hall := List.length_filter_eq_length_iff.mp (le_antisymm (List.length_filter_le _ p) h)
  intro hstar
  simpa using hall star hstar

/-- One comparison finds all words of exactly the anchored patterns: the shortest word of any other
    pattern is too short. -/
theorem endMatch_iff_mem_glob :
    (∀ x, EndMatch star p x ↔ x ∈ glob star p) ↔ Anchored star p := by
  constructor
  · intro h
    rcases (h _).mpr (filter_mem_glob p) with heq | ⟨q, rfl, hq⟩ | ⟨-, q, rfl, hq⟩
    · exact .inl (notMem_of_length_le_filter (congrArg List.length heq).le)
    · rw [List.filter_cons_of_neg (by simp)] at hq
      exact .inr ⟨q, notMem_of_length_le_filter hq.length_le, .inl rfl⟩
    · rw [List.filter_append, List.filter_cons_of_neg (by simp), List.filter_nil, List.append_nil] at hq
      exact .inr ⟨q, notMem_of_length_le_filter hq.length_le, .inr rfl⟩
  · intro hp x
    exact ⟨EndMatch.mem_glob, hp.endMatch⟩

end Schemes
