import Mathlib.Data.Finset.Dedup
import Mathlib.Data.Option.Basic
import VaultsSyncer.Schemes.Phases

/-! Calls side by side, compared with calls one after another. `inTurn` makes some calls in an order; a
    machine *commits* when each step of it either leaves the shared state alone or ends its call with
    just what the call does alone at that moment (`Commits`). The calls that are done have then come to
    what they come to in the order in which they have committed (`Commits.exists_order`). -/

namespace Schemes.Linearize

open Phases

variable {ι φ τ σ ω α : Type} [DecidableEq ι]

/-- The calls of `l` one after another: what each of them returns, and the state they leave. -/
def inTurn (run : ι → τ → ω × τ) (y : τ) (l : List ι) : (ι → Option ω) × τ :=
  l.foldl (fun s i => (Function.update s.1 i (some (run i s.2).1), (run i s.2).2)) (fun _ => none, y)

@[simp] theorem inTurn_nil (run : ι → τ → ω × τ) (y : τ) : inTurn run y [] = (fun _ => none, y) := rfl

theorem inTurn_concat (run : ι → τ → ω × τ) (y : τ) (l : List ι) (i : ι) :
    inTurn run y (l ++ [i]) = (Function.update (inTurn run y l).1 i (some (run i (inTurn run y l).2).1),
      (run i (inTurn run y l).2).2) := by
  rw [inTurn, List.foldl_append]
  rfl

/-- What a call returns in turn, it returns at some moment. -/
theorem exists_of_inTurn {run : ι → τ → ω × τ} {y : τ} {l : List ι} {i : ι} {o : ω}
    (h : (inTurn run y l).1 i = some o) : i ∈ l ∧ ∃ y', o = (run i y').1 := by
  induction l using List.reverseRecOn with
  | nil => simp at h
  | append_singleton l j ih =>
    rw [inTurn_concat] at h
    rcases eq_or_ne i j with rfl | hij
    · exact ⟨by simp, _, by simpa using h.symm⟩
    · obtain ⟨hi, hy⟩ := ih (by simpa [hij] using h)
      exact ⟨List.mem_append_left _ hi, hy⟩

/-- Calls that have no effect. -/
theorem inTurn_of_still {run : ι → τ → ω × τ} (out : ι → Option ω) {l : List ι}
    (h : ∀ i ∈ l, ∃ o, out i = some o ∧ ∀ y, run i y = (o, y)) (y : τ) :
    inTurn run y l = (fun i => if i ∈ l then out i else none, y) := by
  induction l using List.reverseRecOn with
  | nil => simp
  | append_singleton l i ih =>
    obtain ⟨o, hout, hrun⟩ := h i (by simp)
    rw [inTurn_concat, ih fun j hj => h j (List.mem_append_left _ hj)]
    simp only [hrun, Prod.mk.injEq, and_true]
    funext j
    rcases eq_or_ne j i with rfl | hji
    · simp [hout]
    · simp [hji]

/-- Calls that are related one by one are so in turn. -/
theorem inTurn_rel {run : ι → σ → α × σ} {spec : ι → τ → ω × τ} {R : σ → τ → Prop}
    {V : ι → α → ω → Prop}
    (h : ∀ i x y, R x y → V i (run i x).1 (spec i y).1 ∧ R (run i x).2 (spec i y).2) {x : σ} {y : τ}
    (hxy : R x y) (l : List ι) :
    (∀ i, Option.Rel (V i) ((inTurn run x l).1 i) ((inTurn spec y l).1 i)) ∧
      R (inTurn run x l).2 (inTurn spec y l).2 := by
  induction l using List.reverseRecOn with
  | nil => exact ⟨fun _ => .none, hxy⟩
  | append_singleton l i ih =>
    obtain ⟨hV, hR⟩ := h i _ _ ih.2
    rw [inTurn_concat, inTurn_concat]
    refine ⟨fun j => ?_, hR⟩
    rcases eq_or_ne j i with rfl | hji
    · simpa using hV
    · simpa [hji] using ih.1 j

/-! ### Commits -/

variable {step : ι → φ → τ → Option (φ × τ)} {done : φ → Option ω} {spec : ι → τ → ω × τ}
  {I : State ι φ τ → Prop}

/-- In the states of `I`, a step leaves the shared state alone or ends its call, as the call alone would
    have. -/
structure Commits (step : ι → φ → τ → Option (φ × τ)) (done : φ → Option ω) (spec : ι → τ → ω × τ)
    (I : State ι φ τ → Prop) : Prop where
  kept : ∀ {t i p' y'}, I t → step i (t.phase i) t.shared = some (p', y') →
    I (t.set i p' y')
  effect : ∀ {t i p' y'}, I t → step i (t.phase i) t.shared = some (p', y') →
    done p' = none ∧ y' = t.shared ∨ ∃ o, done p' = some o ∧ spec i t.shared = (o, y')
  stays : ∀ {i p o}, done p = some o → ∀ y, step i p y = none

/-- The calls that are done, in the order of their commits. -/
theorem Commits.exists_order [Fintype ι] (hc : Commits step done spec I) {t₀ t : State ι φ τ}
    (h0 : I t₀) (hinit : ∀ i o, done (t₀.phase i) = some o → ∀ y, spec i y = (o, y))
    (ht : Run step t₀ t) : I t ∧ ∃ l : List ι, l.Nodup ∧ (∀ i, i ∈ l ↔ done (t.phase i) ≠ none) ∧
      inTurn spec t₀.shared l = (fun i => done (t.phase i), t.shared) := by
  induction ht with
  | refl =>
    classical
    refine ⟨h0, (Finset.univ.filter fun i => done (t₀.phase i) ≠ none).toList, Finset.nodup_toList _,
      by simp, ?_⟩
    rw [inTurn_of_still fun i => done (t₀.phase i)]
    · simp only [Finset.mem_toList, Finset.mem_filter, Finset.mem_univ, true_and, Prod.mk.injEq,
        and_true]
      funext i
      split_ifs with hi
      · rfl
      · exact (not_ne_iff.mp hi).symm
    · intro i hi
      obtain ⟨o, ho⟩ := Option.ne_none_iff_exists'.mp (by simpa using hi)
      exact ⟨o, ho, hinit i o ho⟩
  | @step t i p' y' _ hstep ih =>
    obtain ⟨hI, l, hnd, hmem, hl⟩ := ih
    refine ⟨hc.kept hI hstep, ?_⟩
    have hopen : done (t.phase i) = none := by
      by_contra hne
      obtain ⟨o, ho⟩ := Option.ne_none_iff_exists'.mp hne
      rw [hc.stays ho] at hstep
      cases hstep
    rcases hc.effect hI hstep with ⟨hp', rfl⟩ | ⟨o, hp', hspec⟩
    · -- the call goes on
      refine ⟨l, hnd, fun j => ?_, ?_⟩
      · rcases eq_or_ne j i with rfl | hji
        · simp [hmem, hopen, hp']
        · simp [hmem, hji]
      · rw [hl]
        simp only [State.set_shared, Prod.mk.injEq, and_true]
        funext j
        rcases eq_or_ne j i with rfl | hji
        · simp [hopen, hp']
        · simp [hji]
    · -- the call commits
      have hi : i ∉ l := by simp [hmem, hopen]
      refine ⟨l ++ [i], hnd.append (List.nodup_singleton i) (by simpa using hi), fun j => ?_, ?_⟩
      · rcases eq_or_ne j i with rfl | hji
        · simp [hp']
        · simp [hmem, hji]
      · rw [inTurn_concat, hl]
        simp only [State.set_shared, hspec, Prod.mk.injEq, and_true]
        funext j
        rcases eq_or_ne j i with rfl | hji
        · simp [hp']
        · simp [hji]

end Schemes.Linearize
