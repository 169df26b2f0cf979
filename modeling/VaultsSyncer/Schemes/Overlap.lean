import VaultsSyncer.Schemes.Rely

/-! Pools side by side. Each run has a main thread, channels and tasks of its own; the state is shared,
    no lock is held, and others change it as well. If everything that happens moves the state along one
    relation, and every task relies on no more than that, then each task stands as it stands alone.

        run 1   launch ─── acquire ── exec ───────────── exec ── …
        run 2          launch ─────────── acquire ─ exec ──── …
        others                        edit                  edit -/

namespace Schemes

variable {Op : Type} {Ans : Op → Type} {ε σ : Type}

/-- Everybody moves the state along `R`, and relies on the others to do so. -/
def Contract.along (h : Handler Op Ans (ε × σ)) (R : σ → σ → Prop) (hrefl : ∀ x, R x x)
    (htrans : ∀ {x y z}, R x y → R y z → R x z) : Contract Op ε σ where
  rely := R
  given := fun _ _ _ => True
  call := fun op e x => R x (h op (e, x)).2.2
  refl := hrefl
  trans := htrans

namespace Pool

open Prog

/-- The counts do not depend on what is shared. -/
theorem Inv.of_shared {n : ℕ} {s : State Op Ans ε σ n} (hs : Inv s) (x : σ) :
    Inv { s with shared := x } :=
  ⟨hs.launched_le, hs.idle_iff, hs.waitGroup_eq, hs.closer_last, hs.closed_idle, hs.results_closed,
    hs.successes, hs.failures, hs.drained⟩

section Overlaps

variable {ι : Type} [DecidableEq ι] {n : ι → ℕ} (S : (i : ι) → Setup Op Ans ε σ (n i))
  (edit : σ → σ → Prop) (x₀ : σ)

/-- Where some schedule leads the runs and what they share; a run that has not taken a step yet starts
    whenever it does. -/
inductive Overlaps : ((i : ι) → State Op Ans ε σ (n i)) → σ → Prop
  | init : Overlaps (fun _ => Pool.init x₀) x₀
  | step {s x i a t} (h : Overlaps s x) (hstep : Pool.step (S i) { s i with shared := x } a = some t) :
      Overlaps (Function.update s i t) t.shared
  | edit {s x y} (h : Overlaps s x) (hedit : edit x y) : Overlaps s y

variable {S edit x₀} {s : (i : ι) → State Op Ans ε σ (n i)} {x : σ}

theorem Overlaps.inv (h : Overlaps S edit x₀ s x) (i : ι) : Inv (s i) := by
  induction h generalizing i with
  | init => exact inv_init x₀
  | edit _ _ ih => exact ih i
  | @step s x j a t _ hstep ih =>
    rcases eq_or_ne i j with rfl | hij
    · rw [Function.update_self]
      exact inv_step (S i) ((ih i).of_shared x) (step_cases (S i) hstep)
    · rw [Function.update_of_ne hij]
      exact ih i

/-- One run may take several steps in a row. -/
theorem Overlaps.follow {i : ι} {a : Action (n i)} {as : List (Action (n i))} {t : State Op Ans ε σ (n i)}
    (h : Overlaps S edit x₀ s x)
    (hf : Pool.follow (S i) { s i with shared := x } (a :: as) = some t) :
    Overlaps S edit x₀ (Function.update s i t) t.shared := by
  induction as generalizing s x a with
  | nil =>
    obtain ⟨u, hu, hf⟩ := Option.bind_eq_some_iff.mp hf
    obtain rfl := Option.some.inj hf
    exact h.step hu
  | cons b bs ih =>
    obtain ⟨u, hu, hf⟩ := Option.bind_eq_some_iff.mp hf
    have hrest := ih (h.step hu) (a := b) (by rwa [Function.update_self])
    rwa [Function.update_idem] at hrest

variable {T : Contract Op ε σ} {Q : (i : ι) → Fin (n i) → Bool → σ → Prop}

/-- Each task stands as it stands alone, and all that has happened is a move that the contract allows. -/
theorem Overlaps.stands (hgiven : ∀ op e x, T.given op e x)
    (hcall : ∀ i op e x, T.call op e x → T.rely x ((S i).handler op (e, x)).2.2)
    (hedit : ∀ x y, edit x y → T.rely x y) (hQ : ∀ i j ok x y, T.rely x y → Q i j ok x → Q i j ok y)
    (htask : ∀ i j x, T.rely x₀ x →
      ((S i).task j).Keeps (S i).handler T (fun ok _ => Q i j ok) ((S i).env j) x)
    (h : Overlaps S edit x₀ s x) : T.rely x₀ x ∧ ∀ i j,
      Stands (S i) (fun _ => T) (fun _ => T.rely x₀) (Q i) j x ((s i).phase j) := by
  have hframed : ∀ {x y : σ} (i j), T.rely x y → Framed T (T.rely x₀) (Q i j) x y := fun i j hxy =>
    ⟨fun hx => T.trans hx hxy, hxy, fun ok => hQ i j ok _ _ hxy⟩
  induction h with
  | init => exact ⟨T.refl x₀, fun _ _ => T.refl x₀⟩
  | edit _ hxy ih =>
    exact ⟨T.trans ih.1 (hedit _ _ hxy), fun i j => (ih.2 i j).framed (hframed i j (hedit _ _ hxy))⟩
  | @step s x i a t hs hstep ih =>
    obtain ⟨hx, hall⟩ := ih
    -- the other runs see no more of the step than where it moves the state
    have hothers : T.rely x t.shared →
        (∀ j, Stands (S i) (fun _ => T) (fun _ => T.rely x₀) (Q i) j t.shared (t.phase j)) →
        T.rely x₀ t.shared ∧ ∀ k j, Stands (S k) (fun _ => T) (fun _ => T.rely x₀) (Q k) j t.shared
          ((Function.update s i t k).phase j) := by
      refine fun hxt hown => ⟨T.trans hx hxt, fun k j => ?_⟩
      rcases eq_or_ne k i with rfl | hki
      · rw [Function.update_self]
        exact hown j
      · rw [Function.update_of_ne hki]
        exact (hall k j).framed (hframed k j hxt)
    by_cases ha : ∃ j, a = .exec j ∨ a = .send j
    · obtain ⟨j, ha⟩ := ha
      have hnow : ∀ p e, (s i).phase j = .running p e →
          p.KeepsNow (S i).handler T (fun ok _ => Q i j ok) e x := by
        intro p e hp
        have hj := hall i j
        rw [hp] at hj
        rcases hj with ⟨rfl, rfl, -⟩ | hkeeps
        · exact (htask i j x hx).now
        · exact hkeeps.now
      rcases step_running ha hstep with ⟨op, k, e, -, hp, rfl⟩ | ⟨ok, e, -, hp, rfl⟩
      · obtain ⟨hc, hrest⟩ := hnow _ _ hp (hgiven op e x)
        have hmove := hcall i op e x hc
        refine hothers hmove fun j' => ?_
        rcases eq_or_ne j' j with rfl | hj
        · simpa [Stands] using .inr hrest
        · simpa [hj] using (hall i j').framed (hframed i j' hmove)
      · have hsent : Q i j ok x := hnow _ _ hp
        refine hothers (T.refl x) fun j' => ?_
        rcases eq_or_ne j' j with rfl | hj
        · simpa [Stands] using hsent
        · simpa [hj] using hall i j'
    · obtain ⟨hshared, hpasses⟩ := step_passes ((hs.inv i).of_shared x) (not_exists.mp ha) hstep
      change t.shared = x at hshared
      refine hothers (hshared.symm ▸ T.refl x) fun j => ?_
      rw [hshared]
      exact (hall i j).passes (hpasses j)

end Overlaps

end Pool

end Schemes
