import Mathlib.Data.List.Basic

/-! Tasks that feed one another. Each has a state it is to bring about (`settled`), which it reaches when
    it is run in full; a run of another task may undo it, but not a task that comes after it in a given
    order, and not one that is settled itself. So a trace that has the tasks in full in that order, with
    anything in between, leaves them all settled.

        order        a     b     c
        trace    b   a  c  b  b  c  a
        settled      a…    b…    c… -/

namespace Schemes.Settling

variable {ι σ : Type} {step full : ι → σ → σ → Prop} {settled : ι → σ → Prop} {order : List ι}

/-- Tasks one after another; those that are run in full are listed. -/
inductive Trace (step full : ι → σ → σ → Prop) : List ι → σ → σ → Prop
  | nil (s) : Trace step full [] s s
  | full {i is s s' s''} : full i s s' → Trace step full is s' s'' → Trace step full (i :: is) s s''
  | other {i is s s' s''} : step i s s' → Trace step full is s' s'' → Trace step full is s s''

/-- A task settles when it is run in full, and stays settled as long as those before it are. -/
structure Layered (step full : ι → σ → σ → Prop) (settled : ι → σ → Prop) (order : List ι) :
    Prop where
  step_of_full : ∀ {i s s'}, full i s s' → step i s s'
  settles : ∀ {i s s'}, full i s s' → settled i s'
  keeps : ∀ {pre i post k s s'}, order = pre ++ i :: post → (∀ j ∈ pre, settled j s) →
    settled i s → step k s s' → settled i s'

/-- Tasks at the head of the order that are settled stay so. -/
theorem Layered.keeps_all (h : Layered step full settled order) {pre rest : List ι}
    (horder : order = pre ++ rest) {s s' : σ} (hpre : ∀ j ∈ pre, settled j s) {k : ι}
    (hstep : step k s s') : ∀ j ∈ pre, settled j s' := by
  intro i hi
  obtain ⟨p, q, rfl⟩ := List.append_of_mem hi
  rw [List.append_assoc, List.cons_append] at horder
  exact h.keeps horder (fun j hj => hpre j (List.mem_append_left _ hj)) (hpre i hi) hstep

/-- The head of the order is settled; the trace has the rest of it. -/
theorem Layered.settles_rest (h : Layered step full settled order) {is : List ι} {s s' : σ}
    (ht : Trace step full is s s') : ∀ {pre rest : List ι}, order = pre ++ rest →
      rest.Sublist is → (∀ j ∈ pre, settled j s) → ∀ i ∈ order, settled i s' := by
  induction ht with
  | nil s =>
    intro pre rest horder hsub hpre
    rwa [horder, List.sublist_nil.mp hsub, List.append_nil]
  | other hstep _ ih =>
    intro pre rest horder hsub hpre
    exact ih horder hsub (h.keeps_all horder hpre hstep)
  | @full i is s s₁ s' hfull _ ih =>
    intro pre rest horder hsub hpre
    have hkept := h.keeps_all horder hpre (h.step_of_full hfull)
    cases hsub with
    | cons _ hsub => exact ih horder hsub hkept
    | @cons_cons rest _ _ hsub =>
      have hnext : order = (pre ++ [i]) ++ rest := by
        rw [horder, List.append_assoc, List.singleton_append]
      refine ih hnext hsub ?_
      intro j hj
      rcases List.mem_append.mp hj with hj | hj
      · exact hkept j hj
      · rw [List.mem_singleton.mp hj]
        exact h.settles hfull

/-- A trace that has the tasks in full in the order leaves them all settled. -/
theorem Layered.settles_order (h : Layered step full settled order) {is : List ι} {s s' : σ}
    (ht : Trace step full is s s') (hsub : order.Sublist is) : ∀ i ∈ order, settled i s' :=
  h.settles_rest ht (List.nil_append _).symm hsub fun _ hj => absurd hj List.not_mem_nil

/-- Where every task keeps `I` once all are settled, so does every trace that follows. -/
theorem Layered.quiet (h : Layered step full settled order) {I : σ → Prop}
    (hquiet : ∀ {k s s'}, (∀ i ∈ order, settled i s) → step k s s' → I s → I s') {is : List ι}
    {s s' : σ} (ht : Trace step full is s s') :
    (∀ i ∈ order, settled i s) → I s → I s' := by
  induction ht with
  | nil s => exact fun _ hI => hI
  | full hfull _ ih =>
    intro hs hI
    have hstep := h.step_of_full hfull
    exact ih (h.keeps_all (List.append_nil _).symm hs hstep) (hquiet hs hstep hI)
  | other hstep _ ih =>
    intro hs hI
    exact ih (h.keeps_all (List.append_nil _).symm hs hstep) (hquiet hs hstep hI)

end Schemes.Settling
