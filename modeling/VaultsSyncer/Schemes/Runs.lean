import Mathlib.Logic.Basic

/-! Runs of a system that takes one input after another: the state after a list of inputs, what holds
    in every state on the way, and what holds of every input in the state it meets.

        Always step I s is    `I` in `s` and in each state the inputs lead through
        Each step C s is      `C` of each state on the way and the input it is given

    Where `C` is what an input must satisfy for `I` to survive it, `Each.always` and `Always.each` go
    from one to the other. -/

namespace Schemes.Runs

variable {σ ι : Type} (step : σ → ι → σ)

/-- A property of all states of a run. -/
def Always (I : σ → Prop) : σ → List ι → Prop
  | s, [] => I s
  | s, i :: is => I s ∧ Always I (step s i) is

/-- A property of all inputs of a run, each in the state it meets. -/
def Each (C : σ → ι → Prop) : σ → List ι → Prop
  | _, [] => True
  | s, i :: is => C s i ∧ Each C (step s i) is

variable {step} {I J S : σ → Prop} {C D : σ → ι → Prop}

theorem Always.head {s : σ} {is : List ι} (h : Always step I s is) : I s := by
  cases is with
  | nil => exact h
  | cons i is => exact h.1

/-- Two properties that agree in every state that a run meets. -/
theorem Always.congr (hIJ : ∀ s, S s → (I s ↔ J s)) :
    ∀ {is : List ι} {s : σ}, Always step S s is → (Always step I s is ↔ Always step J s is)
  | [], s, h => hIJ s h
  | _ :: _, s, h => and_congr (hIJ s h.1) (h.2.congr hIJ)

theorem each_congr (hCD : ∀ s i, C s i ↔ D s i) :
    ∀ {is : List ι} {s : σ}, Each step C s is ↔ Each step D s is
  | [], _ => Iff.rfl
  | i :: _, s => and_congr (hCD s i) (each_congr hCD)

/-- What each input keeps under its condition holds in every state of a run that meets it. -/
theorem Each.always (hstep : ∀ s i, I s → C s i → I (step s i)) :
    ∀ {is : List ι} {s : σ}, I s → Each step C s is → Always step I s is
  | [], _, hs, _ => hs
  | i :: _, s, hs, h => ⟨hs, h.2.always hstep (hstep s i hs h.1)⟩

/-- What every input keeps holds in every state of a run. -/
theorem always_of_kept (hstep : ∀ s i, I s → I (step s i)) :
    ∀ {is : List ι} {s : σ}, I s → Always step I s is
  | [], _, hs => hs
  | i :: _, s, hs => ⟨hs, always_of_kept hstep (hstep s i hs)⟩

/-- Two conditions that agree in every state that a run meets. -/
theorem Always.each_congr (hCD : ∀ s i, S s → (C s i ↔ D s i)) :
    ∀ {is : List ι} {s : σ}, Always step S s is → (Each step C s is ↔ Each step D s is)
  | [], _, _ => Iff.rfl
  | i :: _, s, h => and_congr (hCD s i h.1) (h.2.each_congr hCD)

/-- If only inputs that meet the condition keep the property, a run that keeps it meets it. -/
theorem Always.each (hstep : ∀ s i, D s i → I s → I (step s i) → C s i) :
    ∀ {is : List ι} {s : σ}, Each step D s is → Always step I s is → Each step C s is
  | [], _, _, _ => trivial
  | i :: _, s, hD, h => ⟨hstep s i hD.1 h.1 h.2.head, Always.each hstep hD.2 h.2⟩

/-- Where each input keeps the property just if it meets the condition, a run keeps it just if all do;
    `Good` and `Ok` are what is known of the states and of the inputs. -/
theorem always_iff_each {Good : σ → Prop} {Ok : σ → ι → Prop}
    (hstep : ∀ s i, Good s → Ok s i → I s → Good (step s i) ∧ (I (step s i) ↔ C s i)) :
    ∀ {is : List ι} {s : σ}, Good s → I s → Each step Ok s is →
      (Always step I s is ↔ Each step C s is)
  | [], _, _, hI, _ => ⟨fun _ => trivial, fun _ => hI⟩
  | i :: is, s, hgood, hI, hok => by
      obtain ⟨hgood', hiff⟩ := hstep s i hgood hok.1 hI
      constructor
      · intro h
        have hnext := h.2.head
        exact ⟨hiff.mp hnext, (always_iff_each hstep hgood' hnext hok.2).mp h.2⟩
      · intro h
        have hnext := hiff.mpr h.1
        exact ⟨hI, (always_iff_each hstep hgood' hnext hok.2).mpr h.2⟩

/-- A condition that does not look at the state. -/
theorem each_iff_forall {P : ι → Prop} : ∀ {is : List ι} {s : σ},
    Each step (fun _ i => P i) s is ↔ ∀ i ∈ is, P i
  | [], _ => by simp [Each]
  | i :: is, s => by
      rw [List.forall_mem_cons]
      exact and_congr_right fun _ => each_iff_forall

theorem each_append : ∀ {is js : List ι} {s : σ},
    Each step C s (is ++ js) ↔ Each step C s is ∧ Each step C (is.foldl step s) js
  | [], _, _ => (and_iff_right trivial).symm
  | i :: is, js, s => by
      rw [List.cons_append, Each, Each, each_append, and_assoc]
      rfl

/-- And so in the last state. -/
theorem Always.foldl : ∀ {is : List ι} {s : σ}, Always step I s is → I (is.foldl step s)
  | [], _, h => h
  | _ :: _, _, h => h.2.foldl

/-- What holds of every input, whatever the state, holds of each in its state. -/
theorem each_of_forall : ∀ {is : List ι} (s : σ), (∀ i ∈ is, ∀ s, C s i) → Each step C s is
  | [], _, _ => trivial
  | i :: _, s, h =>
    ⟨h i List.mem_cons_self s, each_of_forall _ fun j hj => h j (List.mem_cons_of_mem _ hj)⟩

end Schemes.Runs
