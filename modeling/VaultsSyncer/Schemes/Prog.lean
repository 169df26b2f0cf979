import Mathlib.Logic.Basic

/-! Programs that act on their surroundings by *calls*: a program returns a value, or makes one call
    and goes on with the answer. What a call does is left to a `Handler`, so the one text of a
    program can be run to its end (`run`), be cut into single calls by a scheduler, or be compared
    call by call with another program (`Sim`).

        ret a             finished with `a`
        call op k         make the call `op`, continue with `k answer` -/

namespace Schemes

/-- A program over the calls `Op`, where the call `op` is answered by an `Ans op`. -/
inductive Prog (Op : Type) (Ans : Op → Type) (α : Type) where
  | ret (a : α)
  | call (op : Op) (k : Ans op → Prog Op Ans α)

/-- The surroundings: how a call is answered in a state, and the state it leaves. -/
abbrev Handler (Op : Type) (Ans : Op → Type) (σ : Type) := (op : Op) → σ → Ans op × σ

namespace Prog

variable {Op : Type} {Ans : Op → Type} {α β σ τ : Type}

/-- Run the first program, then the one its value selects. -/
def bind : Prog Op Ans α → (α → Prog Op Ans β) → Prog Op Ans β
  | ret a, f => f a
  | call op k, f => call op fun r => (k r).bind f

instance : Monad (Prog Op Ans) where
  pure := ret
  bind := bind

/-- The program that makes one call and returns its answer. -/
def perform (op : Op) : Prog Op Ans (Ans op) := call op ret

@[simp] theorem pure_eq (a : α) : (pure a : Prog Op Ans α) = ret a := rfl

@[simp] theorem ret_bind (a : α) (f : α → Prog Op Ans β) : (ret a >>= f) = f a := rfl

@[simp] theorem call_bind (op : Op) (k : Ans op → Prog Op Ans α) (f : α → Prog Op Ans β) :
    (call op k >>= f) = call op fun r => k r >>= f := rfl

@[simp] theorem perform_bind (op : Op) (f : Ans op → Prog Op Ans β) :
    (perform op >>= f) = call op f := rfl

@[simp] theorem bind_ret (p : Prog Op Ans α) : (p >>= ret) = p := by
  induction p with
  | ret a => rfl
  | call op k ih => exact congrArg (call op) (funext ih)

theorem bind_assoc {γ : Type} (p : Prog Op Ans α) (f : α → Prog Op Ans β) (g : β → Prog Op Ans γ) :
    (p >>= f) >>= g = p >>= fun a => f a >>= g := by
  induction p with
  | ret a => rfl
  | call op k ih => exact congrArg (call op) (funext ih)

instance : LawfulMonad (Prog Op Ans) := LawfulMonad.mk' _
  (fun p => bind_ret p) (fun _ _ => rfl) (fun p f g => bind_assoc p f g)

/-- Run to the end: the value returned and the state left. -/
def run (h : Handler Op Ans σ) : Prog Op Ans α → σ → α × σ
  | ret a, s => (a, s)
  | call op k, s => run h (k (h op s).1) (h op s).2

/-- The calls a run makes, in order. -/
def calls (h : Handler Op Ans σ) : Prog Op Ans α → σ → List Op
  | ret _, _ => []
  | call op k, s => op :: calls h (k (h op s).1) (h op s).2

variable (h : Handler Op Ans σ)

@[simp] theorem run_ret (a : α) (s : σ) : (ret a : Prog Op Ans α).run h s = (a, s) := rfl

@[simp] theorem run_call (op : Op) (k : Ans op → Prog Op Ans α) (s : σ) :
    (call op k).run h s = (k (h op s).1).run h (h op s).2 := rfl

@[simp] theorem calls_ret (a : α) (s : σ) : (ret a : Prog Op Ans α).calls h s = [] := rfl

@[simp] theorem calls_call (op : Op) (k : Ans op → Prog Op Ans α) (s : σ) :
    (call op k).calls h s = op :: (k (h op s).1).calls h (h op s).2 := rfl

/-- A sequence runs its second part from where the first one stopped. -/
theorem run_bind (p : Prog Op Ans α) (f : α → Prog Op Ans β) (s : σ) :
    (p >>= f).run h s = (f (p.run h s).1).run h (p.run h s).2 := by
  induction p generalizing s with
  | ret a => rfl
  | call op k ih => exact ih (h op s).1 (h op s).2

/-- What is only computed from the value leaves the state alone. -/
theorem run_bind_ret {p : Prog Op Ans α} {f : α → Prog Op Ans β} (hf : ∀ a, ∃ b, f a = ret b) (s : σ) :
    ((p >>= f).run h s).2 = (p.run h s).2 := by
  obtain ⟨b, hb⟩ := hf (p.run h s).1
  rw [run_bind, hb, run_ret]

theorem calls_bind (p : Prog Op Ans α) (f : α → Prog Op Ans β) (s : σ) :
    (p >>= f).calls h s = p.calls h s ++ (f (p.run h s).1).calls h (p.run h s).2 := by
  induction p generalizing s with
  | ret a => rfl
  | call op k ih =>
    simp only [call_bind, calls_call, List.cons_append, run_call]
    rw [ih (h op s).1 (h op s).2]

/-! ### Programs whose calls all satisfy a predicate -/

/-- Whatever the answers, every call the program can make satisfies `P`. -/
def AllCalls (P : Op → Prop) : Prog Op Ans α → Prop
  | ret _ => True
  | call op k => P op ∧ ∀ r, (k r).AllCalls P

theorem AllCalls.bind {P : Op → Prop} {p : Prog Op Ans α} {f : α → Prog Op Ans β}
    (hp : p.AllCalls P) (hf : ∀ a, (f a).AllCalls P) : (p >>= f).AllCalls P := by
  induction p with
  | ret a => exact hf a
  | call op k ih => exact ⟨hp.1, fun r => ih r (hp.2 r)⟩

/-- Computing with the value of a program takes no further call. -/
theorem AllCalls.map {P : Op → Prop} {p : Prog Op Ans α} (hp : p.AllCalls P) (f : α → β) :
    (p >>= fun a => (pure (f a) : Prog Op Ans β)).AllCalls P := hp.bind fun _ => trivial

theorem AllCalls.mono {P Q : Op → Prop} (hPQ : ∀ op, P op → Q op) {p : Prog Op Ans α}
    (hp : p.AllCalls P) : p.AllCalls Q := by
  induction p with
  | ret a => trivial
  | call op k ih => exact ⟨hPQ op hp.1, fun r => ih r (hp.2 r)⟩

theorem allCalls_true (p : Prog Op Ans α) : p.AllCalls fun _ => True := by
  induction p with
  | ret a => trivial
  | call op k ih => exact ⟨trivial, ih⟩

/-- An invariant kept by each allowed call is kept by the whole run. -/
theorem AllCalls.run_preserves {P : Op → Prop} {I : σ → Prop} {p : Prog Op Ans α}
    (hp : p.AllCalls P) (hI : ∀ op s, P op → I s → I (h op s).2) {s : σ} (hs : I s) :
    I (p.run h s).2 := by
  induction p generalizing s with
  | ret a => exact hs
  | call op k ih => exact ih _ (hp.2 _) (hI op s hp.1 hs)

theorem AllCalls.mem_calls {P : Op → Prop} {p : Prog Op Ans α} (hp : p.AllCalls P) (s : σ) :
    ∀ op ∈ p.calls h s, P op := by
  induction p generalizing s with
  | ret a => simp
  | call op k ih =>
    intro op' hop'
    rcases List.mem_cons.mp hop' with rfl | hop'
    · exact hp.1
    · exact ih _ (hp.2 _) _ op' hop'

/-! ### What a program can return -/

/-- Whatever answers of the kind `A` its calls get, the program returns a value that satisfies `P`. -/
def Returns (A : ∀ op, Ans op → Prop) (P : α → Prop) : Prog Op Ans α → Prop
  | ret a => P a
  | call op k => ∀ r, A op r → (k r).Returns A P

section Returns

variable {A : ∀ op, Ans op → Prop} {P Q : α → Prop}

/-- What a sequence returns is what its second part does for the values of the first. -/
theorem returns_bind {P : β → Prop} (p : Prog Op Ans α) (f : α → Prog Op Ans β) :
    (p >>= f).Returns A P ↔ p.Returns A fun a => (f a).Returns A P := by
  induction p with
  | ret a => exact Iff.rfl
  | call op k ih => exact forall_congr' fun r => imp_congr_right fun _ => ih r

theorem Returns.mono {p : Prog Op Ans α} (hp : p.Returns A P) (hPQ : ∀ a, P a → Q a) :
    p.Returns A Q := by
  induction p with
  | ret a => exact hPQ a hp
  | call op k ih => exact fun r hr => ih r (hp r hr)

theorem returns_true (p : Prog Op Ans α) : p.Returns A fun _ => True := by
  induction p with
  | ret a => trivial
  | call op k ih => exact fun r _ => ih r

theorem Returns.and {p : Prog Op Ans α} (hP : p.Returns A P) (hQ : p.Returns A Q) :
    p.Returns A fun a => P a ∧ Q a := by
  induction p with
  | ret a => exact ⟨hP, hQ⟩
  | call op k ih => exact fun r hr => ih r (hP r hr) (hQ r hr)

/-- A sequence of programs that may fail: the second part is for the values alone. -/
theorem Returns.bind_except {ε : Type} {p : ExceptT ε (Prog Op Ans) α}
    {f : α → ExceptT ε (Prog Op Ans) β} {P : Except ε α → Prop} {Q : Except ε β → Prop}
    (hp : p.run.Returns A P) (herror : ∀ e, P (.error e) → Q (.error e))
    (hok : ∀ a, P (.ok a) → (f a).run.Returns A Q) : (p >>= f).run.Returns A Q := by
  rw [ExceptT.run_bind, returns_bind]
  refine hp.mono ?_
  rintro (e | a) ha
  · exact herror e ha
  · exact hok a ha

/-- If every call has an answer, something is returned. -/
theorem Returns.exists (hA : ∀ op, ∃ r, A op r) {p : Prog Op Ans α} (hp : p.Returns A P) :
    ∃ a, P a := by
  induction p with
  | ret a => exact ⟨a, hp⟩
  | call op k ih =>
    obtain ⟨r, hr⟩ := hA op
    exact ih r (hp r hr)

/-- So it is in every run whose answers are of that kind. -/
theorem Returns.run (hA : ∀ op s, A op (h op s).1) {p : Prog Op Ans α} (hp : p.Returns A P) (s : σ) :
    P (p.run h s).1 := by
  induction p generalizing s with
  | ret a => exact hp
  | call op k ih => exact ih _ (hp _ (hA op s)) _

end Returns

/-! ### Comparing two programs call by call -/

/-- `p` and `q` make related calls, and go on related when the answers they get are related. -/
inductive Sim (O : Op → Op → Prop) (A : ∀ op op', Ans op → Ans op' → Prop) (V : α → β → Prop) :
    Prog Op Ans α → Prog Op Ans β → Prop
  | ret {a b} : V a b → Sim O A V (ret a) (ret b)
  | call {op op' k k'} : O op op' → (∀ r r', A op op' r r' → Sim O A V (k r) (k' r')) →
      Sim O A V (call op k) (call op' k')

variable {O : Op → Op → Prop} {A : ∀ op op', Ans op → Ans op' → Prop} {V : α → β → Prop}

theorem Sim.bind {γ δ : Type} {W : γ → δ → Prop} {p : Prog Op Ans α} {q : Prog Op Ans β}
    {f : α → Prog Op Ans γ} {g : β → Prog Op Ans δ} (hpq : Sim O A V p q)
    (hfg : ∀ a b, V a b → Sim O A W (f a) (g b)) : Sim O A W (p >>= f) (q >>= g) := by
  induction hpq with
  | ret hv => exact hfg _ _ hv
  | call ho _ ih => exact .call ho ih

/-- Related calls in related states get related answers and leave related states. -/
def Respects (h : Handler Op Ans σ) (h' : Handler Op Ans τ) (P : Op → Prop) (O : Op → Op → Prop)
    (A : ∀ op op', Ans op → Ans op' → Prop) (S : σ → τ → Prop) : Prop :=
  ∀ op op' s t, P op → O op op' → S s t →
    A op op' (h op s).1 (h' op' t).1 ∧ S (h op s).2 (h' op' t).2

/-- Related programs run in related states end with related values in related states. -/
theorem Sim.run {h : Handler Op Ans σ} {h' : Handler Op Ans τ} {P : Op → Prop} {S : σ → τ → Prop}
    {p : Prog Op Ans α} {q : Prog Op Ans β} (hpq : Sim O A V p q) (hp : p.AllCalls P)
    (hS : Respects h h' P O A S) {s : σ} {t : τ} (hst : S s t) :
    V (p.run h s).1 (q.run h' t).1 ∧ S (p.run h s).2 (q.run h' t).2 := by
  induction hpq generalizing s t with
  | ret hv => exact ⟨hv, hst⟩
  | call ho _ ih =>
    obtain ⟨ha, hs'⟩ := hS _ _ s t hp.1 ho hst
    exact ih _ _ ha (hp.2 _) hs'

end Prog

end Schemes
