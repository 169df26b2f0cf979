import VaultsSyncer.Schemes.Pool

/-! Rely and guarantee for the tasks of a pool. A task is looked at alone, in surroundings that may
    move the shared state between two of its calls, as far as its `Contract` lets them; it answers
    for what holds at each of its calls. When the calls of every task respect the contracts of the
    others (`Frames`), each task stands in the pool as it stands alone, along every run whose steps
    meet a condition. -/

namespace Schemes

variable {Op : Type} {Ans : Op → Type} {ε σ α β : Type}

/-- What a task relies on, and what it answers for. -/
structure Contract (Op ε σ : Type) where
  /-- How the others may move the state between two calls of the task. -/
  rely : σ → σ → Prop
  /-- What is known whenever the task makes a call. -/
  given : Op → ε → σ → Prop
  /-- What the task answers for at each of its calls. -/
  call : Op → ε → σ → Prop
  refl : ∀ s, rely s s
  trans : ∀ {s t u}, rely s t → rely t u → rely s u

/-- The contract, with calls of one kind only. -/
def Contract.within (T : Contract Op ε σ) (P : Op → Prop) : Contract Op ε σ :=
  { T with call := fun op e s => T.call op e s ∧ P op }

namespace Prog

/-- From `s`, with `e` in store, the program keeps its contract and returns with `Q`. -/
def Keeps (h : Handler Op Ans (ε × σ)) (T : Contract Op ε σ) (Q : α → ε → σ → Prop) :
    Prog Op Ans α → ε → σ → Prop
  | ret a, e, s => ∀ s', T.rely s s' → Q a e s'
  | call op k, e, s => ∀ s', T.rely s s' → T.given op e s' → T.call op e s' ∧
      (k (h op (e, s')).1).Keeps h T Q (h op (e, s')).2.1 (h op (e, s')).2.2

/-- The same, where the others stand still until the first call. -/
def KeepsNow (h : Handler Op Ans (ε × σ)) (T : Contract Op ε σ) (Q : α → ε → σ → Prop) :
    Prog Op Ans α → ε → σ → Prop
  | ret a, e, s => Q a e s
  | call op k, e, s => T.given op e s → T.call op e s ∧
      (k (h op (e, s)).1).Keeps h T Q (h op (e, s)).2.1 (h op (e, s)).2.2

variable {h : Handler Op Ans (ε × σ)} {T : Contract Op ε σ} {Q : α → ε → σ → Prop}

theorem keeps_iff {p : Prog Op Ans α} {e : ε} {s : σ} :
    p.Keeps h T Q e s ↔ ∀ s', T.rely s s' → p.KeepsNow h T Q e s' := by
  cases p with
  | ret a => exact Iff.rfl
  | call op k => exact Iff.rfl

theorem Keeps.now {p : Prog Op Ans α} {e : ε} {s : σ} (hp : p.Keeps h T Q e s) :
    p.KeepsNow h T Q e s := keeps_iff.mp hp s (T.refl s)

/-- What the others do is covered. -/
theorem Keeps.moved {p : Prog Op Ans α} {e : ε} {s s' : σ} (hp : p.Keeps h T Q e s)
    (hs : T.rely s s') : p.Keeps h T Q e s' := by
  cases p with
  | ret a => exact fun t ht => hp t (T.trans hs ht)
  | call op k => exact fun t ht => hp t (T.trans hs ht)

theorem keeps_ret {a : α} {e : ε} {s : σ} (hQ : ∀ s', T.rely s s' → Q a e s') :
    (pure a : Prog Op Ans α).Keeps h T Q e s := hQ

/-- A call, and what is done with its answer. -/
theorem keeps_call {op : Op} {f : Ans op → Prog Op Ans α} {e : ε} {s : σ}
    (hp : ∀ s', T.rely s s' → T.given op e s' → T.call op e s' ∧
      (f (h op (e, s')).1).Keeps h T Q (h op (e, s')).2.1 (h op (e, s')).2.2) :
    (perform op >>= f).Keeps h T Q e s := hp

/-- A sequence: its second part takes over where the first one returns. -/
theorem Keeps.bind {Q : β → ε → σ → Prop} {p : Prog Op Ans α} {f : α → Prog Op Ans β} {e : ε} {s : σ}
    (hp : p.Keeps h T (fun a e s => (f a).Keeps h T Q e s) e s) : (p >>= f).Keeps h T Q e s := by
  induction p generalizing e s with
  | ret a => exact hp s (T.refl s)
  | call op k ih =>
    intro s' hs hgiven
    obtain ⟨hcall, hrest⟩ := hp s' hs hgiven
    exact ⟨hcall, ih _ hrest⟩

theorem KeepsNow.bind {Q : β → ε → σ → Prop} {p : Prog Op Ans α} {f : α → Prog Op Ans β} {e : ε}
    {s : σ} (hp : p.KeepsNow h T (fun a e s => (f a).Keeps h T Q e s) e s) :
    (p >>= f).KeepsNow h T Q e s := by
  cases p with
  | ret a => exact Keeps.now hp
  | call op k => exact fun hgiven => ⟨(hp hgiven).1, (hp hgiven).2.bind⟩

theorem Keeps.mono {Q' : α → ε → σ → Prop} {p : Prog Op Ans α} {e : ε} {s : σ}
    (hp : p.Keeps h T Q e s) (hQ : ∀ a e s, Q a e s → Q' a e s) : p.Keeps h T Q' e s := by
  induction p generalizing e s with
  | ret a => exact fun s' hs => hQ a e s' (hp s' hs)
  | call op k ih =>
    intro s' hs hgiven
    obtain ⟨hcall, hrest⟩ := hp s' hs hgiven
    exact ⟨hcall, ih _ hrest⟩

theorem KeepsNow.mono {Q' : α → ε → σ → Prop} {p : Prog Op Ans α} {e : ε} {s : σ}
    (hp : p.KeepsNow h T Q e s) (hQ : ∀ a e s, Q a e s → Q' a e s) : p.KeepsNow h T Q' e s := by
  cases p with
  | ret a => exact hQ a e s hp
  | call op k => exact fun hgiven => ⟨(hp hgiven).1, (hp hgiven).2.mono hQ⟩

/-- What the calls of a program all satisfy, whatever is answered, may go into its contract. -/
theorem Keeps.within {P : Op → Prop} {p : Prog Op Ans α} {e : ε} {s : σ} (hp : p.Keeps h T Q e s)
    (hP : p.AllCalls P) : p.Keeps h (T.within P) Q e s := by
  induction p generalizing e s with
  | ret a => exact hp
  | call op k ih =>
    intro s' hs hgiven
    obtain ⟨hcall, hrest⟩ := hp s' hs hgiven
    exact ⟨⟨hcall, hP.1⟩, ih _ hrest (hP.2 _)⟩

theorem KeepsNow.within {P : Op → Prop} {p : Prog Op Ans α} {e : ε} {s : σ}
    (hp : p.KeepsNow h T Q e s) (hP : p.AllCalls P) : p.KeepsNow h (T.within P) Q e s := by
  cases p with
  | ret a => exact hp
  | call op k => exact fun hgiven => ⟨⟨(hp hgiven).1, hP.1⟩, (hp hgiven).2.within (hP.2 _)⟩

end Prog

namespace Pool

open Prog

variable {n : ℕ}

/-! ### Runs under a condition -/

section Along

variable (S : Setup Op Ans ε σ n) (s₀ : σ) (C : State Op Ans ε σ n → Action n → Prop)

/-- The states of the runs from `init s₀` whose steps all meet `C`. -/
inductive Along : State Op Ans ε σ n → Prop
  | init : Along (init s₀)
  | step {s s' a} (h : Along s) (hc : C s a) (hstep : step S s a = some s') : Along s'

variable {S s₀ C}

theorem Along.reaches {s : State Op Ans ε σ n} (h : Along S s₀ C s) : Reaches S s₀ s := by
  induction h with
  | init => exact .init
  | step _ _ hstep ih => exact ih.step hstep

theorem Reaches.along (hC : ∀ s a, Reaches S s₀ s → C s a) {s : State Op Ans ε σ n}
    (h : Reaches S s₀ s) : Along S s₀ C s := by
  induction h with
  | init => exact .init
  | step hr hstep ih => exact ih.step (hC _ _ hr) hstep

variable (S) in
/-- Follow a given schedule, as long as its steps meet `c`. -/
def followWhile (c : State Op Ans ε σ n → Action n → Bool) (s : State Op Ans ε σ n) :
    List (Action n) → Option (State Op Ans ε σ n)
  | [] => some s
  | a :: as => if c s a then (step S s a).bind fun s' => followWhile c s' as else none

theorem Along.followWhile {c : State Op Ans ε σ n → Action n → Bool}
    (hC : ∀ s a, Reaches S s₀ s → c s a = true → C s a) {as : List (Action n)}
    {s s' : State Op Ans ε σ n} (hs : Along S s₀ C s) (hf : followWhile S c s as = some s') :
    Along S s₀ C s' := by
  induction as generalizing s with
  | nil => exact Option.some.inj hf ▸ hs
  | cons a as ih =>
    rw [Pool.followWhile] at hf
    split_ifs at hf with hc
    obtain ⟨t, ht, hf'⟩ := Option.bind_eq_some_iff.mp hf
    exact ih (hs.step (hC s a hs.reaches hc) ht) hf'

/-- What such a schedule is seen to lead to is reached under the condition. -/
theorem exists_along_of_followWhile {c : State Op Ans ε σ n → Action n → Bool}
    (hC : ∀ s a, Reaches S s₀ s → c s a = true → C s a) (as : List (Action n)) {β : Type}
    (f : State Op Ans ε σ n → β) {b : β} (h : (followWhile S c (Pool.init s₀) as).map f = some b) :
    ∃ s, Along S s₀ C s ∧ f s = b := by
  obtain ⟨s, hs, hf⟩ := Option.map_eq_some_iff.mp h
  exact ⟨s, Along.init.followWhile hC hs, hf⟩

/-- `P` holds wherever the step is a call of a task. -/
def AtCall (P : Fin n → Op → ε → σ → Prop) (s : State Op Ans ε σ n) (a : Action n) : Prop :=
  ∀ i op k e, a = .exec i → s.phase i = .running (.call op k) e → P i op e s.shared

/-- `P` holds wherever the step is the first one of a task: a call, or sending its result. -/
def AtStart (S : Setup Op Ans ε σ n) (P : Fin n → σ → Prop) (s : State Op Ans ε σ n) (a : Action n) :
    Prop :=
  ∀ i, a = .exec i ∨ a = .send i → s.phase i = .running (S.task i) (S.env i) → P i s.shared

end Along

/-! ### Where the tasks stand -/

/-- Where a task stands: before its first step `Start` holds, after its last one `Q`. -/
def Stands (S : Setup Op Ans ε σ n) (T : Fin n → Contract Op ε σ) (Start : Fin n → σ → Prop)
    (Q : Fin n → Bool → σ → Prop) (i : Fin n) (s : σ) : Phase Op Ans ε → Prop
  | .idle => Start i s
  | .started => Start i s
  | .running p e => p = S.task i ∧ e = S.env i ∧ Start i s ∨
      p.Keeps S.handler (T i) (fun ok _ => Q i ok) e s
  | .sent ok => Q i ok s
  | .released ok => Q i ok s
  | .finished ok => Q i ok s

/-- A move of the state from `s` to `s'` by another task leaves a task where it stands. -/
structure Framed (T : Contract Op ε σ) (Start : σ → Prop) (Q : Bool → σ → Prop) (s s' : σ) : Prop where
  start : Start s → Start s'
  rely : T.rely s s'
  result : ∀ ok, Q ok s → Q ok s'

/-- The contracts of the tasks fit together. -/
structure Frames (S : Setup Op Ans ε σ n) (s₀ : σ) (C : State Op Ans ε σ n → Action n → Prop)
    (T : Fin n → Contract Op ε σ) (Start : Fin n → σ → Prop) (Q : Fin n → Bool → σ → Prop) : Prop where
  init : ∀ i, Start i s₀
  starts : ∀ s a, Along S s₀ C s → C s a → AtStart S (fun i s => Start i s →
    (S.task i).KeepsNow S.handler (T i) (fun ok _ => Q i ok) (S.env i) s) s a
  given : ∀ s a, Along S s₀ C s → C s a → AtCall (fun i => (T i).given) s a
  frame : ∀ s a, Along S s₀ C s → C s a → AtCall (fun i op e s => (T i).call op e s → ∀ j, j ≠ i →
    Framed (T j) (Start j) (Q j) s (S.handler op (e, s)).2.2) s a

section Stands

variable {S : Setup Op Ans ε σ n} {s₀ : σ} {C : State Op Ans ε σ n → Action n → Prop}
  {T : Fin n → Contract Op ε σ} {Start : Fin n → σ → Prop} {Q : Fin n → Bool → σ → Prop}

theorem Stands.framed {i : Fin n} {ph : Phase Op Ans ε} {s s' : σ} (hs : Stands S T Start Q i s ph)
    (hf : Framed (T i) (Start i) (Q i) s s') : Stands S T Start Q i s' ph := by
  cases ph with
  | idle | started => exact hf.start hs
  | running p e => exact hs.imp (And.imp_right (And.imp_right hf.start)) (·.moved hf.rely)
  | sent ok | released ok | finished ok => exact hf.result ok hs

/-- A running task is where its program has a step to take. -/
theorem Frames.now (hf : Frames S s₀ C T Start Q) {s : State Op Ans ε σ n} {a : Action n}
    (hs : Along S s₀ C s) (hc : C s a) {i : Fin n} (ha : a = .exec i ∨ a = .send i)
    {p : Prog Op Ans Bool} {e : ε} (hp : s.phase i = .running p e)
    (hst : Stands S T Start Q i s.shared (s.phase i)) :
    p.KeepsNow S.handler (T i) (fun ok _ => Q i ok) e s.shared := by
  rw [hp] at hst
  rcases hst with ⟨rfl, rfl, hstart⟩ | hkeeps
  · exact hf.starts s a hs hc i ha hp hstart
  · exact hkeeps.now

theorem Frames.call (hf : Frames S s₀ C T Start Q) {s : State Op Ans ε σ n} {i : Fin n}
    (hs : Along S s₀ C s) (hc : C s (.exec i)) (hst : Stands S T Start Q i s.shared (s.phase i))
    {op : Op} {k : Ans op → Prog Op Ans Bool} {e : ε} (hp : s.phase i = .running (.call op k) e) :
    (T i).call op e s.shared ∧
      (k (S.handler op (e, s.shared)).1).Keeps S.handler (T i) (fun ok _ => Q i ok)
        (S.handler op (e, s.shared)).2.1 (S.handler op (e, s.shared)).2.2 :=
  hf.now hs hc (.inl rfl) hp hst (hf.given s _ hs hc i op k e rfl hp)

/-- A step of the program of task `i`: a call, or sending its result. -/
theorem step_running {s s' : State Op Ans ε σ n} {i : Fin n} {a : Action n}
    (ha : a = .exec i ∨ a = .send i) (h : step S s a = some s') :
    (∃ op k e, a = .exec i ∧ s.phase i = .running (.call op k) e ∧ s' = { s with
      phase := Function.update s.phase i (.running (k (S.handler op (e, s.shared)).1)
        (S.handler op (e, s.shared)).2.1)
      shared := (S.handler op (e, s.shared)).2.2 }) ∨
    ∃ ok e, a = .send i ∧ s.phase i = .running (.ret ok) e ∧ s' = { s with
      phase := Function.update s.phase i (.sent ok), results := s.results ++ [ok] } := by
  rcases ha with rfl | rfl
  · simp only [step] at h
    split at h
    · rename_i op k e hp
      exact .inl ⟨op, k, e, rfl, hp, (Option.some.inj h).symm⟩
    · cases h
  · simp only [step] at h
    split at h
    · rename_i ok e hp
      split_ifs at h
      exact .inr ⟨ok, e, rfl, hp, (Option.some.inj h).symm⟩
    · cases h

/-- What a step does to a task that neither makes a call nor sends its result. -/
inductive Phase.Passes (S : Setup Op Ans ε σ n) (i : Fin n) : Phase Op Ans ε → Phase Op Ans ε → Prop
  | stays (ph) : Passes S i ph ph
  | launch : Passes S i .idle .started
  | acquire : Passes S i .started (.running (S.task i) (S.env i))
  | release (ok) : Passes S i (.sent ok) (.released ok)
  | done (ok) : Passes S i (.released ok) (.finished ok)

/-- Any other step leaves the shared state and the running tasks alone. -/
theorem step_passes {s s' : State Op Ans ε σ n} {a : Action n} (hinv : Inv s)
    (ha : ∀ i, ¬(a = .exec i ∨ a = .send i)) (h : step S s a = some s') :
    s'.shared = s.shared ∧ ∀ j, Phase.Passes S j (s.phase j) (s'.phase j) := by
  have hmove : ∀ (i : Fin n) (x : Phase Op Ans ε), Phase.Passes S i (s.phase i) x →
      ∀ j, Phase.Passes S j (s.phase j) (Function.update s.phase i x j) := by
    intro i x hx j
    rcases eq_or_ne j i with rfl | hj
    · simpa using hx
    · simpa [hj] using Phase.Passes.stays (S := S) (i := j) (s.phase j)
  cases a with
  | exec i => exact absurd (.inl rfl) (ha i)
  | send i => exact absurd (.inr rfl) (ha i)
  | launch =>
    simp only [step] at h
    split_ifs at h with hl
    obtain rfl := Option.some.inj h
    have hidle : s.phase ⟨s.launched, hl⟩ = .idle := (hinv.idle_iff _).mpr (le_refl _)
    exact ⟨rfl, hmove _ _ (hidle ▸ .launch)⟩
  | acquire i =>
    simp only [step] at h
    split at h
    · rename_i hp
      split_ifs at h
      obtain rfl := Option.some.inj h
      exact ⟨rfl, hmove i _ (hp ▸ .acquire)⟩
    · cases h
  | release i =>
    simp only [step] at h
    split at h
    · rename_i ok hp
      split_ifs at h
      obtain rfl := Option.some.inj h
      exact ⟨rfl, hmove i _ (hp ▸ .release ok)⟩
    · cases h
  | done i =>
    simp only [step] at h
    split at h
    · rename_i ok hp
      obtain rfl := Option.some.inj h
      exact ⟨rfl, hmove i _ (hp ▸ .done ok)⟩
    · cases h
  | spawnCloser | close | finish =>
    simp only [step] at h
    split_ifs at h
    obtain rfl := Option.some.inj h
    exact ⟨rfl, fun j => .stays _⟩
  | receive =>
    simp only [step] at h
    split at h
    · cases h
    · split_ifs at h <;> cases h <;> exact ⟨rfl, fun j => .stays _⟩

theorem Stands.passes {i : Fin n} {ph ph' : Phase Op Ans ε} {s : σ}
    (hs : Stands S T Start Q i s ph) (h : Phase.Passes S i ph ph') : Stands S T Start Q i s ph' := by
  cases h with
  | stays => exact hs
  | acquire => exact .inl ⟨rfl, rfl, hs⟩
  | launch | release | done => exact hs

/-- Every task of every state along the runs stands as it stands alone. -/
theorem Frames.stands (hf : Frames S s₀ C T Start Q) {s : State Op Ans ε σ n} (hs : Along S s₀ C s) :
    ∀ i, Stands S T Start Q i s.shared (s.phase i) := by
  induction hs with
  | init => exact hf.init
  | @step s s' a hs hc hstep ih =>
    by_cases ha : ∃ i, a = .exec i ∨ a = .send i
    · obtain ⟨i, ha⟩ := ha
      rcases step_running ha hstep with ⟨op, k, e, rfl, hp, rfl⟩ | ⟨ok, e, rfl, hp, rfl⟩
      · obtain ⟨hcall, hrest⟩ := hf.call hs hc (ih i) hp
        intro j
        rcases eq_or_ne j i with rfl | hj
        · simpa [Stands] using .inr hrest
        · simpa [hj] using (ih j).framed (hf.frame s _ hs hc i op k e rfl hp hcall j hj)
      · have hQ : Q i ok s.shared := hf.now hs hc ha hp (ih i)
        intro j
        rcases eq_or_ne j i with rfl | hj
        · simpa [Stands] using hQ
        · simpa [hj] using ih j
    · obtain ⟨hshared, hpasses⟩ := step_passes hs.reaches.inv (not_exists.mp ha) hstep
      intro i
      rw [hshared]
      exact (ih i).passes (hpasses i)

/-- So each call of a task meets its contract. -/
theorem Frames.at_call (hf : Frames S s₀ C T Start Q) {s : State Op Ans ε σ n} {a : Action n}
    (hs : Along S s₀ C s) (hc : C s a) : AtCall (fun i => (T i).call) s a := by
  rintro i op k e rfl hp
  exact (hf.call hs hc (hf.stands hs i) hp).1

/-- And when the pool has returned, each task has ended as its contract says. -/
theorem Frames.finished (hf : Frames S s₀ C T Start Q) {s : State Op Ans ε σ n}
    (hs : Along S s₀ C s) (hr : s.returned = true) (i : Fin n) :
    ∃ ok, s.phase i = .finished ok ∧ Q i ok s.shared := by
  obtain ⟨ok, hok⟩ := hs.reaches.inv.all_finished hr i
  have hi := hf.stands hs i
  rw [hok] at hi
  exact ⟨ok, hok, hi⟩

end Stands

/-! ### Runs with a log -/

section Logged

variable {β : Type} (S : Setup Op Ans ε σ n) (s₀ : σ) (f : Op → ε → σ → Option β)

/-- What `f` notes of a step. -/
def noted (s : State Op Ans ε σ n) : Action n → Option β
  | .exec i =>
    match s.phase i with
    | .running (.call op _) e => f op e s.shared
    | _ => none
  | _ => none

/-- The states reached, each with what `f` has noted of the calls on the way. -/
inductive Logged : List β → State Op Ans ε σ n → Prop
  | init : Logged [] (init s₀)
  | step {log s s' a} (h : Logged log s) (hstep : step S s a = some s') :
      Logged (log ++ (noted f s a).toList) s'

variable {S s₀ f}

theorem Logged.reaches {log : List β} {s : State Op Ans ε σ n} (h : Logged S s₀ f log s) :
    Reaches S s₀ s := by
  induction h with
  | init => exact .init
  | step _ hstep ih => exact ih.step hstep

theorem Reaches.logged (f : Op → ε → σ → Option β) {s : State Op Ans ε σ n} (h : Reaches S s₀ s) :
    ∃ log, Logged S s₀ f log s := by
  induction h with
  | init => exact ⟨[], .init⟩
  | step _ hstep ih =>
    obtain ⟨log, hlog⟩ := ih
    exact ⟨_, hlog.step hstep⟩

/-- What each call keeps of the log and the shared state holds at the end of a run. -/
theorem Logged.invariant {I : List β → σ → Prop} (h0 : I [] s₀)
    (hI : ∀ s, Reaches S s₀ s → ∀ i op k e log, s.phase i = .running (.call op k) e →
      I log s.shared → I (log ++ (f op e s.shared).toList) (S.handler op (e, s.shared)).2.2)
    {log : List β} {s : State Op Ans ε σ n} (h : Logged S s₀ f log s) : I log s.shared := by
  induction h with
  | init => exact h0
  | @step log s s' a h hstep ih =>
    by_cases ha : ∃ i, a = .exec i ∨ a = .send i
    · obtain ⟨i, ha⟩ := ha
      rcases step_running ha hstep with ⟨op, k, e, rfl, hp, rfl⟩ | ⟨ok, e, rfl, hp, rfl⟩
      · have hnoted : noted f s (.exec i) = f op e s.shared := by rw [noted, hp]
        rw [hnoted]
        exact hI s h.reaches i op k e log hp ih
      · simpa [noted] using ih
    · have hnoted : noted f s a = none := by
        cases a with
        | exec i => exact absurd ⟨i, .inl rfl⟩ ha
        | _ => rfl
      rw [hnoted, (step_passes h.reaches.inv (not_exists.mp ha) hstep).1]
      simpa using ih

/-- So what each call keeps of the shared state holds in every state reached. -/
theorem Reaches.at_calls {I : σ → Prop} (h0 : I s₀)
    (hI : ∀ s, Reaches S s₀ s → ∀ i op k e, s.phase i = .running (.call op k) e →
      I s.shared → I (S.handler op (e, s.shared)).2.2)
    {s : State Op Ans ε σ n} (h : Reaches S s₀ s) : I s.shared := by
  obtain ⟨log, hlog⟩ := h.logged fun _ _ _ => (none : Option Unit)
  exact hlog.invariant (I := fun _ => I) h0 fun s hs i op k e _ hp => hI s hs i op k e hp

end Logged

end Pool

end Schemes
