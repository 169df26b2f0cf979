import VaultsSyncer.Sync.Engine

/-! What `withRetry` makes of an operation: how often it calls it, and what it returns. A policy of the
    API is not checked, so a negative number of retries reaches the loop when a backoff is set, and the
    loop is not entered then. -/

namespace VaultsSyncer

open GoStd Schemes Schemes.Prog

variable {σ : Type} {outOfRange : Option Float64 → ℤ}

/-- The operation as a single call, with a log of its outcomes: where the program calls `SetSecret`, it
    runs `fn`. -/
def loggingOutcomes (fn : Sync (Except GoError Unit)) (h : Handler Call Call.Ans σ) :
    Handler Call Call.Ans (σ × List (Except GoError Unit))
  | .setSecret _ _ _, (s, log) => ((fn.run h s).1, (fn.run h s).2, log ++ [(fn.run h s).1])
  | op, (s, log) => ((h op s).1, (h op s).2, log)

/-- What the calls of `fn` return that `withRetry` makes, in order. -/
def outcomes (policy : RetryPolicy) (fn : Sync (Except GoError Unit)) (h : Handler Call Call.Ans σ)
    (s : σ) (outOfRange : Option Float64 → ℤ := Float64.amd64) : List (Except GoError Unit) :=
  ((withRetry policy (setSecret "" "" []) outOfRange).run (loggingOutcomes fn h) (s, [])).2.2

/-- What the loop returns with `left` iterations to go and the outcomes of the calls it makes. -/
structure Retried (left : ℕ) (lastErr : Option GoError) (r : Except GoError Unit)
    (os : List (Except GoError Unit)) : Prop where
  called : 0 < left → os ≠ []
  bounded : os.length ≤ left
  stops : ∀ o ∈ os.dropLast, o ≠ .ok ()
  ok_iff : r = .ok () ↔ .ok () ∈ os
  wraps : ∀ err, r = .error err →
    (os = [] ∧ err = wrapNilable "max retries exceeded: " lastErr) ∨
      ∃ last, os.getLast? = some (.error last) ∧ err = .wrap "max retries exceeded: " last

theorem Retried.none (lastErr : Option GoError) :
    Retried 0 lastErr (.error (wrapNilable "max retries exceeded: " lastErr)) [] where
  called := fun h => absurd h (lt_irrefl 0)
  bounded := le_rfl
  stops := by simp
  ok_iff := by simp
  wraps := by
    rintro err ⟨⟩
    exact .inl ⟨rfl, rfl⟩

theorem Retried.success (left : ℕ) (lastErr : Option GoError) :
    Retried (left + 1) lastErr (.ok ()) [.ok ()] where
  called := fun _ => List.cons_ne_nil _ _
  bounded := by simp
  stops := by simp
  ok_iff := by simp
  wraps := by
    rintro err ⟨⟩

/-- A failure, and what the rest of the loop makes of it. -/
theorem Retried.failure {left : ℕ} {err : GoError} {r : Except GoError Unit}
    {os : List (Except GoError Unit)} (h : Retried left (some err) r os) (lastErr : Option GoError) :
    Retried (left + 1) lastErr r (.error err :: os) where
  called := fun _ => List.cons_ne_nil _ _
  bounded := Nat.succ_le_succ h.bounded
  stops := by
    intro o ho
    rcases os with _ | ⟨o', os⟩
    · cases ho
    · rcases List.mem_cons.mp ho with rfl | ho
      · exact fun hok => nomatch hok
      · exact h.stops o ho
  ok_iff := by
    rw [h.ok_iff, List.mem_cons]
    exact (or_iff_right fun hok => nomatch hok).symm
  wraps := by
    intro err' hr
    rcases h.wraps err' hr with ⟨rfl, herr⟩ | ⟨last, hlast, herr⟩
    · exact .inr ⟨err, rfl, herr⟩
    · exact .inr ⟨last, by rw [List.getLast?_cons, hlast]; rfl, herr⟩

/-- The loop with the operation as a single call does what the loop does, and its log says how. -/
theorem run_retryLoop_logging (policy : RetryPolicy) (fn : Sync (Except GoError Unit))
    (h : Handler Call Call.Ans σ) (left : ℕ) (attempt backoff : ℤ) (lastErr : Option GoError) (s : σ)
    (log : List (Except GoError Unit)) :
    ∃ os, (retryLoop policy (setSecret "" "" []) left attempt backoff lastErr outOfRange).run
          (loggingOutcomes fn h) (s, log) =
        (((retryLoop policy fn left attempt backoff lastErr outOfRange).run h s).1,
          ((retryLoop policy fn left attempt backoff lastErr outOfRange).run h s).2, log ++ os) ∧
      Retried left lastErr
        ((retryLoop policy fn left attempt backoff lastErr outOfRange).run h s).1 os := by
  induction left generalizing attempt backoff lastErr s log with
  | zero => exact ⟨[], by rw [List.append_nil]; rfl, Retried.none lastErr⟩
  | succ left ih =>
    rw [retryLoop, retryLoop, run_bind, run_bind]
    have hcall : (setSecret "" "" []).run (loggingOutcomes fn h) (s, log) =
        ((fn.run h s).1, (fn.run h s).2, log ++ [(fn.run h s).1]) := rfl
    rw [hcall]
    rcases fn.run h s with ⟨⟨err⟩ | ⟨⟩, s'⟩
    · dsimp only
      split_ifs with hat
      · obtain ⟨os, hrun, hos⟩ := ih (attempt + 1) (nextBackoff outOfRange policy backoff) (some err)
          (h (.sleep (milliseconds backoff)) s').2 (log ++ [.error err])
        refine ⟨.error err :: os, ?_, hos.failure lastErr⟩
        rw [List.append_assoc] at hrun
        exact hrun
      · obtain ⟨os, hrun, hos⟩ := ih (attempt + 1) backoff (some err) s' (log ++ [.error err])
        refine ⟨.error err :: os, ?_, hos.failure lastErr⟩
        rw [hrun, List.append_assoc]
        rfl
    · exact ⟨[.ok ()], rfl, Retried.success left lastErr⟩

/-- `withRetry` with the operation as a single call returns what `withRetry` returns, and leaves the same
    behind. -/
theorem run_withRetry_logging (policy : RetryPolicy) (fn : Sync (Except GoError Unit))
    (h : Handler Call Call.Ans σ) (s : σ) :
    (withRetry policy (setSecret "" "" []) outOfRange).run (loggingOutcomes fn h) (s, []) =
        (((withRetry policy fn outOfRange).run h s).1, ((withRetry policy fn outOfRange).run h s).2,
          outcomes policy fn h s outOfRange) ∧
      Retried (attempts policy) none ((withRetry policy fn outOfRange).run h s).1
        (outcomes policy fn h s outOfRange) := by
  obtain ⟨os, hrun, hos⟩ := run_retryLoop_logging policy fn h (attempts policy) 0 policy.initialBackoff
    none s []
  have hlog : outcomes policy fn h s outOfRange = os := by
    rw [outcomes, withRetry, hrun, List.nil_append]
  rw [hlog]
  exact ⟨hrun, hos⟩

/-- What a retry is to do, where it returns `r` and the calls it makes have the outcomes `os`. -/
structure RetrySpec (policy : RetryPolicy) (r : Except GoError Unit) (os : List (Except GoError Unit)) :
    Prop where
  called : os ≠ []
  stops : ∀ o ∈ os.dropLast, o ≠ .ok ()
  bounded : (os.length : ℤ) ≤ max policy.maxRetries 0 + 1
  nil_iff : r = .ok () ↔ .ok () ∈ os
  wraps : ∀ err, r = .error err →
    ∃ last, os.getLast? = some (.error last) ∧ err = .wrap "max retries exceeded: " last

/-- Any number of retries that is not negative will do. -/
theorem withRetry_spec {policy : RetryPolicy} (hpolicy : 0 ≤ policy.maxRetries)
    (fn : Sync (Except GoError Unit)) (h : Handler Call Call.Ans σ) (s : σ) :
    RetrySpec policy ((withRetry policy fn outOfRange).run h s).1 (outcomes policy fn h s outOfRange) := by
  obtain ⟨-, hos⟩ := run_withRetry_logging policy fn h s
  have hattempts : (attempts policy : ℤ) = policy.maxRetries + 1 := by
    rw [attempts]
    omega
  have hcalled : outcomes policy fn h s outOfRange ≠ [] := hos.called (by omega)
  refine ⟨hcalled, hos.stops, ?_, hos.ok_iff, fun err hr => ?_⟩
  · have hbounded := hos.bounded
    omega
  · exact (hos.wraps err hr).resolve_left fun hnone => hcalled hnone.1

/-- A negative one makes no call. -/
theorem withRetry_of_neg {policy : RetryPolicy} (hpolicy : policy.maxRetries < 0)
    (fn : Sync (Except GoError Unit)) :
    withRetry policy fn outOfRange = Prog.ret (.error (.new "max retries exceeded: %!w(<nil>)")) := by
  have hattempts : attempts policy = 0 := by
    rw [attempts]
    omega
  rw [withRetry, hattempts]
  rfl

/-- The defaults are used where neither field is positive, so a negative number of retries stays in force
    exactly where a backoff is set. -/
theorem effectiveRetryPolicy_neg_iff {p : RetryPolicy} :
    (effectiveRetryPolicy p).maxRetries < 0 ↔ p.maxRetries < 0 ∧ 0 < p.initialBackoff := by
  rw [effectiveRetryPolicy]
  split_ifs with h
  · omega
  · simp only
    omega

/-- A retry under the effective policy does what it is to do exactly where the policy given does not set a
    backoff with a negative number of retries. -/
theorem withRetry_effective_iff (p : RetryPolicy) (fn : Sync (Except GoError Unit))
    (h : Handler Call Call.Ans σ) (s : σ) :
    RetrySpec (effectiveRetryPolicy p) ((withRetry (effectiveRetryPolicy p) fn outOfRange).run h s).1
        (outcomes (effectiveRetryPolicy p) fn h s outOfRange) ↔
      ¬(p.maxRetries < 0 ∧ 0 < p.initialBackoff) := by
  rw [← effectiveRetryPolicy_neg_iff, not_lt]
  constructor
  · intro hspec
    refine not_lt.mp fun hneg => hspec.called ?_
    rw [outcomes, withRetry_of_neg hneg]
    rfl
  · intro hpolicy
    exact withRetry_spec hpolicy fn h s

/-- A write that would work is not tried, and is reported as a failure without a cause. -/
theorem write_not_tried :
    let policy := effectiveRetryPolicy { maxRetries := -1, initialBackoff := 1 }
    let fn := setSecret "b" "k" [1]
    let start : Env × World := (Stream'.const {}, { vaults := fun _ _ => none })
    (fn.run handle start).1 = .ok () ∧
      ((withRetry policy fn).run handle start).1 =
        .error (.new "max retries exceeded: %!w(<nil>)") ∧
      outcomes policy fn handle start = [] ∧
      ¬RetrySpec policy ((withRetry policy fn).run handle start).1 (outcomes policy fn handle start) := by
  intro policy fn start
  have hneg : policy.maxRetries < 0 := effectiveRetryPolicy_neg_iff.mpr (by decide)
  have hnone : outcomes policy fn handle start = [] := by
    rw [outcomes, withRetry_of_neg hneg]
    rfl
  refine ⟨rfl, ?_, hnone, fun hspec => hspec.called hnone⟩
  rw [withRetry_of_neg hneg]
  rfl

end VaultsSyncer
