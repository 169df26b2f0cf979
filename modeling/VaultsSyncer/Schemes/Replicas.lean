import Mathlib.Logic.Basic

/-! Two replicas of one cell and a reconciler that is called again and again. A call that fails
    changes nothing; one that succeeds leaves one value on both sides, and it is a value that one of
    them held before. No call invents a value, and once a call has succeeded nothing moves any more. -/

namespace Schemes.Replicas

variable {V : Type}

structure Pair (V : Type) where
  left : Option V
  right : Option V

namespace Pair

/-- One of the replicas holds `x`. -/
def Holds (p : Pair V) (x : V) : Prop := p.left = some x ∨ p.right = some x

/-- Both replicas hold `x`. -/
def Agreed (p : Pair V) (x : V) : Prop := p.left = some x ∧ p.right = some x

end Pair

/-- A call: whether it reports success, and what it leaves. -/
inductive Step : Pair V → Bool → Pair V → Prop
  | fail (p : Pair V) : Step p false p
  | keep (v : V) : Step ⟨some v, some v⟩ true ⟨some v, some v⟩
  | push (v : V) (r : Option V) : Step ⟨some v, r⟩ true ⟨some v, some v⟩
  | pull (l : Option V) (v : V) : Step ⟨l, some v⟩ true ⟨some v, some v⟩

/-- Calls one after another. -/
inductive Run : Pair V → List Bool → Pair V → Prop
  | nil (p : Pair V) : Run p [] p
  | cons {p p' p'' : Pair V} {ok : Bool} {oks : List Bool} :
      Step p ok p' → Run p' oks p'' → Run p (ok :: oks) p''

theorem Step.holds {p p' : Pair V} {ok : Bool} (h : Step p ok p') {x : V} (hx : p'.Holds x) :
    p.Holds x := by
  cases h with
  | fail => exact hx
  | keep v => exact hx
  | push v r => exact .inl (hx.elim id id)
  | pull l v => exact .inr (hx.elim id id)

theorem Step.agreed {p p' : Pair V} (h : Step p true p') : ∃ x, p'.Agreed x := by
  cases h with
  | keep v | push v _ | pull _ v => exact ⟨v, rfl, rfl⟩

theorem Step.stays {p p' : Pair V} {ok : Bool} (h : Step p ok p') {x : V} (hp : p.Agreed x) :
    p'.Agreed x := by
  obtain ⟨hl, hr⟩ := hp
  cases h with
  | fail => exact ⟨hl, hr⟩
  | keep v => exact ⟨hl, hl⟩
  | push v r => exact ⟨hl, hl⟩
  | pull l v => exact ⟨hr, hr⟩

theorem Run.holds {p p' : Pair V} {oks : List Bool} (h : Run p oks p') {x : V}
    (hx : p'.Holds x) : p.Holds x := by
  induction h with
  | nil => exact hx
  | cons hs _ ih => exact hs.holds (ih hx)

theorem Run.stays {p p' : Pair V} {oks : List Bool} (h : Run p oks p') {x : V}
    (hp : p.Agreed x) : p'.Agreed x := by
  induction h with
  | nil => exact hp
  | cons hs _ ih => exact ih (hs.stays hp)

/-- From the first success onward both replicas hold one value. -/
theorem Run.agreed {p p' p'' : Pair V} {oks : List Bool} (hs : Step p true p')
    (h : Run p' oks p'') : ∃ x, p'.Agreed x ∧ p''.Agreed x := by
  obtain ⟨x, hx⟩ := hs.agreed
  exact ⟨x, hx, h.stays hx⟩

end Schemes.Replicas
