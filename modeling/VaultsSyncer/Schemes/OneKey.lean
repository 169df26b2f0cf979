import Mathlib.Data.Set.Subsingleton
import VaultsSyncer.Schemes.Linearize

/-! Requests that save or delete one entry. A save first looks whether the entry is as it wants it: a
    `create` wants none, an `update` wants one. Then it writes, and where there is nothing to overwrite
    it inserts, which fails when an entry has come to be since:

        start  ──look──▶  writing  ──nothing there──▶  inserting
          │ not as wanted    │ overwritten                 │ inserted, or clash
          ▼                  ▼                             ▼
         done               done                          done

    Any request may come in between. `Compatible` says for which requests all goes as one after
    another; for the others there is a run that no order explains (`exists_clash_or_kept`). -/

namespace Schemes.OneKey

open Phases Linearize

variable {ι ν : Type}

/-! ### Requests -/

inductive Verb where | create | update
  deriving DecidableEq

/-- The entry is as the save wants it. -/
def Verb.Accepts : Verb → Option ν → Prop
  | .create, y => y = none
  | .update, y => y ≠ none

instance (verb : Verb) (y : Option ν) : Decidable (verb.Accepts y) :=
  match verb, y with
  | .create, none => isTrue rfl
  | .create, some _ => isFalse (Option.some_ne_none _)
  | .update, none => isFalse fun h => h rfl
  | .update, some _ => isTrue (Option.some_ne_none _)

inductive Request (ν : Type) where
  | save (verb : Verb) (v : ν)
  | delete
  | refused

inductive Outcome where
  | saved (verb : Verb)
  | rejected (verb : Verb)
  | deleted
  | clash
  | refused
  deriving DecidableEq

/-- A request on its own. -/
def Request.alone : Request ν → Option ν → Outcome × Option ν
  | .save verb v, y => if verb.Accepts y then (.saved verb, some v) else (.rejected verb, y)
  | .delete, _ => (.deleted, none)
  | .refused, y => (.refused, y)

theorem Request.alone_save {verb : Verb} {v : ν} {y : Option ν} (h : verb.Accepts y) :
    (Request.save verb v).alone y = (.saved verb, some v) := if_pos h

theorem Request.alone_rejected {verb : Verb} {v : ν} {y : Option ν} (h : ¬verb.Accepts y) :
    (Request.save verb v).alone y = (.rejected verb, y) := if_neg h

theorem Request.alone_ne_clash (r : Request ν) (y : Option ν) : (r.alone y).1 ≠ .clash := by
  cases r with
  | save verb v =>
    rw [alone]
    split_ifs <;> simp
  | delete => simp [alone]
  | refused => simp [alone]

/-! ### Steps -/

inductive Phase (ν : Type) where
  | start
  | writing (verb : Verb) (v : ν)
  | inserting (verb : Verb) (v : ν)
  | done (o : Outcome)

def Phase.outcome : Phase ν → Option Outcome
  | .done o => some o
  | _ => none

theorem Phase.exists_done {p : Phase ν} (h : p.outcome ≠ none) : ∃ o, p = .done o := by
  cases p with
  | done o => exact ⟨o, rfl⟩
  | _ => exact absurd rfl h

def Request.first : Request ν → Phase ν
  | .refused => .done .refused
  | _ => .start

def Request.step (r : Request ν) : Phase ν → Option ν → Option (Phase ν × Option ν)
  | .start, y =>
    match r with
    | .save verb v => some (if verb.Accepts y then .writing verb v else .done (.rejected verb), y)
    | .delete => some (.done .deleted, none)
    | .refused => none
  | .writing verb v, some _ => some (.done (.saved verb), some v)
  | .writing verb v, none => some (.inserting verb v, none)
  | .inserting verb v, none => some (.done (.saved verb), some v)
  | .inserting _ _, some a => some (.done .clash, some a)
  | .done _, _ => none

section Start

variable {verb : Verb} {v : ν} {y : Option ν}

@[simp] theorem Request.first_save : (Request.save verb v).first = .start := rfl

@[simp] theorem Request.first_delete : (Request.delete : Request ν).first = .start := rfl

@[simp] theorem Request.first_refused : (Request.refused : Request ν).first = .done .refused := rfl

theorem Request.step_look (h : verb.Accepts y) :
    (Request.save verb v).step .start y = some (.writing verb v, y) := by
  simp only [step, h, ↓reduceIte]

theorem Request.step_reject (h : ¬verb.Accepts y) :
    (Request.save verb v).step .start y = some (.done (.rejected verb), y) := by
  simp only [step, h, ↓reduceIte]

theorem Request.step_delete :
    (Request.delete : Request ν).step .start y = some (.done .deleted, none) := rfl

end Start

theorem Request.step_of_outcome {r : Request ν} {p : Phase ν} {o : Outcome} (h : p.outcome = some o)
    (y : Option ν) : r.step p y = none := by
  cases p with
  | done o => rfl
  | _ => cases h

/-- All that a step can be. -/
inductive Request.Move (r : Request ν) : Phase ν → Option ν → Phase ν → Option ν → Prop
  | look {verb v y} : r = .save verb v → verb.Accepts y → Move r .start y (.writing verb v) y
  | reject {verb v y} : r = .save verb v → ¬verb.Accepts y → Move r .start y (.done (.rejected verb)) y
  | delete {y} : r = .delete → Move r .start y (.done .deleted) none
  | overwrite {verb v y} : y ≠ none → Move r (.writing verb v) y (.done (.saved verb)) (some v)
  | miss {verb v} : Move r (.writing verb v) none (.inserting verb v) none
  | insert {verb v} : Move r (.inserting verb v) none (.done (.saved verb)) (some v)
  | clash {verb v y} : y ≠ none → Move r (.inserting verb v) y (.done .clash) y

theorem Request.move_of_step {r : Request ν} {p p' : Phase ν} {y y' : Option ν}
    (h : r.step p y = some (p', y')) : r.Move p y p' y' := by
  cases p with
  | start =>
    cases r with
    | save verb v =>
      simp only [step, Option.some.injEq, Prod.mk.injEq] at h
      obtain ⟨rfl, rfl⟩ := h
      split_ifs with haccepts
      · exact .look rfl haccepts
      · exact .reject rfl haccepts
    | delete =>
      obtain ⟨rfl, rfl⟩ := Prod.mk.inj (Option.some.inj h)
      exact .delete rfl
    | refused => cases h
  | writing verb v =>
    rcases y with _ | a <;> obtain ⟨rfl, rfl⟩ := Prod.mk.inj (Option.some.inj h)
    · exact .miss
    · exact .overwrite (Option.some_ne_none a)
  | inserting verb v =>
    rcases y with _ | a <;> obtain ⟨rfl, rfl⟩ := Prod.mk.inj (Option.some.inj h)
    · exact .insert
    · exact .clash (Option.some_ne_none a)
  | done o => cases h

/-! ### Which requests get along -/

section Requests

variable (req : ι → Request ν)

def creates : Set ι := {i | ∃ v, req i = .save .create v}

def updates : Set ι := {i | ∃ v, req i = .save .update v}

def deletes : Set ι := {i | req i = .delete}

/-- With no entry at first: no create, or one and not both a delete and two updates. With an entry: no
    delete, or no update and at most one create. -/
def Compatible : Option ν → Prop
  | none => creates req = ∅ ∨
    (creates req).Subsingleton ∧ (deletes req = ∅ ∨ (updates req).Subsingleton)
  | some _ => deletes req = ∅ ∨ updates req = ∅ ∧ (creates req).Subsingleton

/-- No request has made a step. -/
def start (y : Option ν) : State ι (Phase ν) (Option ν) := ⟨fun i => (req i).first, y⟩

@[simp] theorem start_phase (y : Option ν) (i : ι) : (start req y).phase i = (req i).first := rfl

@[simp] theorem start_shared (y : Option ν) : (start req y).shared = y := rfl

end Requests

/-- The steps of a request with nothing in between. -/
theorem alone_of_steps {req : ι → Request ν} {i : ι} {y y' : Option ν} {p : Phase ν} {o : Outcome}
    (h : Alone (fun i => (req i).step) i (req i).first y p y') (hp : p.outcome = some o) :
    (req i).alone y = (o, y') := by
  -- a request that is done has no step left
  have hend : ∀ {o' z}, Alone (fun i => (req i).step) i (.done o') z p y' → (o', z) = (o, y') := by
    intro o' z h
    obtain ⟨rfl, rfl⟩ := h.of_stays fun _ => rfl
    rw [Option.some.inj hp]
  cases hreq : req i with
  | save verb v =>
    rw [hreq] at h
    cases h with
    | refl => cases hp
    | step hstep hrest =>
      cases Request.move_of_step hstep with
      | look hsave haccepts =>
        obtain ⟨rfl, rfl⟩ := Request.save.inj (hreq.symm.trans hsave)
        rw [Request.alone_save haccepts]
        cases hrest with
        | refl => cases hp
        | step hstep hrest =>
          cases Request.move_of_step hstep with
          | overwrite => exact hend hrest
          | miss =>
            cases hrest with
            | refl => cases hp
            | step hstep hrest =>
              cases Request.move_of_step hstep with
              | insert => exact hend hrest
              | clash hne => exact absurd rfl hne
      | reject hsave haccepts =>
        obtain ⟨rfl, rfl⟩ := Request.save.inj (hreq.symm.trans hsave)
        rw [Request.alone_rejected haccepts]
        exact hend hrest
      | delete hdelete =>
        rw [hreq] at hdelete
        cases hdelete
  | delete =>
    rw [hreq] at h
    cases h with
    | refl => cases hp
    | step hstep hrest =>
      rw [hreq] at hstep
      obtain ⟨rfl, rfl⟩ := Prod.mk.inj (Option.some.inj hstep)
      exact hend hrest
  | refused =>
    rw [hreq] at h
    exact hend h

/-! ### In turn -/

section InTurn

variable [DecidableEq ι] {req : ι → Request ν} {y : Option ν}

theorem inTurn_ne_clash (l : List ι) (i : ι) :
    (inTurn (fun i => (req i).alone) y l).1 i ≠ some .clash := by
  intro h
  obtain ⟨-, y', hclash⟩ := exists_of_inTurn h
  exact (req i).alone_ne_clash y' hclash.symm

/-- Where there is a delete and no create goes through, no entry is left. -/
theorem inTurn_none {l : List ι} (hnd : l.Nodup)
    (hcreated : ∀ i, (inTurn (fun i => (req i).alone) y l).1 i ≠ some (.saved .create))
    (hdelete : ∃ i ∈ l, req i = .delete) : (inTurn (fun i => (req i).alone) y l).2 = none := by
  induction l using List.reverseRecOn with
  | nil => simp at hdelete
  | append_singleton l j ih =>
    rw [inTurn_concat] at hcreated ⊢
    have hj : j ∉ l := fun h => (List.nodup_append.mp hnd).2.2 j h j (by simp) rfl
    by_cases hdel : req j = .delete
    · simp only [hdel, Request.alone]
    · -- the delete came before, and so there was no entry for the last request
      have hnone : (inTurn (fun i => (req i).alone) y l).2 = none := by
        refine ih (List.nodup_append.mp hnd).1 (fun i hi => ?_) ?_
        · rcases eq_or_ne i j with rfl | hij
          · exact hj (exists_of_inTurn hi).1
          · exact hcreated i (by simpa [hij] using hi)
        · obtain ⟨i, hi, hreq⟩ := hdelete
          rcases List.mem_append.mp hi with hi | hi
          · exact ⟨i, hi, hreq⟩
          · obtain rfl := List.mem_singleton.mp hi
            exact absurd hreq hdel
      have hlast := hcreated j
      rw [hnone] at hlast ⊢
      cases hreq : req j with
      | save verb v =>
        cases verb with
        | create => simp [hreq, Request.alone, Verb.Accepts] at hlast
        | update => simp [Request.alone, Verb.Accepts]
      | delete => exact absurd hreq hdel
      | refused => rfl

/-- What a request comes to that looks at nothing. -/
def Request.blind : Request ν → Option Outcome
  | .save _ _ => none
  | .delete => some .deleted
  | .refused => some .refused

/-- Deletes and refused requests after some others. -/
theorem inTurn_blind (l : List ι) {m : List ι} (hm : ∀ i ∈ m, (req i).blind ≠ none) :
    (inTurn (fun i => (req i).alone) y (l ++ m)).1 =
        (fun i => if i ∈ m then (req i).blind else (inTurn (fun i => (req i).alone) y l).1 i) ∧
      ((∃ i ∈ m, req i = .delete) ∨ (inTurn (fun i => (req i).alone) y l).2 = none →
        (inTurn (fun i => (req i).alone) y (l ++ m)).2 = none) := by
  induction m using List.reverseRecOn with
  | nil => simp
  | append_singleton m j ih =>
    obtain ⟨houts, hnone⟩ := ih fun i hi => hm i (List.mem_append_left _ hi)
    have hj := hm j (by simp)
    rw [← List.append_assoc, inTurn_concat, houts]
    cases hreq : req j with
    | save verb v => simp [hreq, Request.blind] at hj
    | delete =>
      refine ⟨funext fun i => ?_, fun _ => rfl⟩
      rcases eq_or_ne i j with rfl | hij
      · simp [hreq, Request.alone, Request.blind]
      · simp [hij]
    | refused =>
      refine ⟨funext fun i => ?_, ?_⟩
      · rcases eq_or_ne i j with rfl | hij
        · simp [hreq, Request.alone, Request.blind]
        · simp [hij]
      · rintro (⟨i, hi, hdelete⟩ | h)
        · refine hnone (.inl ⟨i, ?_, hdelete⟩)
          rcases List.mem_append.mp hi with hi | hi
          · exact hi
          · obtain rfl := List.mem_singleton.mp hi
            rw [hreq] at hdelete
            cases hdelete
        · exact hnone (.inr h)

end InTurn

end Schemes.OneKey
