import VaultsSyncer.Schemes.OneKey

/-! Runs of requests on one entry. Compatible ones come to what they come to in some order, whatever
    their schedule (`exists_order`): nearly always the order in which they have committed, and only for
    one create and one update among deletes another one. Of the others, some run ends with a clash, or
    with an entry that a delete should have taken (`exists_clash_or_kept`). -/

namespace Schemes.OneKey

open Phases Linearize

variable {ι ν : Type} {req : ι → Request ν} {y₀ : Option ν}

/-! ### The order of commits -/

/-- The phase is one of the request, and the entry is still as the request has found it; only a create
    inserts. -/
def Phase.Fits (r : Request ν) (y : Option ν) : Phase ν → Prop
  | .writing verb v => r = .save verb v ∧ verb.Accepts y
  | .inserting verb v => r = .save verb v ∧ verb = .create ∧ y = none
  | _ => True

theorem Phase.Fits.overwritten {p : Phase ν} {r : Request ν} {y : Option ν} (h : p.Fits r y)
    (hy : y ≠ none) (v : ν) : p.Fits r (some v) := by
  cases p with
  | writing verb w =>
    cases verb with
    | create => exact absurd h.2 hy
    | update => exact ⟨h.1, Option.some_ne_none v⟩
  | inserting verb w => exact absurd h.2.2 hy
  | _ => trivial

structure Steady (req : ι → Request ν) (y₀ : Option ν) (t : State ι (Phase ν) (Option ν)) : Prop where
  fits : ∀ i, (t.phase i).Fits (req i) t.shared
  present : y₀ ≠ none → deletes req = ∅ → t.shared ≠ none
  absent : y₀ = none → creates req = ∅ → t.shared = none

theorem steady_start : Steady req y₀ (start req y₀) where
  fits := by
    intro i
    rw [start_phase]
    cases req i <;> trivial
  present := fun h _ => h
  absent := fun h _ => h

section Steady

variable [DecidableEq ι]

theorem Steady.set {t : State ι (Phase ν) (Option ν)} (h : Steady req y₀ t) {i : ι} {p : Phase ν}
    {y : Option ν} (hi : p.Fits (req i) y)
    (hothers : ∀ j, j ≠ i → (t.phase j).Fits (req j) t.shared → (t.phase j).Fits (req j) y)
    (hpresent : y₀ ≠ none → deletes req = ∅ → y ≠ none)
    (habsent : y₀ = none → creates req = ∅ → y = none) : Steady req y₀ (t.set i p y) := by
  refine ⟨fun j => ?_, hpresent, habsent⟩
  rcases eq_or_ne j i with rfl | hji
  · simpa using hi
  · simpa [hji] using hothers j hji (h.fits j)

/-- A delete goes by, where no update has looked before it. -/
theorem Steady.delete {phase : ι → Phase ν} {y : Option ν} (h : Steady req y₀ ⟨phase, y⟩)
    (hdelete : deletes req = ∅ ∨ updates req = ∅ ∨ y₀ = none ∧ creates req = ∅) {i : ι}
    (hreq : req i = .delete) : Steady req y₀ ((⟨phase, y⟩ : State _ _ _).set i (.done .deleted) none) := by
  refine h.set trivial (fun j _ hj => ?_) (fun _ hnone => ?_) fun _ _ => rfl
  · dsimp only at hj ⊢
    generalize phase j = q at hj
    cases q with
    | writing verb v =>
      cases verb with
      | create => exact ⟨hj.1, rfl⟩
      | update =>
        exfalso
        rcases hdelete with hnone | hnone | ⟨hy, hnone⟩
        · exact Set.notMem_empty i (hnone ▸ hreq)
        · exact Set.notMem_empty j (hnone ▸ ⟨v, hj.1⟩)
        · exact hj.2 (h.absent hy hnone)
    | inserting verb v => exact ⟨hj.1, hj.2.1, rfl⟩
    | _ => trivial
  · exact absurd hreq (Set.eq_empty_iff_forall_notMem.mp hnone i)

/-- A create inserts its entry, where no other create has looked before it. -/
theorem Steady.insert {phase : ι → Phase ν} (h : Steady req y₀ ⟨phase, none⟩)
    (hcreate : (creates req).Subsingleton ∨ y₀ ≠ none ∧ deletes req = ∅) {i : ι} {v : ν}
    (hreq : req i = .save .create v) (o : Outcome) :
    Steady req y₀ ((⟨phase, none⟩ : State _ _ _).set i (.done o) (some v)) := by
  have hother : ∀ j, j ≠ i → ∀ w, req j ≠ .save .create w := by
    intro j hji w hj
    rcases hcreate with hone | ⟨hy, hnone⟩
    · exact hji (hone ⟨w, hj⟩ ⟨v, hreq⟩)
    · exact h.present hy hnone rfl
  refine h.set trivial (fun j hji hj => ?_) (fun _ _ => Option.some_ne_none _) fun _ hnone => ?_
  · dsimp only at hj ⊢
    generalize phase j = q at hj
    cases q with
    | writing verb w =>
      cases verb with
      | create => exact absurd hj.1 (hother j hji w)
      | update => exact absurd rfl hj.2
    | inserting verb w =>
      obtain ⟨hj, rfl, -⟩ := hj
      exact absurd hj (hother j hji w)
    | _ => trivial
  · exact absurd ⟨v, hreq⟩ (Set.eq_empty_iff_forall_notMem.mp hnone i)

/-- A create is not overtaken by another one, nor an update by a delete. -/
theorem steady_commits (hcreate : (creates req).Subsingleton ∨ y₀ ≠ none ∧ deletes req = ∅)
    (hdelete : deletes req = ∅ ∨ updates req = ∅ ∨ y₀ = none ∧ creates req = ∅) :
    Commits (fun i => (req i).step) Phase.outcome (fun i => (req i).alone) (Steady req y₀) where
  kept := by
    rintro ⟨phase, y⟩ i p' y' hI hstep
    have hfits : (phase i).Fits (req i) y := hI.fits i
    have hmove := Request.move_of_step hstep
    dsimp only at hmove
    generalize phase i = p at hfits hmove
    cases hmove with
    | look hreq haccepts => exact hI.set ⟨hreq, haccepts⟩ (fun _ _ h => h) hI.present hI.absent
    | reject => exact hI.set trivial (fun _ _ h => h) hI.present hI.absent
    | delete hreq => exact hI.delete hdelete hreq
    | overwrite hne =>
      refine hI.set trivial (fun j _ hj => hj.overwritten hne _) (fun _ _ => Option.some_ne_none _) ?_
      exact fun hy hnone => absurd (hI.absent hy hnone) hne
    | miss =>
      refine hI.set ⟨hfits.1, ?_, rfl⟩ (fun _ _ h => h) hI.present hI.absent
      rename_i verb v
      cases verb with
      | create => rfl
      | update => exact absurd rfl hfits.2
    | insert =>
      obtain ⟨hreq, rfl, -⟩ := hfits
      exact hI.insert hcreate hreq _
    | clash hne => exact absurd hfits.2.2 hne
  effect := by
    rintro ⟨phase, y⟩ i p' y' hI hstep
    have hfits : (phase i).Fits (req i) y := hI.fits i
    have hmove := Request.move_of_step hstep
    dsimp only at hmove ⊢
    generalize phase i = p at hfits hmove
    cases hmove with
    | look => exact .inl ⟨rfl, rfl⟩
    | reject hreq haccepts => exact .inr ⟨_, rfl, by rw [hreq, Request.alone_rejected haccepts]⟩
    | delete hreq => exact .inr ⟨_, rfl, by rw [hreq]; rfl⟩
    | overwrite => exact .inr ⟨_, rfl, by rw [hfits.1, Request.alone_save hfits.2]⟩
    | miss => exact .inl ⟨rfl, rfl⟩
    | insert =>
      obtain ⟨hreq, rfl, -⟩ := hfits
      exact .inr ⟨_, rfl, by rw [hreq]; rfl⟩
    | clash hne => exact absurd hfits.2.2 hne
  stays := Request.step_of_outcome

/-- All is as in the order of the commits. -/
theorem order_of_steady [Fintype ι] (hcreate : (creates req).Subsingleton ∨ y₀ ≠ none ∧ deletes req = ∅)
    (hdelete : deletes req = ∅ ∨ updates req = ∅ ∨ y₀ = none ∧ creates req = ∅)
    {t : State ι (Phase ν) (Option ν)} (ht : Run (fun i => (req i).step) (start req y₀) t)
    (hdone : ∀ i, (t.phase i).outcome ≠ none) : ∃ l : List ι, l.Nodup ∧ (∀ i, i ∈ l) ∧
      inTurn (fun i => (req i).alone) y₀ l = (fun i => (t.phase i).outcome, t.shared) := by
  have hinit : ∀ i o, ((start req y₀).phase i).outcome = some o → ∀ y, (req i).alone y = (o, y) := by
    intro i o h y
    rw [start_phase] at h
    cases hreq : req i with
    | refused =>
      rw [hreq] at h
      obtain rfl := Option.some.inj h
      rfl
    | _ =>
      rw [hreq] at h
      cases h
  obtain ⟨-, l, hnd, hmem, hl⟩ :=
    (steady_commits hcreate hdelete).exists_order steady_start hinit ht
  exact ⟨l, hnd, fun i => (hmem i).mpr (hdone i), hl⟩

end Steady

/-! ### One create and one update -/

/-- How a create of `v` and an update to `w` go on where there is no entry at first, with deletes at any
    time: the update may come to write its entry a second time, but meets no other. -/
inductive Duel (v w : ν) : Phase ν → Phase ν → Option ν → Prop
  | before {p q} : p = .start ∨ p = .writing .create v ∨ p = .inserting .create v →
      q = .start ∨ q = .done (.rejected .update) → Duel v w p q none
  | created {q y} : q = .start ∨ q = .done (.rejected .update) ∨ q = .writing .update w →
      y = none ∨ y = some v → Duel v w (.done (.saved .create)) q y
  | again : Duel v w (.done (.saved .create)) (.inserting .update w) none
  | updated {y} : y = none ∨ y = some w →
      Duel v w (.done (.saved .create)) (.done (.saved .update)) y

theorem Duel.deleted {v w : ν} {p q : Phase ν} {y : Option ν} (h : Duel v w p q y) :
    Duel v w p q none := by
  cases h with
  | before hp hq => exact .before hp hq
  | created hq => exact .created hq (.inl rfl)
  | again => exact .again
  | updated => exact .updated (.inl rfl)

theorem Duel.create_moves {v w : ν} {p q p' : Phase ν} {y y' : Option ν} (h : Duel v w p q y)
    (hmove : (Request.save .create v).Move p y p' y') : Duel v w p' q y' := by
  cases h with
  | before hp hq =>
    cases hmove with
    | look hreq =>
      obtain ⟨rfl, rfl⟩ := Request.save.inj hreq
      exact .before (.inr (.inl rfl)) hq
    | reject hreq hnot =>
      obtain ⟨rfl, rfl⟩ := Request.save.inj hreq
      exact absurd rfl hnot
    | delete hreq => cases hreq
    | overwrite hne => exact absurd rfl hne
    | miss =>
      obtain ⟨rfl, rfl⟩ : _ = Verb.create ∧ _ = v := by simpa using hp
      exact .before (.inr (.inr rfl)) hq
    | insert =>
      obtain ⟨rfl, rfl⟩ : _ = Verb.create ∧ _ = v := by simpa using hp
      refine .created ?_ (.inr rfl)
      rcases hq with rfl | rfl
      · exact .inl rfl
      · exact .inr (.inl rfl)
    | clash hne => exact absurd rfl hne
  | _ => cases hmove

theorem Duel.update_moves {v w : ν} {p q q' : Phase ν} {y y' : Option ν} (h : Duel v w p q y)
    (hmove : (Request.save .update w).Move q y q' y') : Duel v w p q' y' := by
  cases h with
  | before hp hq =>
    cases hmove with
    | look hreq haccepts =>
      obtain ⟨rfl, rfl⟩ := Request.save.inj hreq
      exact absurd rfl haccepts
    | reject hreq =>
      obtain ⟨rfl, rfl⟩ := Request.save.inj hreq
      exact .before hp (.inr rfl)
    | delete hreq => cases hreq
    | _ => simp at hq
  | created hq hy =>
    cases hmove with
    | look hreq =>
      obtain ⟨rfl, rfl⟩ := Request.save.inj hreq
      exact .created (.inr (.inr rfl)) hy
    | reject hreq =>
      obtain ⟨rfl, rfl⟩ := Request.save.inj hreq
      exact .created (.inr (.inl rfl)) hy
    | delete hreq => cases hreq
    | overwrite =>
      obtain ⟨rfl, rfl⟩ : _ = Verb.update ∧ _ = w := by simpa using hq
      exact .updated (.inr rfl)
    | miss =>
      obtain ⟨rfl, rfl⟩ : _ = Verb.update ∧ _ = w := by simpa using hq
      exact .again
    | _ => simp at hq
  | again =>
    cases hmove with
    | insert => exact .updated (.inr rfl)
    | clash hne => exact absurd rfl hne
  | updated => cases hmove

section Paired

variable [DecidableEq ι] {c u : ι} {v w : ν}

/-- The create, the update, and the deletes around them. -/
structure Paired (req : ι → Request ν) (c u : ι) (v w : ν) (t : State ι (Phase ν) (Option ν)) :
    Prop where
  duel : Duel v w (t.phase c) (t.phase u) t.shared
  others : ∀ i, i ≠ c → i ≠ u → t.phase i = .start ∨ (t.phase i).outcome = (req i).blind

theorem paired_step (hc : req c = .save .create v) (hu : req u = .save .update w)
    (hothers : ∀ i, i ≠ c → i ≠ u → (req i).blind ≠ none) {t : State ι (Phase ν) (Option ν)} {i : ι}
    {p : Phase ν} {y : Option ν} (h : Paired req c u v w t)
    (hstep : (req i).step (t.phase i) t.shared = some (p, y)) : Paired req c u v w (t.set i p y) := by
  have hmove := Request.move_of_step hstep
  have hcu : c ≠ u := by
    rintro rfl
    rw [hc] at hu
    cases hu
  by_cases hic : i = c
  · subst hic
    rw [hc] at hmove
    refine ⟨?_, fun j hji hju => ?_⟩
    · simpa [hcu.symm] using h.duel.create_moves hmove
    · simpa [hji] using h.others j hji hju
  · by_cases hiu : i = u
    · subst hiu
      rw [hu] at hmove
      refine ⟨?_, fun j hjc hji => ?_⟩
      · simpa [hcu] using h.duel.update_moves hmove
      · simpa [hji] using h.others j hjc hji
    · -- one of the deletes
      have hblind := hothers i hic hiu
      have hdeleted : p = .done .deleted ∧ y = none ∧ req i = .delete := by
        rcases h.others i hic hiu with hstart | hdone
        · rw [hstart] at hmove
          cases hmove with
          | delete hreq => exact ⟨rfl, rfl, hreq⟩
          | look hreq => simp [hreq, Request.blind] at hblind
          | reject hreq => simp [hreq, Request.blind] at hblind
        · obtain ⟨o, ho⟩ := Option.ne_none_iff_exists'.mp hblind
          rw [Request.step_of_outcome (hdone.trans ho)] at hstep
          cases hstep
      obtain ⟨rfl, rfl, hreq⟩ := hdeleted
      refine ⟨?_, fun j hjc hju => ?_⟩
      · simpa [Ne.symm hic, Ne.symm hiu] using h.duel.deleted
      · rcases eq_or_ne j i with rfl | hji
        · exact .inr (by simp [hreq, Request.blind, Phase.outcome])
        · simpa [hji] using h.others j hjc hju

/-- Two requests one after the other, and all the deletes before them or after them. -/
theorem order_of_pair [Fintype ι] {a b : ι} (hab : a ≠ b)
    (hothers : ∀ i, i ≠ a → i ≠ b → (req i).blind ≠ none)
    (hdelete : ∃ i, i ≠ a ∧ i ≠ b ∧ req i = .delete) {oa ob : Outcome} {ya yb y : Option ν}
    (ha : (req a).alone none = (oa, ya)) (hb : (req b).alone ya = (ob, yb)) (hy : y = none ∨ y = yb)
    {out : ι → Option Outcome} (houta : out a = some oa) (houtb : out b = some ob)
    (hout : ∀ i, i ≠ a → i ≠ b → out i = (req i).blind) : ∃ l : List ι, l.Nodup ∧ (∀ i, i ∈ l) ∧
      inTurn (fun i => (req i).alone) none l = (out, y) := by
  classical
  generalize hrest : (Finset.univ.filter fun i => i ≠ a ∧ i ≠ b).toList = rest
  have hmem : ∀ i, i ∈ rest ↔ i ≠ a ∧ i ≠ b := by
    intro i
    simp [← hrest]
  have hnd : rest.Nodup := hrest ▸ Finset.nodup_toList _
  have hblind : ∀ i ∈ rest, (req i).blind ≠ none := by
    intro i hi
    obtain ⟨hia, hib⟩ := (hmem i).mp hi
    exact hothers i hia hib
  have hall : ∀ i, i = a ∨ i = b ∨ i ∈ rest := by
    intro i
    rw [hmem]
    tauto
  rcases hy with rfl | rfl
  · -- the deletes come last
    obtain ⟨houts, hnone⟩ := inTurn_blind (y := none) [a, b] hblind
    refine ⟨[a, b] ++ rest, ?_, fun i => ?_, Prod.ext ?_ ?_⟩
    · simp [hnd, hab, hmem]
    · simpa using hall i
    · rw [houts]
      funext i
      rcases eq_or_ne i a with rfl | hia
      · simp [inTurn, ha, hmem, hab, houta]
      · rcases eq_or_ne i b with rfl | hib
        · simp [inTurn, ha, hb, hmem, houtb]
        · simp [hmem, hia, hib, hout i hia hib]
    · obtain ⟨i, hia, hib, hreq⟩ := hdelete
      exact hnone (.inl ⟨i, (hmem i).mpr ⟨hia, hib⟩, hreq⟩)
  · -- the deletes come first
    obtain ⟨houts, hnone⟩ := inTurn_blind (y := none) [] hblind
    rw [List.nil_append] at houts hnone
    refine ⟨rest ++ [a] ++ [b], ?_, fun i => ?_, ?_⟩
    · rw [List.append_assoc]
      refine hnd.append (by simp [hab]) ?_
      simp [hmem]
    · have := hall i
      simp
      tauto
    · rw [inTurn_concat, inTurn_concat, houts, hnone (.inr rfl), ha, hb]
      refine Prod.ext (funext fun i => ?_) rfl
      rcases eq_or_ne i b with rfl | hib
      · simp [houtb]
      · rcases eq_or_ne i a with rfl | hia
        · simp [hib, houta]
        · simp [hmem, hia, hib, hout i hia hib]

/-- The create goes through, and the update has come before it or after it. -/
theorem order_of_paired [Fintype ι] (hc : req c = .save .create v) (hu : req u = .save .update w)
    (hothers : ∀ i, i ≠ c → i ≠ u → (req i).blind ≠ none) (hdelete : (deletes req).Nonempty)
    {t : State ι (Phase ν) (Option ν)} (ht : Run (fun i => (req i).step) (start req none) t)
    (hdone : ∀ i, (t.phase i).outcome ≠ none) : ∃ l : List ι, l.Nodup ∧ (∀ i, i ∈ l) ∧
      inTurn (fun i => (req i).alone) none l = (fun i => (t.phase i).outcome, t.shared) := by
  have hinit : Paired req c u v w (start req none) := by
    refine ⟨.before ?_ ?_, fun i _ _ => ?_⟩
    · simp [hc]
    · simp [hu]
    · simp only [start_phase]
      cases req i with
      | refused => exact .inr rfl
      | _ => exact .inl rfl
  have h : Paired req c u v w t := ht.invariant hinit fun t i p y h => paired_step hc hu hothers h
  have hcu : c ≠ u := by
    rintro rfl
    rw [hc] at hu
    cases hu
  obtain ⟨d, hd⟩ := hdelete
  have hdc : d ≠ c := by
    rintro rfl
    cases hc.symm.trans hd
  have hdu : d ≠ u := by
    rintro rfl
    cases hu.symm.trans hd
  have hrest : ∀ i, i ≠ c → i ≠ u → (t.phase i).outcome = (req i).blind := by
    intro i hic hiu
    rcases h.others i hic hiu with hstart | hblind
    · exact absurd (by rw [hstart]; rfl) (hdone i)
    · exact hblind
  have hcreate : (req c).alone none = (.saved .create, some v) := by rw [hc]; rfl
  have hreject : (req u).alone none = (.rejected .update, none) := by rw [hu]; rfl
  have hupdate : (req u).alone (some v) = (.saved .update, some w) := by rw [hu]; rfl
  obtain ⟨o, hp⟩ := Phase.exists_done (hdone c)
  obtain ⟨o', hq⟩ := Phase.exists_done (hdone u)
  have hduel := h.duel
  rw [hp, hq] at hduel
  generalize hy : t.shared = y at hduel
  cases hduel with
  | before hp' => simp at hp'
  | created hq' hy' =>
    obtain rfl : o' = .rejected .update := by simpa using hq'
    exact order_of_pair hcu.symm (fun i hiu hic => hothers i hic hiu) ⟨d, hdu, hdc, hd⟩ hreject hcreate
      hy' (by rw [hq]; rfl) (by rw [hp]; rfl) fun i hiu hic => hrest i hic hiu
  | updated hy' =>
    exact order_of_pair hcu hothers ⟨d, hdc, hdu, hd⟩ hcreate hupdate hy' (by rw [hp]; rfl)
      (by rw [hq]; rfl) hrest

end Paired

/-- Compatible requests come to what they come to one after another. -/
theorem exists_order [DecidableEq ι] [Fintype ι] (hc : Compatible req y₀)
    {t : State ι (Phase ν) (Option ν)} (ht : Run (fun i => (req i).step) (start req y₀) t)
    (hdone : ∀ i, (t.phase i).outcome ≠ none) : ∃ l : List ι, l.Nodup ∧ (∀ i, i ∈ l) ∧
      inTurn (fun i => (req i).alone) y₀ l = (fun i => (t.phase i).outcome, t.shared) := by
  rcases y₀ with _ | a
  · rcases Set.eq_empty_or_nonempty (creates req) with hnone | ⟨c, v, hcreate⟩
    · exact order_of_steady (.inl (hnone ▸ Set.subsingleton_empty)) (.inr (.inr ⟨rfl, hnone⟩)) ht hdone
    have hne : creates req ≠ ∅ := Set.Nonempty.ne_empty ⟨c, v, hcreate⟩
    obtain ⟨hone, hrest⟩ := hc.resolve_left hne
    rcases Set.eq_empty_or_nonempty (deletes req) with hdelete | hdelete
    · exact order_of_steady (.inl hone) (.inl hdelete) ht hdone
    rcases Set.eq_empty_or_nonempty (updates req) with hupdate | ⟨u, w, hupdate⟩
    · exact order_of_steady (.inl hone) (.inr (.inl hupdate)) ht hdone
    have honeupdate := hrest.resolve_left hdelete.ne_empty
    refine order_of_paired hcreate hupdate (fun i hic hiu => ?_) hdelete ht hdone
    cases hreq : req i with
    | save verb x =>
      cases verb with
      | create => exact absurd (hone ⟨x, hreq⟩ ⟨v, hcreate⟩) hic
      | update => exact absurd (honeupdate ⟨x, hreq⟩ ⟨w, hupdate⟩) hiu
    | _ => simp [Request.blind]
  · rcases hc with hdelete | ⟨hupdate, hone⟩
    · exact order_of_steady (.inr ⟨Option.some_ne_none a, hdelete⟩) (.inl hdelete) ht hdone
    · exact order_of_steady (.inl hone) (.inr (.inl hupdate)) ht hdone

/-! ### Runs that no order explains -/

section Runs

variable [DecidableEq ι] {t₀ t : State ι (Phase ν) (Option ν)}

theorem look (ht : Run (fun i => (req i).step) t₀ t) {i : ι} {verb : Verb} {v : ν}
    (hi : t.phase i = .start) (hreq : req i = .save verb v) (haccepts : verb.Accepts t.shared) :
    Run (fun i => (req i).step) t₀ (t.set i (.writing verb v) t.shared) :=
  ht.next hi _ _ (by rw [hreq, Request.step_look haccepts])

theorem delete (ht : Run (fun i => (req i).step) t₀ t) {i : ι} (hi : t.phase i = .start)
    (hreq : req i = .delete) : Run (fun i => (req i).step) t₀ (t.set i (.done .deleted) none) :=
  ht.next hi _ _ (by rw [hreq, Request.step_delete])

omit [DecidableEq ι] in
/-- A request that has looked goes through when no other comes in between. -/
theorem alone_write (i : ι) (verb : Verb) (v : ν) (y : Option ν) :
    Alone (fun i => (req i).step) i (.writing verb v) y (.done (.saved verb)) (some v) := by
  rcases y with _ | a
  · exact .step rfl (.step rfl .refl)
  · exact .step rfl .refl

/-- Two that have both looked, and find nothing to overwrite. -/
theorem clash_of_writing (ht : Run (fun i => (req i).step) t₀ t) {i j : ι} (hij : i ≠ j)
    (hi : ∃ verb v, t.phase i = .writing verb v) (hj : ∃ verb v, t.phase j = .writing verb v)
    (hnone : t.shared = none) :
    ∃ t', Run (fun i => (req i).step) t₀ t' ∧ t'.phase j = .done .clash := by
  obtain ⟨verb, v, hi⟩ := hi
  obtain ⟨verb', v', hj⟩ := hj
  have hmiss := ht.next hi (.inserting verb v) none (by rw [hnone]; rfl)
  have hmiss' := hmiss.next (i := j) (p := .writing verb' v') (by simp [hij.symm, hj])
    (.inserting verb' v') none rfl
  have hinsert := hmiss'.next (i := i) (p := .inserting verb v) (by simp [hij])
    (.done (.saved verb)) (some v) rfl
  have hclash := hinsert.next (i := j) (p := .inserting verb' v') (by simp [hij.symm])
    (.done .clash) (some v) rfl
  exact ⟨_, hclash, by simp⟩

theorem clash_of_creates (ht : Run (fun i => (req i).step) t₀ t) {i j : ι} (hij : i ≠ j)
    (hi : t.phase i = .start) (hj : t.phase j = .start) (hci : i ∈ creates req) (hcj : j ∈ creates req)
    (hnone : t.shared = none) :
    ∃ t', Run (fun i => (req i).step) t₀ t' ∧ t'.phase j = .done .clash := by
  obtain ⟨v, hci⟩ := hci
  obtain ⟨v', hcj⟩ := hcj
  have hlook := look ht hi hci hnone
  have hlook' := look hlook (i := j) (by simpa [hij.symm] using hj) hcj hnone
  exact clash_of_writing hlook' hij ⟨.create, v, by simp [hij]⟩ ⟨.create, v', by simp⟩ hnone

/-- Two updates that have looked before a delete. -/
theorem clash_of_updates {c d i j : ι} (hij : i ≠ j) (hc : c ∈ creates req) (hd : d ∈ deletes req)
    (hui : i ∈ updates req) (huj : j ∈ updates req) :
    ∃ t, Run (fun i => (req i).step) (start req none) t ∧ t.phase j = .done .clash := by
  obtain ⟨v, hc⟩ := hc
  obtain ⟨w, hui⟩ := hui
  obtain ⟨w', huj⟩ := huj
  have hd : req d = .delete := hd
  have hne : ∀ {a b : ι}, req a ≠ req b → a ≠ b := fun h hab => h (congrArg req hab)
  have hic : i ≠ c := hne (by simp [hui, hc])
  have hjc : j ≠ c := hne (by simp [huj, hc])
  have hdc : d ≠ c := hne (by simp [hd, hc])
  have hdi : d ≠ i := hne (by simp [hd, hui])
  have hdj : d ≠ j := hne (by simp [hd, huj])
  have hstart : Run (fun i => (req i).step) (start req none) (start req none) := .refl
  have hlook := look hstart (i := c) (by simp [hc]) hc rfl
  have hcreated := Run.alone (alone_write c .create v none) hlook (by simp) rfl
  have hlooki := look hcreated (i := i) (by simp [hic, hui]) hui
    (Option.some_ne_none v)
  have hlookj := look hlooki (i := j) (by simp [hij.symm, hjc, huj]) huj
    (Option.some_ne_none v)
  have hdelete := delete hlookj (i := d) (by simp [hdi, hdj, hdc, hd]) hd
  exact clash_of_writing hdelete hij ⟨.update, w, by simp [hdi.symm, hij]⟩
    ⟨.update, w', by simp [hdj.symm]⟩ rfl

/-- An update that has looked before all the others, and writes after them. -/
theorem kept_by_update [Fintype ι] {u : ι} {a w : ν} (hu : req u = .save .update w) :
    ∃ t, Run (fun i => (req i).step) (start req (some a)) t ∧
      (∀ i, ∃ o, t.phase i = .done o ∧ o ≠ .saved .create) ∧ t.shared ≠ none := by
  classical
  have hstart : Run (fun i => (req i).step) (start req (some a)) (start req (some a)) := .refl
  have hlook := look hstart (i := u) (by simp [hu]) hu (Option.some_ne_none a)
  -- the other saves find the entry
  obtain ⟨t₁, ht₁, -, hdone₁, hrest₁⟩ := hlook.alone_each (J := fun y => y ≠ none)
    (Q := fun _ p => ∃ o, p = .done o ∧ o ≠ .saved .create) (Option.some_ne_none a)
    (Finset.univ.filter fun i => i ≠ u ∧ req i ≠ .delete) (by
      intro i hi y hy
      obtain ⟨hiu, hdelete⟩ : i ≠ u ∧ req i ≠ .delete := by simpa using hi
      simp only [ne_eq, hiu, not_false_eq_true, State.set_phase_of_ne, start_phase]
      cases hreq : req i with
      | save verb v =>
        cases verb with
        | create =>
          refine ⟨_, y, .step ?_ .refl, hy, .rejected .create, rfl, by simp⟩
          rw [hreq]
          exact Request.step_reject hy
        | update =>
          refine ⟨_, some v, .step ?_ (alone_write i .update v y), Option.some_ne_none v, _, rfl, by simp⟩
          rw [hreq]
          exact Request.step_look hy
      | delete => exact absurd hreq hdelete
      | refused => exact ⟨_, y, .refl, hy, _, rfl, by simp⟩)
  -- then come the deletes
  obtain ⟨t₂, ht₂, -, hdone₂, hrest₂⟩ := ht₁.alone_each (J := fun _ => True)
    (Q := fun _ p => p = .done .deleted) trivial (Finset.univ.filter fun i => req i = .delete) (by
      intro i hi y _
      have hreq : req i = .delete := by simpa using hi
      have hiu : i ≠ u := by
        rintro rfl
        rw [hu] at hreq
        cases hreq
      rw [hrest₁ i (by simp [hreq]), State.set_phase_of_ne _ _ _ _ hiu]
      refine ⟨_, none, .step ?_ .refl, trivial, rfl⟩
      rw [start_phase, hreq]
      exact Request.step_delete)
  -- and last the update
  have hphase : t₂.phase u = .writing .update w := by
    rw [hrest₂ u (by simp [hu]), hrest₁ u (by simp)]
    simp
  refine ⟨_, Run.alone (alone_write u .update w _) ht₂ hphase rfl, fun i => ?_, Option.some_ne_none w⟩
  rcases eq_or_ne i u with rfl | hiu
  · exact ⟨_, State.set_phase_self .., by simp⟩
  rw [State.set_phase_of_ne _ _ _ _ hiu]
  by_cases hdelete : req i = .delete
  · exact ⟨_, hdone₂ i (by simp [hdelete]), by simp⟩
  · rw [hrest₂ i (by simp [hdelete])]
    exact hdone₁ i (by simp [hiu, hdelete])

/-- Of requests that are not compatible, some run ends with a clash, or with an entry that nothing has
    created since it should have been deleted. -/
theorem exists_clash_or_kept [Fintype ι] (h : ¬Compatible req y₀) :
    (∃ t i, Run (fun i => (req i).step) (start req y₀) t ∧ t.phase i = .done .clash) ∨
    (deletes req).Nonempty ∧ ∃ t, Run (fun i => (req i).step) (start req y₀) t ∧
      (∀ i, ∃ o, t.phase i = .done o ∧ o ≠ .saved .create) ∧ t.shared ≠ none := by
  have hfirst : ∀ {i}, i ∈ creates req → (req i).first = .start := by
    rintro i ⟨v, hv⟩
    simp [hv]
  rcases y₀ with _ | a
  · obtain ⟨hcreate, hrest⟩ := not_or.mp h
    obtain ⟨c, hc⟩ := Set.nonempty_iff_ne_empty.mpr hcreate
    left
    by_cases hone : (creates req).Subsingleton
    · obtain ⟨hdelete, hupdate⟩ := not_or.mp fun h => hrest ⟨hone, h⟩
      obtain ⟨d, hd⟩ := Set.nonempty_iff_ne_empty.mpr hdelete
      obtain ⟨i, hi, j, hj, hij⟩ := Set.not_subsingleton_iff.mp hupdate
      obtain ⟨t, ht, hclash⟩ := clash_of_updates hij hc hd hi hj
      exact ⟨t, j, ht, hclash⟩
    · obtain ⟨i, hi, j, hj, hij⟩ := Set.not_subsingleton_iff.mp hone
      obtain ⟨t, ht, hclash⟩ := clash_of_creates (Run.refl : Run _ (start req none) _) hij (hfirst hi)
        (hfirst hj) hi hj rfl
      exact ⟨t, j, ht, hclash⟩
  · obtain ⟨hdelete, hrest⟩ := not_or.mp h
    obtain ⟨d, hd⟩ := Set.nonempty_iff_ne_empty.mpr hdelete
    by_cases hupdate : updates req = ∅
    · obtain ⟨i, hi, j, hj, hij⟩ := Set.not_subsingleton_iff.mp fun h => hrest ⟨hupdate, h⟩
      have hne : ∀ {i}, i ∈ creates req → i ≠ d := by
        rintro i ⟨v, hv⟩ rfl
        cases hv.symm.trans hd
      have hdeleted := delete (Run.refl : Run _ (start req (some a)) _) (i := d)
        (by simp [show req d = .delete from hd]) hd
      obtain ⟨t, ht, hclash⟩ := clash_of_creates hdeleted hij (by simp [hne hi, hfirst hi])
        (by simp [hne hj, hfirst hj]) hi hj rfl
      exact .inl ⟨t, j, ht, hclash⟩
    · obtain ⟨u, w, hu⟩ := Set.nonempty_iff_ne_empty.mpr hupdate
      exact .inr ⟨⟨d, hd⟩, kept_by_update hu⟩

end Runs

end Schemes.OneKey
