import Mathlib.Data.Set.Basic
import Mathlib.Logic.Function.Basic
import VaultsSyncer.Schemes.Runs

/-! Nodes and links between them, both under names: a link refers to nodes by their names. There is
    *referential integrity* when every node that a link refers to is there. A change keeps it exactly
    if it adds no link to an absent node and drops no node that a link refers to (`intact_apply_iff`),
    and so it holds all along a run exactly if each change does (`always_intact_iff`). What holds of
    every node, or of every link, on its own depends on what is put alone (`always_nodes_iff`,
    `always_links_iff`); what holds between every link and the node it refers to, on what is put beside
    what is there (`always_related_iff`). -/

namespace Schemes.References

variable {κ ν ε : Type} [DecidableEq κ]

@[ext] structure Graph (κ ν ε : Type) where
  nodes : κ → Option ν
  links : κ → Option ε

inductive Change (κ ν ε : Type) where
  | putNode (k : κ) (v : ν)
  | dropNode (k : κ)
  | putLink (k : κ) (e : ε)
  | dropLink (k : κ)

namespace Graph

/-- No nodes and no links. -/
def empty : Graph κ ν ε := ⟨fun _ => none, fun _ => none⟩

def apply (g : Graph κ ν ε) : Change κ ν ε → Graph κ ν ε
  | .putNode k v => { g with nodes := Function.update g.nodes k (some v) }
  | .dropNode k => { g with nodes := Function.update g.nodes k none }
  | .putLink k e => { g with links := Function.update g.links k (some e) }
  | .dropLink k => { g with links := Function.update g.links k none }

@[simp] theorem nodes_putNode_self (g : Graph κ ν ε) (k : κ) (v : ν) :
    (g.apply (.putNode k v)).nodes k = some v := Function.update_self _ _ _

variable (refs : ε → Set κ)

/-- Every link refers to nodes that are there. -/
def Intact (g : Graph κ ν ε) : Prop := ∀ k e, g.links k = some e → ∀ x ∈ refs e, g.nodes x ≠ none

/-- The change takes no node from under a link. -/
def KeptBy (g : Graph κ ν ε) : Change κ ν ε → Prop
  | .putNode _ _ | .dropLink _ => True
  | .dropNode k => ∀ l e, g.links l = some e → k ∉ refs e
  | .putLink _ e => ∀ x ∈ refs e, g.nodes x ≠ none

variable {refs} {g : Graph κ ν ε}

omit [DecidableEq κ] in
theorem intact_empty : (empty : Graph κ ν ε).Intact refs := by
  intro k e h
  cases h

theorem intact_apply (h : g.Intact refs) {c : Change κ ν ε} (hc : g.KeptBy refs c) :
    (g.apply c).Intact refs := by
  cases c with
  | putNode k v =>
    intro l e hl x hx
    rcases eq_or_ne x k with rfl | hne
    · simp [apply]
    · simpa [apply, hne] using h l e hl x hx
  | dropNode k =>
    intro l e hl x hx
    have hne : x ≠ k := by
      rintro rfl
      exact hc l e hl hx
    simpa [apply, hne] using h l e hl x hx
  | putLink k e' =>
    intro l e hl x hx
    rcases eq_or_ne l k with rfl | hne
    · simp only [apply, Function.update_self, Option.some.injEq] at hl
      subst hl
      exact hc x hx
    · simp only [apply, Function.update_of_ne hne] at hl
      exact h l e hl x hx
  | dropLink k =>
    intro l e hl x hx
    rcases eq_or_ne l k with rfl | hne
    · simp [apply] at hl
    · simp only [apply, Function.update_of_ne hne] at hl
      exact h l e hl x hx

theorem keptBy_of_intact {c : Change κ ν ε} (h : (g.apply c).Intact refs) : g.KeptBy refs c := by
  cases c with
  | putNode k v => trivial
  | dropNode k =>
    intro l e hl hk
    exact h l e hl k hk (by simp [apply])
  | putLink k e =>
    intro x hx
    exact h k e (by simp [apply]) x hx
  | dropLink k => trivial

theorem intact_apply_iff (h : g.Intact refs) {c : Change κ ν ε} :
    (g.apply c).Intact refs ↔ g.KeptBy refs c := ⟨keptBy_of_intact, intact_apply h⟩

/-- What holds of every node, still does unless one is put of which it does not. -/
theorem nodes_apply_iff {P : ν → Prop} (h : ∀ k v, g.nodes k = some v → P v) {c : Change κ ν ε} :
    (∀ k v, (g.apply c).nodes k = some v → P v) ↔ ∀ k v, c = .putNode k v → P v := by
  constructor
  · rintro h' k v rfl
    exact h' k v (by simp [apply])
  · intro hc l w hl
    cases c with
    | putNode k v =>
      rcases eq_or_ne l k with rfl | hne
      · simp only [apply, Function.update_self, Option.some.injEq] at hl
        exact hl ▸ hc l v rfl
      · exact h l w (by simpa [apply, hne] using hl)
    | dropNode k =>
      rcases eq_or_ne l k with rfl | hne
      · simp [apply] at hl
      · exact h l w (by simpa [apply, hne] using hl)
    | putLink k e => exact h l w hl
    | dropLink k => exact h l w hl

/-- And so for the links. -/
theorem links_apply_iff {P : ε → Prop} (h : ∀ k e, g.links k = some e → P e) {c : Change κ ν ε} :
    (∀ k e, (g.apply c).links k = some e → P e) ↔ ∀ k e, c = .putLink k e → P e := by
  constructor
  · rintro h' k e rfl
    exact h' k e (by simp [apply])
  · intro hc l e hl
    cases c with
    | putNode k v => exact h l e hl
    | dropNode k => exact h l e hl
    | putLink k e' =>
      rcases eq_or_ne l k with rfl | hne
      · simp only [apply, Function.update_self, Option.some.injEq] at hl
        exact hl ▸ hc l e' rfl
      · exact h l e (by simpa [apply, hne] using hl)
    | dropLink k =>
      rcases eq_or_ne l k with rfl | hne
      · simp [apply] at hl
      · exact h l e (by simpa [apply, hne] using hl)

section Related

variable (ref : ε → κ) (R : ε → ν → Prop)

/-- `R` holds between every link and the node it refers to, where that is there. -/
def Related (g : Graph κ ν ε) : Prop :=
  ∀ l e v, g.links l = some e → g.nodes (ref e) = some v → R e v

/-- The change puts no node and no link beside one that it is not related to. -/
def RelatedBy (g : Graph κ ν ε) : Change κ ν ε → Prop
  | .putNode k v => ∀ l e, g.links l = some e → ref e = k → R e v
  | .putLink _ e => ∀ v, g.nodes (ref e) = some v → R e v
  | .dropNode _ | .dropLink _ => True

variable {ref R}

theorem related_apply (h : g.Related ref R) {c : Change κ ν ε} (hc : g.RelatedBy ref R c) :
    (g.apply c).Related ref R := by
  intro l e v hl hv
  cases c with
  | putNode k w =>
    rcases eq_or_ne (ref e) k with hk | hne
    · simp only [apply, hk, Function.update_self, Option.some.injEq] at hv
      exact hv ▸ hc l e hl hk
    · exact h l e v hl (by simpa [apply, hne] using hv)
  | dropNode k =>
    rcases eq_or_ne (ref e) k with hk | hne
    · simp [apply, hk] at hv
    · exact h l e v hl (by simpa [apply, hne] using hv)
  | putLink k e' =>
    rcases eq_or_ne l k with rfl | hne
    · simp only [apply, Function.update_self, Option.some.injEq] at hl
      subst hl
      exact hc v hv
    · exact h l e v (by simpa [apply, hne] using hl) hv
  | dropLink k =>
    rcases eq_or_ne l k with rfl | hne
    · simp [apply] at hl
    · exact h l e v (by simpa [apply, hne] using hl) hv

theorem relatedBy_of_related {c : Change κ ν ε} (h : (g.apply c).Related ref R) :
    g.RelatedBy ref R c := by
  cases c with
  | putNode k v =>
    rintro l e hl rfl
    exact h l e v hl (by simp [apply])
  | dropNode k => trivial
  | putLink k e =>
    intro v hv
    exact h k e v (by simp [apply]) hv
  | dropLink k => trivial

theorem related_apply_iff (h : g.Related ref R) {c : Change κ ν ε} :
    (g.apply c).Related ref R ↔ g.RelatedBy ref R c := ⟨relatedBy_of_related, related_apply h⟩

end Related

end Graph

/-! ### Runs

    A system whose inputs each make one change to a graph that can be read off its states. -/

section Runs

variable {σ ι : Type} {step : σ → ι → σ} {Good : σ → Prop} {Ok : σ → ι → Prop}
  {graph : σ → Graph κ ν ε} {change : ι → Option (Change κ ν ε)}
  (hstep : ∀ s i, Good s → Ok s i → Good (step s i) ∧
    ∃ c, change i = some c ∧ graph (step s i) = (graph s).apply c)

include hstep

/-- A property of the graph that a change keeps just if it satisfies `K`. -/
theorem always_iff {I : Graph κ ν ε → Prop} {K : Graph κ ν ε → Change κ ν ε → Prop}
    (hI : ∀ {g : Graph κ ν ε}, I g → ∀ {c}, I (g.apply c) ↔ K g c) {is : List ι} {s : σ}
    (hgood : Good s) (hs : I (graph s)) (hok : Runs.Each step Ok s is) :
    Runs.Always step (fun s => I (graph s)) s is ↔
      Runs.Each step (fun s i => ∀ c, change i = some c → K (graph s) c) s is := by
  refine Runs.always_iff_each (fun s i hgood hok hs => ?_) hgood hs hok
  obtain ⟨hgood', c, hchange, hgraph⟩ := hstep s i hgood hok
  refine ⟨hgood', ?_⟩
  rw [hgraph, hI hs, hchange]
  simp

theorem always_intact_iff {refs : ε → Set κ} {is : List ι} {s : σ} (hgood : Good s)
    (hintact : (graph s).Intact refs) (hok : Runs.Each step Ok s is) :
    Runs.Always step (fun s => (graph s).Intact refs) s is ↔
      Runs.Each step (fun s i => ∀ c, change i = some c → (graph s).KeptBy refs c) s is :=
  always_iff hstep Graph.intact_apply_iff hgood hintact hok

theorem always_related_iff {ref : ε → κ} {R : ε → ν → Prop} {is : List ι} {s : σ} (hgood : Good s)
    (hrelated : (graph s).Related ref R) (hok : Runs.Each step Ok s is) :
    Runs.Always step (fun s => (graph s).Related ref R) s is ↔
      Runs.Each step (fun s i => ∀ c, change i = some c → (graph s).RelatedBy ref R c) s is :=
  always_iff hstep Graph.related_apply_iff hgood hrelated hok

theorem always_nodes_iff {P : ν → Prop} {is : List ι} {s : σ} (hgood : Good s)
    (hnodes : ∀ k v, (graph s).nodes k = some v → P v) (hok : Runs.Each step Ok s is) :
    Runs.Always step (fun s => ∀ k v, (graph s).nodes k = some v → P v) s is ↔
      ∀ i ∈ is, ∀ k v, change i = some (.putNode k v) → P v := by
  rw [← @Runs.each_iff_forall _ _ step _ is s]
  refine (always_iff (I := fun g => ∀ k v, g.nodes k = some v → P v) hstep Graph.nodes_apply_iff hgood
    hnodes hok).trans ?_
  refine Runs.each_congr fun s i => ?_
  constructor
  · intro h k v hchange
    exact h _ hchange k v rfl
  · rintro h _ hchange k v rfl
    exact h k v hchange

theorem always_links_iff {P : ε → Prop} {is : List ι} {s : σ} (hgood : Good s)
    (hlinks : ∀ k e, (graph s).links k = some e → P e) (hok : Runs.Each step Ok s is) :
    Runs.Always step (fun s => ∀ k e, (graph s).links k = some e → P e) s is ↔
      ∀ i ∈ is, ∀ k e, change i = some (.putLink k e) → P e := by
  rw [← @Runs.each_iff_forall _ _ step _ is s]
  refine (always_iff (I := fun g => ∀ k e, g.links k = some e → P e) hstep Graph.links_apply_iff hgood
    hlinks hok).trans ?_
  refine Runs.each_congr fun s i => ?_
  constructor
  · intro h k e hchange
    exact h _ hchange k e rfl
  · rintro h _ hchange k e rfl
    exact h k e hchange

end Runs

end Schemes.References
