import Mathlib.Data.List.Forall2
import Mathlib.Data.List.Basic
import Mathlib.Data.String.Basic
import VaultsSyncer.GoStd.Json

/-! Go values behind `interface{}` as encoding/json makes and takes them: numbers are float64, objects
    are maps. A map is the list of its entries by rising key, so that two equal maps are equal lists
    and `Marshal`, which sorts keys, writes them as they stand.

        unmarshal text    json.Unmarshal into an interface{}
        marshal v         json.Marshal

    `toValue_toJson` is the point: what is marshalled reads back as the value it came from. -/

namespace GoStd

/-! ### Maps -/

/-- `m[k] = v`. -/
def insertKey {α : Type} (k : String) (v : α) : List (String × α) → List (String × α)
  | [] => [(k, v)]
  | e :: m => if k < e.1 then (k, v) :: e :: m else if k = e.1 then (k, v) :: m
    else e :: insertKey k v m

/-- The keys rise. -/
def Sorted {α : Type} (m : List (String × α)) : Prop := m.Pairwise fun a b => a.1 < b.1

theorem mem_insertKey {α : Type} {k : String} {v : α} {e : String × α} :
    ∀ {m : List (String × α)}, e ∈ insertKey k v m → e = (k, v) ∨ e ∈ m
  | [], h => by simpa [insertKey] using h
  | d :: m, h => by
    rw [insertKey] at h
    split at h
    · simpa using h
    · split at h
      · rcases List.mem_cons.mp h with h | h
        · exact .inl h
        · exact .inr (List.mem_cons_of_mem _ h)
      · rcases List.mem_cons.mp h with rfl | h
        · exact .inr (List.mem_cons_self ..)
        · exact (mem_insertKey h).imp_right (List.mem_cons_of_mem _)

theorem sorted_insertKey {α : Type} (k : String) (v : α) :
    ∀ {m : List (String × α)}, Sorted m → Sorted (insertKey k v m)
  | [], _ => List.pairwise_singleton ..
  | e :: m, h => by
    obtain ⟨he, hm⟩ := List.pairwise_cons.mp h
    rw [insertKey]
    split
    · rename_i hk
      refine List.pairwise_cons.mpr ⟨?_, h⟩
      rintro d hd
      rcases List.mem_cons.mp hd with rfl | hd
      · exact hk
      · exact hk.trans (he d hd)
    · split
      · rename_i hk
        exact List.pairwise_cons.mpr ⟨fun d hd => hk ▸ he d hd, hm⟩
      · rename_i hlt hne
        refine List.pairwise_cons.mpr ⟨fun d hd => ?_, sorted_insertKey k v hm⟩
        rcases mem_insertKey hd with rfl | hd
        · exact lt_of_le_of_ne (not_lt.mp hlt) (Ne.symm hne)
        · exact he d hd

/-- A key above all others goes to the end. -/
theorem insertKey_of_lt {α : Type} {k : String} {v : α} :
    ∀ {m : List (String × α)}, (∀ e ∈ m, e.1 < k) → insertKey k v m = m ++ [(k, v)]
  | [], _ => rfl
  | e :: m, h => by
    have he := h e (List.mem_cons_self ..)
    rw [insertKey, if_neg he.not_gt, if_neg he.ne', insertKey_of_lt fun d hd =>
      h d (List.mem_cons_of_mem _ hd), List.cons_append]

/-- The map made of entries in the order they come: of two with one key the later one stays. -/
def mapOf {α : Type} (ms : List (String × α)) : List (String × α) :=
  ms.foldl (fun m e => insertKey e.1 e.2 m) []

theorem sorted_foldl_insertKey {α : Type} (ms : List (String × α)) :
    ∀ {m : List (String × α)}, Sorted m →
      Sorted (ms.foldl (fun m e => insertKey e.1 e.2 m) m) := by
  induction ms with
  | nil => exact fun h => h
  | cons e ms ih => exact fun h => ih (sorted_insertKey e.1 e.2 h)

theorem sorted_mapOf {α : Type} (ms : List (String × α)) : Sorted (mapOf ms) :=
  sorted_foldl_insertKey ms List.Pairwise.nil

theorem foldl_insertKey_of_sorted {α : Type} : ∀ (ms m : List (String × α)), Sorted (m ++ ms) →
    ms.foldl (fun m e => insertKey e.1 e.2 m) m = m ++ ms
  | [], m, _ => (List.append_nil m).symm
  | e :: ms, m, h => by
    have hlast : ∀ d ∈ m, d.1 < e.1 := fun d hd =>
      (List.pairwise_append.mp h).2.2 d hd e (List.mem_cons_self ..)
    rw [List.foldl_cons, insertKey_of_lt hlast,
      foldl_insertKey_of_sorted ms _ (by rwa [List.append_assoc]), List.append_assoc]
    rfl

theorem mem_foldl_insertKey {α : Type} {e : String × α} : ∀ ms m : List (String × α),
    e ∈ ms.foldl (fun m e => insertKey e.1 e.2 m) m → e ∈ m ∨ e ∈ ms
  | [], _, h => .inl h
  | d :: ms, m, h => by
    rcases mem_foldl_insertKey ms _ h with h | h
    · rcases mem_insertKey h with rfl | h
      · exact .inr (List.mem_cons_self ..)
      · exact .inl h
    · exact .inr (List.mem_cons_of_mem _ h)

theorem mem_of_mem_mapOf {α : Type} {e : String × α} {ms : List (String × α)} (h : e ∈ mapOf ms) :
    e ∈ ms :=
  (mem_foldl_insertKey ms [] h).resolve_left List.not_mem_nil

/-- Entries by rising key are the map itself. -/
theorem mapOf_of_sorted {α : Type} {ms : List (String × α)} (h : Sorted ms) : mapOf ms = ms :=
  foldl_insertKey_of_sorted ms [] h

theorem insertKey_perm {α : Type} {k : String} {v : α} : ∀ {m : List (String × α)},
    k ∉ m.map Prod.fst → (insertKey k v m).Perm ((k, v) :: m)
  | [], _ => .refl _
  | e :: m, h => by
    rw [List.map_cons, List.mem_cons, not_or] at h
    rw [insertKey]
    split
    · exact .refl _
    · rw [if_neg h.1]
      exact ((insertKey_perm h.2).cons e).trans (.swap _ _ _)

theorem foldl_insertKey_perm {α : Type} : ∀ (ms m : List (String × α)),
    ((m ++ ms).map Prod.fst).Nodup → (ms.foldl (fun m e => insertKey e.1 e.2 m) m).Perm (m ++ ms)
  | [], m, _ => by rw [List.append_nil]; exact .refl _
  | e :: ms, m, h => by
    have hmiddle : (m ++ e :: ms).Perm (e :: (m ++ ms)) := List.perm_middle
    obtain ⟨hfresh, hrest⟩ := List.nodup_cons.mp ((hmiddle.map Prod.fst).nodup_iff.mp h)
    have hinsert : (insertKey e.1 e.2 m).Perm (e :: m) := by
      refine insertKey_perm fun hk => hfresh ?_
      rw [List.map_append]
      exact List.mem_append_left _ hk
    have hall : (insertKey e.1 e.2 m ++ ms).Perm (m ++ e :: ms) :=
      (hinsert.append_right ms).trans hmiddle.symm
    exact (foldl_insertKey_perm ms _ ((hall.map Prod.fst).nodup_iff.mpr h)).trans hall

/-- Where no key comes twice, nothing is lost. -/
theorem mapOf_perm {α : Type} {ms : List (String × α)} (h : (ms.map Prod.fst).Nodup) :
    (mapOf ms).Perm ms := foldl_insertKey_perm ms [] h

theorem lookup_insertKey {α : Type} {k k' : String} {v : α} : ∀ {m : List (String × α)},
    (insertKey k v m).lookup k' = if k' = k then some v else m.lookup k'
  | [] => by by_cases h : k' = k <;> simp [insertKey, h]
  | (k₀, v₀) :: m => by
    rw [insertKey]
    by_cases h : k' = k
    · subst h
      rw [if_pos rfl]
      split_ifs with hlt heq
      · rw [List.lookup_cons_self]
      · rw [List.lookup_cons_self]
      · rw [List.lookup_cons, beq_eq_false_iff_ne.mpr heq, lookup_insertKey, if_pos rfl]
    · have hne : (k' == k) = false := beq_eq_false_iff_ne.mpr h
      rw [if_neg h]
      split_ifs with hlt heq
      · rw [List.lookup_cons, hne]
      · rw [List.lookup_cons, hne, List.lookup_cons, ← show k = k₀ from heq, hne]
      · rw [List.lookup_cons, lookup_insertKey, if_neg h, List.lookup_cons]

theorem lookup_foldl_insertKey {α : Type} {k : String} : ∀ {ms m : List (String × α)},
    k ∉ ms.map Prod.fst → (ms.foldl (fun m e => insertKey e.1 e.2 m) m).lookup k = m.lookup k
  | [], _, _ => rfl
  | e :: ms, m, h => by
    rw [List.map_cons, List.mem_cons, not_or] at h
    rw [List.foldl_cons, lookup_foldl_insertKey h.2, lookup_insertKey, if_neg h.1]

/-- Entries under other keys, put in later, do not change what a key holds. -/
theorem lookup_mapOf_append {α : Type} {k : String} {ms more : List (String × α)}
    (h : k ∉ more.map Prod.fst) : (mapOf (ms ++ more)).lookup k = (mapOf ms).lookup k := by
  rw [mapOf, List.foldl_append, lookup_foldl_insertKey h]
  rfl

/-- Related values under one key. -/
def SameKey {α β : Type} (R : α → β → Prop) (e : String × α) (e' : String × β) : Prop :=
  e.1 = e'.1 ∧ R e.2 e'.2

theorem forall₂_insertKey {α β : Type} {R : α → β → Prop} {k : String} {v : α} {v' : β} (hv : R v v') :
    ∀ {m : List (String × α)} {m' : List (String × β)}, List.Forall₂ (SameKey R) m m' →
      List.Forall₂ (SameKey R) (insertKey k v m) (insertKey k v' m')
  | [], _, h => by
      rw [List.forall₂_nil_left_iff.mp h]
      exact .cons ⟨rfl, hv⟩ .nil
  | e :: m, _, h => by
      obtain ⟨e', m', ⟨hkey, hval⟩, hm, rfl⟩ := List.forall₂_cons_left_iff.mp h
      simp only [insertKey, hkey]
      split_ifs
      · exact .cons ⟨rfl, hv⟩ (.cons ⟨hkey, hval⟩ hm)
      · exact .cons ⟨rfl, hv⟩ hm
      · exact .cons ⟨hkey, hval⟩ (forall₂_insertKey hv hm)

theorem forall₂_foldl_insertKey {α β : Type} {R : α → β → Prop} {ms : List (String × α)}
    {ms' : List (String × β)} (h : List.Forall₂ (SameKey R) ms ms') :
    ∀ {m : List (String × α)} {m' : List (String × β)}, List.Forall₂ (SameKey R) m m' →
      List.Forall₂ (SameKey R) (ms.foldl (fun m e => insertKey e.1 e.2 m) m)
        (ms'.foldl (fun m e => insertKey e.1 e.2 m) m') := by
  induction h with
  | nil => exact id
  | cons he _ ih =>
    intro m m' hm
    rw [List.foldl_cons, List.foldl_cons, he.1]
    exact ih (forall₂_insertKey he.2 hm)

/-- Entries related one by one make related maps. -/
theorem forall₂_mapOf {α β : Type} {R : α → β → Prop} {ms : List (String × α)}
    {ms' : List (String × β)} (h : List.Forall₂ (SameKey R) ms ms') :
    List.Forall₂ (SameKey R) (mapOf ms) (mapOf ms') := forall₂_foldl_insertKey h .nil

/-! ### Values -/

/-- What an `interface{}` may hold after `json.Unmarshal`. -/
inductive Value where
  | null
  | bool (b : Bool)
  | number (f : Float64)
  | string (s : String)
  | array (elems : List Value)
  | object (members : List (String × Value))

mutual

/-- The Go value of a tree: numbers out of range fail, of two members with one key the last stays. -/
def Json.toValue : Json → Option Value
  | .null => some .null
  | .bool b => some (.bool b)
  | .number n => n.float.map .number
  | .string s => some (.string s)
  | .array js => (Json.toValues js).map .array
  | .object ms => (Json.toMembers ms).map fun vs => .object (mapOf vs)

def Json.toValues : List Json → Option (List Value)
  | [] => some []
  | j :: js => do
    let v ← j.toValue
    let vs ← Json.toValues js
    some (v :: vs)

def Json.toMember : String × Json → Option (String × Value)
  | (k, j) => j.toValue.map fun v => (k, v)

def Json.toMembers : List (String × Json) → Option (List (String × Value))
  | [] => some []
  | m :: ms => do
    let v ← Json.toMember m
    let vs ← Json.toMembers ms
    some (v :: vs)

end

namespace Value

mutual

/-- The tree `json.Marshal` writes. -/
def toJson : Value → Json
  | .null => .null
  | .bool b => .bool b
  | .number f => .number f.literal
  | .string s => .string s
  | .array vs => .array (toJsons vs)
  | .object ms => .object (toJsonMembers ms)

def toJsons : List Value → List Json
  | [] => []
  | v :: vs => toJson v :: toJsons vs

def toJsonMember : String × Value → String × Json
  | (k, v) => (k, toJson v)

def toJsonMembers : List (String × Value) → List (String × Json)
  | [] => []
  | m :: ms => toJsonMember m :: toJsonMembers ms

end

mutual

/-- Every map in the value is one: its keys rise. -/
def Ordered : Value → Prop
  | .array vs => OrderedElems vs
  | .object ms => Sorted ms ∧ OrderedMembers ms
  | _ => True

def OrderedElems : List Value → Prop
  | [] => True
  | v :: vs => Ordered v ∧ OrderedElems vs

def OrderedMember : String × Value → Prop
  | (_, v) => Ordered v

def OrderedMembers : List (String × Value) → Prop
  | [] => True
  | m :: ms => OrderedMember m ∧ OrderedMembers ms

end

theorem orderedMembers_iff : ∀ {ms : List (String × Value)},
    OrderedMembers ms ↔ ∀ m ∈ ms, m.2.Ordered
  | [] => by simp [OrderedMembers]
  | (k, v) :: ms => by simp [OrderedMembers, OrderedMember, orderedMembers_iff]

end Value

/-! ### Reading back what was marshalled -/

mutual

theorem toValue_toJson : ∀ {v : Value}, v.Ordered → v.toJson.toValue = some v
  | .null, _ => rfl
  | .bool _, _ => rfl
  | .number f, _ => by rw [Value.toJson, Json.toValue, Float64.float_literal, Option.map_some]
  | .string _, _ => rfl
  | .array vs, h => by
    rw [Value.Ordered] at h
    rw [Value.toJson, Json.toValue, toValues_toJsons h, Option.map_some]
  | .object ms, h => by
    rw [Value.Ordered] at h
    rw [Value.toJson, Json.toValue, toMembers_toJsonMembers h.2, Option.map_some,
      mapOf_of_sorted h.1]

theorem toValues_toJsons : ∀ {vs : List Value}, Value.OrderedElems vs →
    Json.toValues (Value.toJsons vs) = some vs
  | [], _ => rfl
  | v :: vs, h => by
    rw [Value.OrderedElems] at h
    rw [Value.toJsons, Json.toValues, toValue_toJson h.1, toValues_toJsons h.2]
    rfl

theorem toMember_toJsonMember : ∀ {m : String × Value}, Value.OrderedMember m →
    Json.toMember (Value.toJsonMember m) = some m
  | (k, v), h => by
    rw [Value.OrderedMember] at h
    rw [Value.toJsonMember, Json.toMember, toValue_toJson h, Option.map_some]

theorem toMembers_toJsonMembers : ∀ {ms : List (String × Value)}, Value.OrderedMembers ms →
    Json.toMembers (Value.toJsonMembers ms) = some ms
  | [], _ => rfl
  | m :: ms, h => by
    rw [Value.OrderedMembers] at h
    rw [Value.toJsonMembers, Json.toMembers, toMember_toJsonMember h.1,
      toMembers_toJsonMembers h.2]
    rfl

end

theorem orderedMembers_mapOf {ms : List (String × Value)} (h : Value.OrderedMembers ms) :
    Value.OrderedMembers (mapOf ms) :=
  Value.orderedMembers_iff.mpr fun m hm => Value.orderedMembers_iff.mp h m (mem_of_mem_mapOf hm)

mutual

/-- What is read has its maps in order. -/
theorem ordered_toValue : ∀ {j : Json} {v : Value}, j.toValue = some v → v.Ordered
  | .null, _, h => by cases h; trivial
  | .bool _, _, h => by cases h; trivial
  | .number n, _, h => by
    rw [Json.toValue, Option.map_eq_some_iff] at h
    obtain ⟨f, -, rfl⟩ := h
    trivial
  | .string _, _, h => by cases h; trivial
  | .array js, _, h => by
    rw [Json.toValue, Option.map_eq_some_iff] at h
    obtain ⟨vs, hvs, rfl⟩ := h
    rw [Value.Ordered]
    exact ordered_toValues hvs
  | .object ms, _, h => by
    rw [Json.toValue, Option.map_eq_some_iff] at h
    obtain ⟨vs, hvs, rfl⟩ := h
    rw [Value.Ordered]
    exact ⟨sorted_mapOf vs, orderedMembers_mapOf (ordered_toMembers hvs)⟩

theorem ordered_toValues : ∀ {js : List Json} {vs : List Value}, Json.toValues js = some vs →
    Value.OrderedElems vs
  | [], _, h => by cases h; trivial
  | j :: js, _, h => by
    simp only [Json.toValues, Option.bind_eq_bind, Option.bind_eq_some_iff] at h
    obtain ⟨v, hv, vs, hvs, h⟩ := h
    cases h
    rw [Value.OrderedElems]
    exact ⟨ordered_toValue hv, ordered_toValues hvs⟩

theorem ordered_toMember : ∀ {m : String × Json} {v : String × Value}, Json.toMember m = some v →
    Value.OrderedMember v
  | (k, j), _, h => by
    rw [Json.toMember, Option.map_eq_some_iff] at h
    obtain ⟨v, hv, rfl⟩ := h
    rw [Value.OrderedMember]
    exact ordered_toValue hv

theorem ordered_toMembers : ∀ {ms : List (String × Json)} {vs : List (String × Value)},
    Json.toMembers ms = some vs → Value.OrderedMembers vs
  | [], _, h => by cases h; trivial
  | m :: ms, _, h => by
    simp only [Json.toMembers, Option.bind_eq_bind, Option.bind_eq_some_iff] at h
    obtain ⟨v, hv, vs, hvs, h⟩ := h
    cases h
    rw [Value.OrderedMembers]
    exact ⟨ordered_toMember hv, ordered_toMembers hvs⟩

end

/-! ### Lists side by side -/

theorem Json.depthElems_append : ∀ js js' : List Json,
    depthElems (js ++ js') = max (depthElems js) (depthElems js')
  | [], js' => by simp [depthElems]
  | j :: js, js' => by rw [List.cons_append, depthElems, depthElems_append js, depthElems, max_assoc]

theorem Json.depthMembers_append : ∀ ms ms' : List (String × Json),
    depthMembers (ms ++ ms') = max (depthMembers ms) (depthMembers ms')
  | [], ms' => by simp [depthMembers]
  | m :: ms, ms' => by
    rw [List.cons_append, depthMembers, depthMembers_append ms, depthMembers, max_assoc]

theorem Json.depthElems_le {n : ℕ} : ∀ {js : List Json}, (∀ j ∈ js, j.depth ≤ n) → Json.depthElems js ≤ n
  | [], _ => by simp [Json.depthElems]
  | j :: js, h => by
      have hhead := h j (List.mem_cons_self ..)
      have htail := Json.depthElems_le fun k hk => h k (List.mem_cons_of_mem _ hk)
      simp only [Json.depthElems]
      omega

theorem Json.depthMembers_le {n : ℕ} : ∀ {ms : List (String × Json)}, (∀ m ∈ ms, m.2.depth ≤ n) →
    Json.depthMembers ms ≤ n
  | [], _ => by simp [Json.depthMembers]
  | (k, j) :: ms, h => by
      have hhead := h (k, j) (List.mem_cons_self ..)
      have htail := Json.depthMembers_le fun m hm => h m (List.mem_cons_of_mem _ hm)
      simp only [Json.depthMembers, Json.depthMember]
      simp only at hhead
      omega

theorem Json.toValues_append : ∀ js js' : List Json, toValues (js ++ js') =
    (toValues js).bind fun vs => (toValues js').map fun vs' => vs ++ vs'
  | [], js' => by simp [toValues]
  | j :: js, js' => by
    rw [List.cons_append, toValues, toValues_append js, toValues]
    cases j.toValue
    · rfl
    · cases toValues js
      · rfl
      · cases toValues js' <;> rfl

theorem Json.toMembers_append : ∀ ms ms' : List (String × Json), toMembers (ms ++ ms') =
    (toMembers ms).bind fun vs => (toMembers ms').map fun vs' => vs ++ vs'
  | [], ms' => by simp [toMembers]
  | m :: ms, ms' => by
    rw [List.cons_append, toMembers, toMembers_append ms, toMembers]
    cases toMember m
    · rfl
    · cases toMembers ms
      · rfl
      · cases toMembers ms' <;> rfl

/-- Members that all read, under the keys they came with. -/
theorem Json.toMembers_of_forall : ∀ {ms : List (String × Json)}, (∀ m ∈ ms, m.2.toValue.isSome) →
    ∃ vs, toMembers ms = some vs ∧ vs.map Prod.fst = ms.map Prod.fst
  | [], _ => ⟨[], rfl, rfl⟩
  | (k, j) :: ms, h => by
    obtain ⟨v, hv⟩ := Option.isSome_iff_exists.mp (h (k, j) (List.mem_cons_self ..))
    obtain ⟨vs, hvs, hkeys⟩ := toMembers_of_forall fun m hm => h m (List.mem_cons_of_mem _ hm)
    refine ⟨(k, v) :: vs, ?_, by rw [List.map_cons, List.map_cons, hkeys]⟩
    rw [toMembers, toMember, show j.toValue = some v from hv, hvs]
    rfl

/-! ### Marshal and Unmarshal -/

/-- How deep `json.Unmarshal` goes; a text nested deeper is an error. -/
def maxNestingDepth : ℕ := 10000

/-- `json.Unmarshal` into an `interface{}`: `none` when it returns an error. -/
def unmarshal (text : List Char) : Option Value := do
  let j ← Json.read text
  if j.depth ≤ maxNestingDepth then j.toValue else none

/-- `json.Marshal`. -/
def marshal (v : Value) : List Char := v.toJson.print

/-- What was marshalled reads back, unless it is nested too deep. -/
theorem unmarshal_marshal {v : Value} (hv : v.Ordered) (hdepth : v.toJson.depth ≤ maxNestingDepth) :
    unmarshal (marshal v) = some v := by
  rw [unmarshal, marshal, Json.read_print, Option.bind_eq_bind, Option.bind_some, if_pos hdepth,
    toValue_toJson hv]

end GoStd
