import Mathlib.Algebra.Order.Group.Unbundled.Abs
import Mathlib.Data.Rat.Defs
import VaultsSyncer.GoStd.JsonValue
import VaultsSyncer.GoStd.Strings
import VaultsSyncer.Schemes.Table

/-! encoding/json on Go structs. A `Codec` writes values of one type as trees and reads them back; it
    carries what a written value reads back as (`norm`) and how deep its trees get, so a codec of a
    struct is put together from those of its fields (`Fields`) and the round trip comes with it.

        field ms "name" c    the field of a struct, from the members of an object
        c.marshal a          json.Marshal
        c.unmarshal text     json.Unmarshal into a zero value

    An absent member and a `null` leave the zero value. A slice or a map that is nil and one that is
    empty are one value here, and a map is read back by rising key. -/

namespace GoStd

open Schemes

/-- An integer as a number literal. -/
def Json.int (i : ℤ) : Json := .number ⟨i < 0, i.natAbs, 0, 0⟩

/-- Values of `α` as JSON. -/
structure Codec (α : Type) where
  zero : α
  enc : α → Json
  dec : Json → Option α
  norm : α → α
  dec_enc : ∀ a, dec (enc a) = some (norm a)
  depth : ℕ
  depth_enc : ∀ a, (enc a).depth ≤ depth

namespace Codec

variable {α : Type} (c : Codec α)

/-- `json.Marshal`. -/
def marshal (a : α) : String := String.ofList (c.enc a).print

/-- `json.Unmarshal` into a zero value: `none` when it returns an error. -/
def unmarshal (text : String) : Option α := do
  let j ← Json.read text.toList
  if j.depth ≤ maxNestingDepth then c.dec j else none

/-- What is written reads back. -/
theorem unmarshal_marshal (h : c.depth ≤ maxNestingDepth) (a : α) :
    c.unmarshal (c.marshal a) = some (c.norm a) := by
  have hdepth : (c.enc a).depth ≤ maxNestingDepth := (c.depth_enc a).trans h
  simp only [unmarshal, marshal, String.toList_ofList, Json.read_print, Option.bind_eq_bind,
    Option.bind_some, hdepth, ↓reduceIte, c.dec_enc]

/-! ### Plain values -/

def string : Codec String where
  zero := ""
  enc := .string
  dec
    | .string s => some s
    | .null => some ""
    | _ => none
  norm := id
  dec_enc := fun _ => rfl
  depth := 0
  depth_enc := fun _ => le_rfl

def bool : Codec Bool where
  zero := false
  enc := .bool
  dec
    | .bool b => some b
    | .null => some false
    | _ => none
  norm := id
  dec_enc := fun _ => rfl
  depth := 0
  depth_enc := fun _ => le_rfl

theorem bool_enc_ne_null (b : Bool) : bool.enc b ≠ .null := by
  intro h
  cases h

/-- An `int`: a literal without fraction and exponent. -/
def int : Codec ℤ where
  zero := 0
  enc := Json.int
  dec
    | .number n =>
      if n.scale = 0 ∧ n.exp = 0 then some (if n.neg then -(n.mant : ℤ) else n.mant) else none
    | .null => some 0
    | _ => none
  norm := id
  dec_enc := by
    intro i
    simp only [Json.int, decide_eq_true_eq, and_self, ↓reduceIte, id_eq, Option.some.injEq]
    split_ifs <;> omega
  depth := 0
  depth_enc := fun _ => le_rfl

/-- The float64 nearest to a rational. -/
def nearest (q : ℚ) : Option Float64 := Float64.ofRat (q < 0) |q|

/-- The number a float64 is. -/
def floatValue (f : Float64) : ℚ := if f.neg then -f.abs else f.abs

/-- A `float64`; a rational beyond its range is none. -/
def float : Codec ℚ where
  zero := 0
  enc q := match nearest q with
    | some f => .number f.literal
    | none => .null
  dec
    | .number n => n.float.map floatValue
    | .null => some 0
    | _ => none
  norm q := ((nearest q).map floatValue).getD 0
  dec_enc := by
    intro q
    rcases nearest q with _ | f
    · rfl
    · simp only [Float64.float_literal, Option.map_some, Option.getD_some]
  depth := 0
  depth_enc := by
    intro q
    rcases nearest q with _ | f
    · exact le_rfl
    · exact le_rfl

/-- The value of a float64 is written and read back as it is. -/
theorem float_norm_floatValue (f : Float64) : float.norm (floatValue f) = floatValue f := by
  have hpos : 0 ≤ f.abs := div_nonneg (Nat.cast_nonneg _) (by positivity)
  have habs : |floatValue f| = f.abs := by
    rw [floatValue]
    split_ifs
    · rw [abs_neg, abs_of_nonneg hpos]
    · exact abs_of_nonneg hpos
  -- the sign that is read: a negative zero becomes a plain one
  let g : Float64 := { f with neg := decide (floatValue f < 0) }
  have hread : nearest (floatValue f) = some g := by
    rw [nearest, habs]
    exact Float64.ofRat_abs g
  have hvalue : floatValue g = floatValue f := by
    change (if decide (floatValue f < 0) = true then -f.abs else f.abs) = floatValue f
    split_ifs with hneg <;> rw [decide_eq_true_eq] at hneg
    · rw [← habs, abs_of_neg hneg, neg_neg]
    · rw [← habs, abs_of_nonneg (not_lt.mp hneg)]
  change ((nearest (floatValue f)).map floatValue).getD 0 = floatValue f
  rw [hread, Option.map_some, hvalue, Option.getD_some]

/-! ### Slices, pointers, maps -/

variable {c}

theorem mapM_dec_enc : ∀ as : List α, (as.map c.enc).mapM c.dec = some (as.map c.norm)
  | [] => rfl
  | a :: as => by simp [mapM_dec_enc as, c.dec_enc]

variable (c)

/-- A slice. -/
def list : Codec (List α) where
  zero := []
  enc as := .array (as.map c.enc)
  dec
    | .array js => js.mapM c.dec
    | .null => some []
    | _ => none
  norm as := as.map c.norm
  dec_enc := mapM_dec_enc
  depth := c.depth + 1
  depth_enc := by
    intro as
    have helems : Json.depthElems (as.map c.enc) ≤ c.depth := by
      refine Json.depthElems_le ?_
      intro j hj
      obtain ⟨a, -, rfl⟩ := List.mem_map.mp hj
      exact c.depth_enc a
    simp only [Json.depth]
    omega

/-- A pointer. -/
def pointer (h : ∀ a, c.enc a ≠ .null) : Codec (Option α) where
  zero := none
  enc
    | some a => c.enc a
    | none => .null
  dec
    | .null => some none
    | j => (c.dec j).map some
  norm := Option.map c.norm
  dec_enc := by
    intro o
    rcases o with _ | a
    · rfl
    · have hne := h a
      rcases henc : c.enc a with _ | _ | _ | _ | _ | _
      · exact absurd henc hne
      all_goals simp [c.dec_enc]
  depth := c.depth
  depth_enc := by
    intro o
    rcases o with _ | a
    · exact Nat.zero_le _
    · exact c.depth_enc a

/-- The value of a member. -/
def decMember (m : String × Json) : Option (String × α) := (c.dec m.2).map fun a => (m.1, a)

variable {c}

theorem sorted_map {β : Type} (f : α → β) {m : List (String × α)} (h : Sorted m) :
    Sorted (m.map fun e => (e.1, f e.2)) := by
  rw [Sorted, List.pairwise_map]
  exact h

theorem mapM_decMember : ∀ m : List (String × α),
    (m.map fun e => (e.1, c.enc e.2)).mapM c.decMember = some (m.map fun e => (e.1, c.norm e.2))
  | [] => rfl
  | e :: m => by simp [mapM_decMember m, decMember, c.dec_enc]

variable (c)

/-- A map with string keys. -/
def map : Codec (List (String × α)) where
  zero := []
  enc m := .object ((mapOf m).map fun e => (e.1, c.enc e.2))
  dec
    | .object ms => (ms.mapM c.decMember).map mapOf
    | .null => some []
    | _ => none
  norm m := (mapOf m).map fun e => (e.1, c.norm e.2)
  dec_enc := by
    intro m
    simp only [mapM_decMember, Option.map_some, Option.some.injEq]
    exact mapOf_of_sorted (sorted_map c.norm (sorted_mapOf m))
  depth := c.depth + 1
  depth_enc := by
    intro m
    have hmembers : Json.depthMembers ((mapOf m).map fun e => (e.1, c.enc e.2)) ≤ c.depth := by
      refine Json.depthMembers_le ?_
      intro j hj
      obtain ⟨e, -, rfl⟩ := List.mem_map.mp hj
      exact c.depth_enc e.2
    simp only [Json.depth]
    omega

theorem map_enc_ne_null (m : List (String × α)) : c.map.enc m ≠ .null := by
  intro h
  cases h

end Codec

/-! ### Fields of a struct -/

/-- The name of a member as a struct field is found by: letter case does not count. -/
def memberKey (m : String × Json) : String := toLower m.1

/-- The last member for a field. -/
def member (name : String) (ms : List (String × Json)) : Option Json :=
  (Table.lookup memberKey (toLower name) ms.reverse).map Prod.snd

/-- A field of a struct. -/
def field {α : Type} (ms : List (String × Json)) (name : String) (c : Codec α) : Option α :=
  match member name ms with
  | none => some c.zero
  | some j => c.dec j

/-- What reads a field off a member that is an encoding. -/
theorem field_of_member {α : Type} {ms : List (String × Json)} {name : String} {c : Codec α} {a : α}
    (h : member name ms = some (c.enc a)) : field ms name c = some (c.norm a) := by
  simp only [field, h, c.dec_enc]

theorem field_of_none {α : Type} {ms : List (String × Json)} {name : String} {c : Codec α}
    (h : member name ms = none) : field ms name c = some c.zero := by
  simp only [field, h]

/-- The last of the members is the one a field is read from. -/
theorem member_concat (name k : String) (ms : List (String × Json)) (j : Json) :
    member name (ms ++ [(k, j)]) = if toLower k = toLower name then some j else member name ms := by
  simp only [member, List.reverse_append, List.reverse_singleton, List.singleton_append,
    Table.lookup, List.find?_cons, memberKey]
  split_ifs with h <;> simp [h]

theorem member_eq_lookup (name : String) (ms : List (String × Json)) :
    member name ms = (ms.reverse.map fun m => (toLower m.1, m.2)).lookup (toLower name) := by
  rw [member, Table.lookup]
  induction ms.reverse with
  | nil => rfl
  | cons m ms ih =>
    rw [List.find?_cons, List.map_cons, List.lookup_cons, memberKey]
    by_cases h : toLower m.1 = toLower name
    · simp [h]
    · simp only [h, decide_false, beq_eq_false_iff_ne.mpr (Ne.symm h)]
      exact ih

theorem member_eq_none {name : String} {ms : List (String × Json)} {names : List String}
    (hms : ∀ m ∈ ms, m.1 ∈ names) (h : toLower name ∉ names.map toLower) : member name ms = none := by
  rw [member, Option.map_eq_none_iff, Table.lookup_eq_none]
  intro hmem
  obtain ⟨m, hm, hkey⟩ := List.mem_map.mp hmem
  exact h (List.mem_map.mpr ⟨m.1, hms m (List.mem_reverse.mp hm), hkey⟩)

/-- Some fields of the structs `σ`, and what reading them makes of an `α`. -/
structure Fields (σ α : Type) where
  names : List String
  enc : σ → List (String × Json)
  dec : List (String × Json) → Option α
  norm : σ → α
  names_enc : ∀ s, ∀ m ∈ enc s, m.1 ∈ names
  dec_enc : ∀ s ms, (∀ n ∈ names, member n ms = member n (enc s)) → dec ms = some (norm s)
  depth : ℕ
  depth_enc : ∀ s, ∀ m ∈ enc s, m.2.depth ≤ depth

namespace Fields

variable {σ α β : Type}

/-- No field yet. -/
def start (a : α) : Fields σ α where
  names := []
  enc _ := []
  dec _ := some a
  norm _ := a
  names_enc := by simp
  dec_enc _ _ _ := rfl
  depth := 0
  depth_enc := by simp

/-- One field more. -/
def add (f : Fields σ (β → α)) (name : String) (get : σ → β) (c : Codec β)
    (h : toLower name ∉ f.names.map toLower) : Fields σ α where
  names := f.names ++ [name]
  enc s := f.enc s ++ [(name, c.enc (get s))]
  dec ms := do return (← f.dec ms) (← field ms name c)
  norm s := f.norm s (c.norm (get s))
  names_enc := by
    intro s m hm
    rcases List.mem_append.mp hm with hm | hm
    · exact List.mem_append_left _ (f.names_enc s m hm)
    · rw [List.mem_singleton] at hm
      simp [hm]
  dec_enc := by
    intro s ms hms
    have hrest : f.dec ms = some (f.norm s) := by
      refine f.dec_enc s ms ?_
      intro n hn
      rw [hms n (List.mem_append_left _ hn), member_concat, if_neg]
      intro hname
      exact h (hname ▸ List.mem_map_of_mem hn)
    have hfield : field ms name c = some (c.norm (get s)) := by
      refine field_of_member ?_
      rw [hms name (by simp), member_concat, if_pos rfl]
    simp [hrest, hfield]
  depth := max f.depth c.depth
  depth_enc := by
    intro s m hm
    rcases List.mem_append.mp hm with hm | hm
    · exact le_max_of_le_left (f.depth_enc s m hm)
    · rw [List.mem_singleton] at hm
      subst hm
      exact le_max_of_le_right (c.depth_enc _)

/-- One field more, left out where it is zero (`omitempty`). -/
def addOmitEmpty [DecidableEq β] (f : Fields σ (β → α)) (name : String) (get : σ → β) (c : Codec β)
    (h : toLower name ∉ f.names.map toLower) : Fields σ α where
  names := f.names ++ [name]
  enc s := if get s = c.zero then f.enc s else f.enc s ++ [(name, c.enc (get s))]
  dec ms := do return (← f.dec ms) (← field ms name c)
  norm s := f.norm s (if get s = c.zero then c.zero else c.norm (get s))
  names_enc := by
    intro s m hm
    split_ifs at hm
    · exact List.mem_append_left _ (f.names_enc s m hm)
    · exact (f.add name get c h).names_enc s m hm
  dec_enc := by
    intro s ms hms
    split_ifs at hms ⊢ with hzero
    · have hrest : f.dec ms = some (f.norm s) := by
        refine f.dec_enc s ms ?_
        intro n hn
        exact hms n (List.mem_append_left _ hn)
      have hfield : field ms name c = some c.zero := by
        refine field_of_none ?_
        rw [hms name (by simp)]
        exact member_eq_none (f.names_enc s) h
      simp [hrest, hfield]
    · exact (f.add name get c h).dec_enc s ms hms
  depth := max f.depth c.depth
  depth_enc := by
    intro s m hm
    split_ifs at hm
    · exact le_max_of_le_left (f.depth_enc s m hm)
    · exact (f.add name get c h).depth_enc s m hm

/-- A struct is an object of its fields; `null` leaves it zero. -/
def codec (f : Fields σ σ) (zero : σ) : Codec σ where
  zero := zero
  enc s := .object (f.enc s)
  dec
    | .object ms => f.dec ms
    | .null => some zero
    | _ => none
  norm := f.norm
  dec_enc s := f.dec_enc s _ fun _ _ => rfl
  depth := f.depth + 1
  depth_enc := by
    intro s
    have hmembers : Json.depthMembers (f.enc s) ≤ f.depth := Json.depthMembers_le (f.depth_enc s)
    simp only [Json.depth]
    omega

theorem codec_ne_null (f : Fields σ σ) (zero s : σ) : (f.codec zero).enc s ≠ .null := by
  simp [codec]

end Fields

end GoStd
