import VaultsSyncer.Vault.Parser

/-! What a path in dot notation selects: its keys are followed one after the other, and only objects have
    something behind a key. `getValueAtPath` finds exactly that (`getValueAtPath_toOption`), and a path
    that goes on from another is the two joined by a dot (`valueAt_dot`). -/

namespace VaultsSyncer

open GoStd

/-- The keys of a path; a part that is empty is none. -/
def pathKeys (path : String) : List String := (split path '.').filter (· ≠ "")

/-- What is behind a key. -/
def child : Value → String → Option Value
  | .object m, key => m.lookup key
  | _, _ => none

/-- What a path selects. -/
def valueAt (data : Value) (path : String) : Option Value := (pathKeys path).foldlM child data

theorem toOption_eq_some {ε α : Type} {x : Except ε α} {a : α} : x.toOption = some a ↔ x = .ok a := by
  cases x <;> simp [Except.toOption]

theorem toOption_bind {ε α β : Type} (x : Except ε α) (f : α → Except ε β) :
    (x >>= f).toOption = x.toOption.bind fun a => (f a).toOption := by
  cases x <;> rfl

theorem split_dot (p q : String) : split (p ++ "." ++ q) '.' = split p '.' ++ split q '.' := by
  have htoList : (p ++ "." ++ q).toList = p.toList ++ '.' :: q.toList := by simp
  rw [split, htoList, List.splitOn_append_cons_self, List.map_append]
  rfl

theorem pathKeys_dot (p q : String) : pathKeys (p ++ "." ++ q) = pathKeys p ++ pathKeys q := by
  rw [pathKeys, split_dot, List.filter_append]
  rfl

/-- Two paths joined by a dot: the second goes on from what the first selects. -/
theorem valueAt_dot (data : Value) (p q : String) :
    valueAt data (p ++ "." ++ q) = (valueAt data p).bind fun v => valueAt v q := by
  rw [valueAt, pathKeys_dot, List.foldlM_append]
  rfl

/-- A path of one key. -/
theorem valueAt_key {key : String} (hkey : pathKeys key = [key]) (data : Value) :
    valueAt data key = child data key := by
  rw [valueAt, hkey, List.foldlM_cons]
  exact Option.bind_fun_some _

section

variable {walk : Value → List String → Except GoError Value} (hnil : ∀ v, walk v [] = .ok v)
  (hcons : ∀ v part parts, walk v (part :: parts) = walk v [part] >>= fun w => walk w parts)

include hnil hcons

/-- A walk along the parts of a path that skips the empty ones and takes one step for each other finds
    what the path selects. -/
theorem walk_toOption
    (hone : ∀ v part, (walk v [part]).toOption = if part = "" then some v else child v part)
    (parts : List String) (v : Value) :
    (walk v parts).toOption = (parts.filter (· ≠ "")).foldlM child v := by
  induction parts generalizing v with
  | nil =>
    rw [hnil]
    rfl
  | cons part parts ih =>
    rw [hcons, toOption_bind, hone]
    by_cases hempty : part = ""
    · simpa [hempty] using ih v
    · rw [if_neg hempty, List.filter_cons_of_pos (by simpa using hempty), List.foldlM_cons]
      exact congrArg _ (funext ih)

/-- A walk that takes its parts one at a time goes on from wherever the first of them lead. -/
theorem walk_append (xs ys : List String) (v : Value) :
    walk v (xs ++ ys) = walk v xs >>= fun w => walk w ys := by
  induction xs generalizing v with
  | nil =>
    rw [hnil]
    rfl
  | cons x xs ih =>
    rw [List.cons_append, hcons, hcons v x xs, bind_assoc]
    exact congrArg _ (funext ih)

end

theorem navigate_nil (v : Value) : JsonPathParser.navigate v [] = .ok v := by rw [JsonPathParser.navigate]

theorem navigate_cons (v : Value) (part : String) (parts : List String) :
    JsonPathParser.navigate v (part :: parts) =
      JsonPathParser.navigate v [part] >>= fun w => JsonPathParser.navigate w parts := by
  rw [JsonPathParser.navigate.eq_def, JsonPathParser.navigate.eq_def v [part]]
  dsimp only
  split_ifs
  · rfl
  · cases v with
    | object m =>
      dsimp only
      cases m.lookup part <;> rfl
    | _ => rfl

theorem navigate_one (v : Value) (part : String) :
    (JsonPathParser.navigate v [part]).toOption = if part = "" then some v else child v part := by
  rw [JsonPathParser.navigate.eq_def]
  dsimp only
  split_ifs
  · rfl
  · cases v with
    | object m =>
      rcases hlookup : m.lookup part with _ | w
      · simp [child, hlookup, Except.toOption]
      · simp [child, hlookup, navigate_nil, Except.toOption]
    | _ => rfl

theorem getValueAtPath_dot (data : Value) (p q : String) :
    JsonPathParser.getValueAtPath data (p ++ "." ++ q) =
      JsonPathParser.getValueAtPath data p >>= fun v => JsonPathParser.getValueAtPath v q := by
  rw [JsonPathParser.getValueAtPath, split_dot]
  exact walk_append navigate_nil navigate_cons _ _ _

theorem getValueAtPath_toOption (data : Value) (path : String) :
    (JsonPathParser.getValueAtPath data path).toOption = valueAt data path :=
  walk_toOption navigate_nil navigate_cons navigate_one _ _

end VaultsSyncer
