import VaultsSyncer.GoStd.IntegerText
import VaultsSyncer.Vault.ToolOutput

/-! Secrets that are numbers. Both readers of a secret, `ParseGetValue` of the HTTP client and
    `parseJSONValue` of a tool, print a number with `%v`:

        response              read
        {"value":123456}      123456
        {"value":1234567}     1.234567e+06
        {"value":-0}          -0

    So an integer below 2^53 keeps its digits exactly below 10^6 (`numbers_survive_iff`). -/

namespace VaultsSyncer

open GoStd

/-- Navigates to a JSON path and returns its string representation. -/
def parseJSONValue (jsonErr : String → GoError) (data path : String) : Except GoError String :=
  match unmarshal data.toList with
  | none => .error (.wrap "failed to parse JSON get output: " (jsonErr data))
  | some root =>
    match jsonNavigate root path with
    | .error err => .error (.wrap ("failed to navigate JSON path " ++ goQuote path ++ ": ") err)
    | .ok (.string v) => .ok v
    | .ok (.object m) => .ok (String.ofList (marshal (.object m)))
    | .ok (.array vs) => .ok (String.ofList (marshal (.array vs)))
    | .ok (.number f) => .ok (String.ofList f.formatV)
    | .ok (.bool b) => .ok (if b then "true" else "false")
    | .ok .null => .ok "<nil>"

/-- What a parser takes for the value: what is at its path, else in its field, else in a usual field. -/
def JsonPathParser.configured (p : JsonPathParser) (data : List (String × Value)) : Option Value :=
  ((if p.valuePath = "" then none else valueAt (.object data) p.valuePath).or
    (if p.valueField = "" then none else data.lookup p.valueField)).or (defaultField data)

/-! ### What is read -/

section

variable (jsonErr : String → GoError) {body : String} {v : Value}

theorem parseGetValue_configured {p : JsonPathParser} {data : List (String × Value)}
    (hbody : unmarshal body.toList = some (.object data)) (h : p.configured data = some v) :
    p.parseGetValue jsonErr body = .ok (JsonPathParser.valueToString v) := by
  have hmap : unmarshalMap body = some data := by rw [unmarshalMap, hbody]
  rw [JsonPathParser.configured, ← getValueAtPath_toOption] at h
  rw [JsonPathParser.parseGetValue, hmap]
  simp only [ne_eq, ite_not, h]

theorem parseJSONValue_valueAt {root : Value} {path : String}
    (hbody : unmarshal body.toList = some root) (h : valueAt root path = some v) :
    parseJSONValue jsonErr body path = .ok (JsonPathParser.valueToString v) := by
  have hnav := jsonNavigate_eq_ok.mpr h
  simp only [parseJSONValue, hbody, hnav]
  cases v <;> rfl

end

/-! ### Numbers -/

/-- Below 10^6 a literal of an integer keeps its digits, unless it is -0. -/
def KeepsDigits (num : Number) (n : ℤ) : Prop := n.natAbs < 10 ^ 6 ∧ ¬(num.neg = true ∧ n = 0)

/-- Of a response that holds an integer below 2^53, both readers return the digits exactly below 10^6. -/
theorem numbers_survive_iff {num : Number} {n : ℤ} (hnum : num.value = n) (hn : n.natAbs < 2 ^ 53)
    {f : Float64} (hf : num.float = some f) (jsonErr : String → GoError) :
    (∀ (p : JsonPathParser) (body : String) (data : List (String × Value)),
      unmarshal body.toList = some (.object data) → p.configured data = some (.number f) →
      (p.parseGetValue jsonErr body = .ok (toString n) ↔ KeepsDigits num n)) ∧
    ∀ (path body : String) (root : Value),
      unmarshal body.toList = some root → valueAt root path = some (.number f) →
      (parseJSONValue jsonErr body path = .ok (toString n) ↔ KeepsDigits num n) := by
  obtain ⟨hval, hneg⟩ := Number.val_of_float hnum hn.le hf
  have hdigits : (Except.ok (ε := GoError) (JsonPathParser.valueToString (.number f)) = .ok (toString n)) ↔
      KeepsDigits num n := by
    rw [Except.ok.injEq, JsonPathParser.valueToString, Float64.formatV_eq_iff hval hn, hneg, KeepsDigits]
  constructor
  · intro p body data hbody hvalue
    rw [parseGetValue_configured jsonErr hbody hvalue]
    exact hdigits
  · intro path body root hbody hpath
    rw [parseJSONValue_valueAt jsonErr hbody hpath]
    exact hdigits

/-- A response with a natural number. -/
def numberData (m : ℕ) (h : m ≤ 2 ^ 53) : List (String × Value) :=
  [("value", .number (.exactly false m h))]

def numberBody (m : ℕ) (h : m ≤ 2 ^ 53) : String := String.ofList (marshal (.object (numberData m h)))

theorem unmarshal_numberBody {m : ℕ} (h : m ≤ 2 ^ 53) :
    unmarshal (numberBody m h).toList = some (.object (numberData m h)) := by
  have hord : (Value.object (numberData m h)).Ordered := by
    simp [numberData, Value.Ordered, Sorted, Value.OrderedMembers, Value.OrderedMember]
  rw [numberBody, String.toList_ofList]
  refine unmarshal_marshal hord ?_
  simp [numberData, Value.toJson, Value.toJsonMembers, Value.toJsonMember, Json.depth, Json.depthMembers,
    Json.depthMember, maxNestingDepth]

theorem valueAt_numberData {m : ℕ} (h : m ≤ 2 ^ 53) :
    valueAt (.object (numberData m h)) "value" = some (.number (.exactly false m h)) :=
  valueAt_key (by decide +kernel) _

theorem configured_numberData {m : ℕ} (h : m ≤ 2 ^ 53) :
    JsonPathParser.configured { valuePath := "value" } (numberData m h) =
      some (.number (.exactly false m h)) := by
  rw [JsonPathParser.configured, if_neg (show ¬"value" = "" by decide), valueAt_numberData]
  rfl

theorem value_literal (m : ℕ) : (Number.mk false m 0 0).value = (m : ℤ) := by
  rw [Number.value_natural, Int.cast_natCast]
  rfl

theorem numbers_survive_42 :
    JsonPathParser.parseGetValue .new { valuePath := "value" } (numberBody 42 (by decide)) = .ok "42" ∧
      parseJSONValue .new (numberBody 42 (by decide)) "value" = .ok "42" := by
  have hread := Number.float_of_value (value_literal 42) (by decide)
  obtain ⟨hget, htool⟩ := numbers_survive_iff (value_literal 42) (by decide) hread .new
  have hkeeps : KeepsDigits ⟨false, 42, 0, 0⟩ (42 : ℕ) := by
    refine ⟨by decide, fun h => ?_⟩
    exact absurd h.1 Bool.false_ne_true
  have hbody := unmarshal_numberBody (m := 42) (by decide)
  exact ⟨(hget _ _ _ hbody (configured_numberData _)).mpr hkeeps,
    (htool _ _ _ hbody (valueAt_numberData _)).mpr hkeeps⟩

/-- A million loses its digits: it is read as `1e+06`. -/
theorem million_mangled : ¬∀ (num : Number) (n : ℤ), num.value = n → n.natAbs < 2 ^ 53 →
    ∀ (f : Float64), num.float = some f → ∀ (jsonErr : String → GoError) (body : String)
      (data : List (String × Value)), unmarshal body.toList = some (.object data) →
      (∀ p : JsonPathParser, p.configured data = some (.number f) →
        p.parseGetValue jsonErr body = .ok (toString n)) ∧
      ∀ path, valueAt (.object data) path = some (.number f) →
        parseJSONValue jsonErr body path = .ok (toString n) := by
  intro hall
  have hmillion : 1000000 ≤ 2 ^ 53 := by decide
  have hread := Number.float_of_value (value_literal 1000000) hmillion
  obtain ⟨-, htool⟩ := hall _ _ (value_literal 1000000) (by decide) _ hread .new _ _
    (unmarshal_numberBody hmillion)
  have hvalue := htool "value" (valueAt_numberData hmillion)
  rw [parseJSONValue_valueAt .new (unmarshal_numberBody hmillion) (valueAt_numberData hmillion),
    Except.ok.injEq, JsonPathParser.valueToString] at hvalue
  have hval := (Number.val_of_float (value_literal 1000000) hmillion hread).1
  exact absurd ((Float64.formatV_eq_iff hval (by decide)).mp hvalue).1 (by decide)

end VaultsSyncer
