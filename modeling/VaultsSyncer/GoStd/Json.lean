import Mathlib.Data.List.Basic
import VaultsSyncer.GoStd.Number
import VaultsSyncer.GoStd.Quoting

/-! JSON texts. A text is read one character at a time by a machine with a stack of the arrays and
    objects it is inside of, as encoding/json's scanner does it; `print` is the compact text of a
    tree. Members of an object are kept in order, duplicates included.

        value ──▶ lit | num | str ──▶ after        inside an array or object, or
          │                                        done, at the end of the text
          ├─ [ ─▶ valueOrEnd      ├─ { ─▶ keyOrEnd ──▶ str ──▶ colon ──▶ value

    `read_print`: every tree is what its compact text reads as. -/

namespace GoStd

/-- A JSON text as a tree. -/
inductive Json where
  | null
  | bool (b : Bool)
  | number (n : Number)
  | string (s : String)
  | array (elems : List Json)
  | object (members : List (String × Json))

namespace Json

def quoted (s : String) : List Char := '"' :: escape s.toList ++ ['"']

mutual

/-- The compact text of a tree. -/
def print : Json → List Char
  | .null => "null".toList
  | .bool true => "true".toList
  | .bool false => "false".toList
  | .number n => n.text
  | .string s => quoted s
  | .array [] => ['[', ']']
  | .array (j :: js) => '[' :: print j ++ printElems js
  | .object [] => ['{', '}']
  | .object (m :: ms) => '{' :: printMember m ++ printMembers ms

/-- The elements after the first one, and the end of the array. -/
def printElems : List Json → List Char
  | [] => [']']
  | j :: js => ',' :: print j ++ printElems js

def printMember : String × Json → List Char
  | (k, j) => quoted k ++ ':' :: print j

def printMembers : List (String × Json) → List Char
  | [] => ['}']
  | m :: ms => ',' :: printMember m ++ printMembers ms

end

mutual

/-- How deep arrays and objects are nested. -/
def depth : Json → ℕ
  | .array js => 1 + depthElems js
  | .object ms => 1 + depthMembers ms
  | _ => 0

def depthElems : List Json → ℕ
  | [] => 0
  | j :: js => max (depth j) (depthElems js)

def depthMember : String × Json → ℕ
  | (_, j) => depth j

def depthMembers : List (String × Json) → ℕ
  | [] => 0
  | m :: ms => max (depthMember m) (depthMembers ms)

end

/-! ### The reader -/

/-- An array or object that is still open, with what it holds so far, the last first. -/
inductive Frame where
  | array (elems : List Json)
  | object (members : List (String × Json))
  | member (members : List (String × Json)) (key : String)

/-- What the reader is in the middle of. -/
inductive Mode where
  | value
  | valueOrEnd
  | key
  | keyOrEnd
  | colon
  | after
  | str (raw : List Char) (esc : Bool)
  | num (raw : List Char)
  | lit (rest : List Char) (j : Json)
  | done (j : Json)

structure State where
  stack : List Frame
  mode : Mode

def isSpace (c : Char) : Bool := c = ' ' || c = '\t' || c = '\r' || c = '\n'

/-- A value has been read: it goes into the innermost open frame. -/
def emit : List Frame → Json → Option State
  | [], j => some ⟨[], .done j⟩
  | .array js :: st, j => some ⟨.array (j :: js) :: st, .after⟩
  | .member ms k :: st, j => some ⟨.object ((k, j) :: ms) :: st, .after⟩
  | .object _ :: _, _ => none

/-- The first character of a value. -/
def beginValue (st : List Frame) (c : Char) : Option State :=
  if c = '{' then some ⟨.object [] :: st, .keyOrEnd⟩
  else if c = '[' then some ⟨.array [] :: st, .valueOrEnd⟩
  else if c = '"' then some ⟨st, .str [] false⟩
  else if c = 't' then some ⟨st, .lit "rue".toList (.bool true)⟩
  else if c = 'f' then some ⟨st, .lit "alse".toList (.bool false)⟩
  else if c = 'n' then some ⟨st, .lit "ull".toList .null⟩
  else if c = '-' ∨ c.isDigit then some ⟨st, .num [c]⟩
  else none

/-- A character after a value inside an array or object. -/
def afterValue (st : List Frame) (c : Char) : Option State :=
  if isSpace c then some ⟨st, .after⟩
  else match st with
    | .array js :: st =>
      if c = ',' then some ⟨.array js :: st, .value⟩
      else if c = ']' then emit st (.array js.reverse)
      else none
    | .object ms :: st =>
      if c = ',' then some ⟨.object ms :: st, .key⟩
      else if c = '}' then emit st (.object ms.reverse)
      else none
    | _ => none

/-- The character that ended a number, read where the number left the reader. -/
def resume (s : State) (c : Char) : Option State :=
  match s.mode with
  | .after => afterValue s.stack c
  | .done j => if isSpace c then some ⟨s.stack, .done j⟩ else none
  | _ => none

/-- The closing quote of a key or of a string value. -/
def closeQuote (st : List Frame) (raw : List Char) : Option State := do
  let s ← unquote raw
  match st with
  | .object ms :: st => some ⟨.member ms (String.ofList s) :: st, .colon⟩
  | st => emit st (.string (String.ofList s))

/-- One character of the text. -/
def step (s : State) (c : Char) : Option State :=
  match s.mode with
  | .value => if isSpace c then some s else beginValue s.stack c
  | .valueOrEnd =>
    if isSpace c then some s else if c = ']' then afterValue s.stack c else beginValue s.stack c
  | .key => if isSpace c then some s else if c = '"' then some ⟨s.stack, .str [] false⟩ else none
  | .keyOrEnd =>
    if isSpace c then some s
    else if c = '"' then some ⟨s.stack, .str [] false⟩
    else if c = '}' then afterValue s.stack c
    else none
  | .colon => if isSpace c then some s else if c = ':' then some ⟨s.stack, .value⟩ else none
  | .str raw esc =>
    if esc then some ⟨s.stack, .str (c :: raw) false⟩
    else if c = '\\' then some ⟨s.stack, .str (c :: raw) true⟩
    else if c = '"' then closeQuote s.stack raw.reverse
    else some ⟨s.stack, .str (c :: raw) false⟩
  | .num raw =>
    if isNumberChar c then some ⟨s.stack, .num (c :: raw)⟩
    else do
      let n ← readNumber raw.reverse
      let s' ← emit s.stack (.number n)
      resume s' c
  | .lit rest j =>
    match rest with
    | [] => none
    | d :: rest =>
      if c ≠ d then none
      else if rest = [] then emit s.stack j
      else some ⟨s.stack, .lit rest j⟩
  | .after | .done _ => resume s c

/-- The reader over a stretch of text. -/
def run (s : State) (cs : List Char) : Option State := cs.foldlM step s

/-- A whole text; its end is read as a blank, which ends a number. -/
def read (text : List Char) : Option Json :=
  match run ⟨[], .value⟩ (text ++ [' ']) with
  | some ⟨[], .done j⟩ => some j
  | _ => none

@[simp] theorem run_nil (s : State) : run s [] = some s := rfl

theorem run_cons (s : State) (c : Char) (cs : List Char) :
    run s (c :: cs) = (step s c).bind fun s' => run s' cs := List.foldlM_cons

/-! ### Literals -/

/-- After a value has been read, a number would have ended the same way. -/
theorem step_emit {st : List Frame} {j : Json} {s : State} (h : emit st j = some s) (c : Char) :
    step s c = resume s c := by
  rcases st with _ | ⟨(_ | _ | _), st⟩ <;> cases h <;> rfl

theorem run_num {st : List Frame} {n : Number} {s : State} (h : emit st (.number n) = some s)
    {c : Char} (hc : isNumberChar c = false) (r : List Char) :
    ∀ cs raw : List Char, (∀ d ∈ cs, isNumberChar d = true) →
      readNumber (raw.reverse ++ cs) = some n →
      run ⟨st, .num raw⟩ (cs ++ c :: r) = run s (c :: r)
  | [], raw, _, hn => by
    rw [List.append_nil] at hn
    rw [List.nil_append, run_cons, run_cons, step_emit h]
    simp [step, hc, hn, h]
  | d :: cs, raw, hd, hn => by
    have hstep : step ⟨st, .num raw⟩ d = some ⟨st, .num (d :: raw)⟩ := by
      simp [step, hd d (List.mem_cons_self ..)]
    rw [List.cons_append, run_cons, hstep, Option.bind_some]
    exact run_num h hc r cs (d :: raw) (fun e he => hd e (List.mem_cons_of_mem _ he))
      (by simpa using hn)

theorem step_minus_or_digit (st : List Frame) {d : Char} (hd : d = '-' ∨ d.isDigit = true) :
    step ⟨st, .value⟩ d = some ⟨st, .num [d]⟩ := by
  rcases hd with rfl | hd
  · rfl
  · have hne : ∀ e : Char, e.isDigit = false → d ≠ e := fun e he => digit_ne hd he
    simp [step, isSpace, beginValue, hd, hne ' ' rfl, hne '\t' rfl, hne '\r' rfl, hne '\n' rfl,
      hne '{' rfl, hne '[' rfl, hne '"' rfl, hne 't' rfl, hne 'f' rfl, hne 'n' rfl]

theorem run_number {st : List Frame} {n : Number} {s : State} (h : emit st (.number n) = some s)
    {c : Char} (hc : isNumberChar c = false) (r : List Char) :
    run ⟨st, .value⟩ (n.text ++ c :: r) = run s (c :: r) := by
  have hread := readNumber_text n
  have hall := isNumberChar_text n
  obtain ⟨d, cs, htext, hd⟩ := text_eq_cons n
  rw [htext] at hread hall
  rw [htext, List.cons_append, run_cons, step_minus_or_digit st hd, Option.bind_some]
  exact run_num h hc r cs [d] (fun e he => hall e (List.mem_cons_of_mem _ he)) hread

theorem hexDigit_ne : ∀ n < 16, hexDigit n ≠ '"' ∧ hexDigit n ≠ '\\' := by decide

theorem run_escapeChar (st : List Frame) (raw : List Char) (c : Char) (r : List Char) :
    run ⟨st, .str raw false⟩ (escapeChar c ++ r) =
      run ⟨st, .str ((escapeChar c).reverse ++ raw) false⟩ r := by
  rcases escapeChar_cases c with ⟨e, -, -, hc⟩ | ⟨-, hc⟩ | ⟨hquote, hslash, -, hc⟩
  · rw [hc]; rfl
  · -- the backslash takes the `u` with it; no hexadecimal digit ends the string
    have hstep : ∀ (raw : List Char) (n : ℕ), step ⟨st, .str raw false⟩ (hexDigit (n % 16)) =
        some ⟨st, .str (hexDigit (n % 16) :: raw) false⟩ := by
      intro raw n
      obtain ⟨hquote, hslash⟩ := hexDigit_ne (n % 16) (Nat.mod_lt _ (by decide))
      simp [step, hquote, hslash]
    have hu : ∀ cs, run ⟨st, .str raw false⟩ ('\\' :: 'u' :: cs) =
        run ⟨st, .str ('u' :: '\\' :: raw) false⟩ cs := fun _ => rfl
    rw [hc, unicodeEscape]
    simp only [List.cons_append, List.nil_append]
    rw [hu, run_cons, hstep, Option.bind_some, run_cons, hstep, Option.bind_some, run_cons, hstep,
      Option.bind_some, run_cons, hstep, Option.bind_some]
    rfl
  · rw [hc, List.cons_append, List.nil_append, run_cons]
    simp [step, hquote, hslash]

theorem run_escape (st : List Frame) (r : List Char) : ∀ s raw : List Char,
    run ⟨st, .str raw false⟩ (escape s ++ '"' :: r) =
      (closeQuote st (raw.reverse ++ escape s)).bind fun s' => run s' r
  | [], raw => by
    rw [escape, List.flatMap_nil, List.nil_append, List.append_nil, run_cons]
    rfl
  | c :: s, raw => by
    have ih := run_escape st r s ((escapeChar c).reverse ++ raw)
    rw [escape] at ih ⊢
    rw [List.flatMap_cons, List.append_assoc, run_escapeChar, ih]
    simp

/-- A key in front of its member. -/
theorem run_key (st : List Frame) (ms : List (String × Json)) (k : String) (r : List Char) :
    run ⟨.object ms :: st, .key⟩ (quoted k ++ ':' :: r) =
      run ⟨.member ms k :: st, .value⟩ r := by
  have hopen : ∀ cs, run ⟨.object ms :: st, .key⟩ ('"' :: cs) =
      run ⟨.object ms :: st, .str [] false⟩ cs := fun _ => rfl
  rw [quoted, List.cons_append, List.cons_append, hopen, List.append_assoc, List.cons_append,
    List.nil_append, run_escape]
  simp only [closeQuote, List.reverse_nil, List.nil_append, unquote_escape, Option.bind_eq_bind,
    Option.bind_some, String.ofList_toList]
  rfl

/-- A string as a value. -/
theorem run_string {st : List Frame} {k : String} {s : State} (h : emit st (.string k) = some s)
    (r : List Char) : run ⟨st, .value⟩ (quoted k ++ r) = run s r := by
  have hopen : ∀ cs, run ⟨st, .value⟩ ('"' :: cs) = run ⟨st, .str [] false⟩ cs := fun _ => rfl
  have hclose : closeQuote st (escape k.toList) = some s := by
    rw [closeQuote, unquote_escape, ← h]
    rcases st with _ | ⟨(_ | _ | _), st⟩
    case cons.object => cases h
    all_goals simp [String.ofList_toList]
  rw [quoted, List.cons_append, List.cons_append, hopen, List.append_assoc, List.cons_append,
    List.nil_append, run_escape, List.reverse_nil, List.nil_append, hclose, Option.bind_some]

/-! ### Reading what was printed -/

/-- A value starts with a character that is neither a blank nor the end of an array. -/
theorem print_eq_cons (j : Json) : ∃ c r, print j = c :: r ∧ isSpace c = false ∧ c ≠ ']' := by
  rcases j with _ | (_ | _) | n | s | (_ | ⟨j, js⟩) | (_ | ⟨m, ms⟩)
  case number =>
    obtain ⟨c, r, h, hc⟩ := text_eq_cons n
    refine ⟨c, r, by rw [print, h], ?_, ?_⟩ <;> rcases hc with rfl | hc
    · rfl
    · have hne : ∀ e : Char, e.isDigit = false → c ≠ e := fun e he => digit_ne hc he
      simp [isSpace, hne ' ' rfl, hne '\t' rfl, hne '\r' rfl, hne '\n' rfl]
    · decide
    · exact digit_ne hc rfl
  all_goals exact ⟨_, _, rfl, by decide, by decide⟩

theorem printElems_eq_cons (js : List Json) :
    ∃ c r, printElems js = c :: r ∧ isNumberChar c = false := by
  cases js with
  | nil => exact ⟨']', [], rfl, by decide⟩
  | cons j js => exact ⟨',', print j ++ printElems js, by rw [printElems]; rfl, by decide⟩

theorem printMembers_eq_cons (ms : List (String × Json)) :
    ∃ c r, printMembers ms = c :: r ∧ isNumberChar c = false := by
  cases ms with
  | nil => exact ⟨'}', [], rfl, by decide⟩
  | cons m ms => exact ⟨',', printMember m ++ printMembers ms, by rw [printMembers]; rfl, by decide⟩

/-- The first element of an array is read like the later ones. -/
theorem run_valueOrEnd (st : List Frame) (j : Json) (r : List Char) :
    run ⟨st, .valueOrEnd⟩ (print j ++ r) = run ⟨st, .value⟩ (print j ++ r) := by
  obtain ⟨c, cs, h, hspace, hend⟩ := print_eq_cons j
  rw [h, List.cons_append, run_cons, run_cons]
  simp [step, hspace, hend]

theorem run_keyOrEnd (st : List Frame) (m : String × Json) (r : List Char) :
    run ⟨st, .keyOrEnd⟩ (printMember m ++ r) = run ⟨st, .key⟩ (printMember m ++ r) := by
  obtain ⟨k, j⟩ := m
  rfl

mutual

/-- The reader takes a printed value as that value, up to a character that ends a number. -/
theorem run_print : ∀ (j : Json) {st : List Frame} {s : State}, emit st j = some s →
    ∀ {c : Char}, isNumberChar c = false → ∀ r : List Char,
      run ⟨st, .value⟩ (print j ++ c :: r) = run s (c :: r)
  | .null, st, s, h, c, _, r => by
    have hlit : run ⟨st, .value⟩ (print .null ++ c :: r) =
      (emit st .null).bind fun s => run s (c :: r) := rfl
    rw [hlit, h, Option.bind_some]
  | .bool true, st, s, h, c, _, r => by
    have hlit : run ⟨st, .value⟩ (print (.bool true) ++ c :: r) =
      (emit st (.bool true)).bind fun s => run s (c :: r) := rfl
    rw [hlit, h, Option.bind_some]
  | .bool false, st, s, h, c, _, r => by
    have hlit : run ⟨st, .value⟩ (print (.bool false) ++ c :: r) =
      (emit st (.bool false)).bind fun s => run s (c :: r) := rfl
    rw [hlit, h, Option.bind_some]
  | .number n, st, s, h, c, hc, r => by
    rw [print]
    exact run_number h hc r
  | .string k, st, s, h, c, _, r => by
    rw [print]
    exact run_string h (c :: r)
  | .array [], st, s, h, c, _, r => by
    have hlit : run ⟨st, .value⟩ (print (.array []) ++ c :: r) =
      (emit st (.array [])).bind fun s => run s (c :: r) := rfl
    rw [hlit, h, Option.bind_some]
  | .array (j :: js), st, s, h, c, _, r => by
    have hopen : ∀ cs, run ⟨st, .value⟩ ('[' :: cs) = run ⟨.array [] :: st, .valueOrEnd⟩ cs :=
      fun _ => rfl
    obtain ⟨d, ds, htail, hd⟩ := printElems_eq_cons js
    rw [print, List.cons_append, List.cons_append, List.append_assoc, hopen, run_valueOrEnd, htail,
      List.cons_append, run_print j rfl hd, ← List.cons_append, ← htail]
    exact run_printElems js [j] h (c :: r)
  | .object [], st, s, h, c, _, r => by
    have hlit : run ⟨st, .value⟩ (print (.object []) ++ c :: r) =
      (emit st (.object [])).bind fun s => run s (c :: r) := rfl
    rw [hlit, h, Option.bind_some]
  | .object (m :: ms), st, s, h, c, _, r => by
    have hopen : ∀ cs, run ⟨st, .value⟩ ('{' :: cs) = run ⟨.object [] :: st, .keyOrEnd⟩ cs :=
      fun _ => rfl
    obtain ⟨d, ds, htail, hd⟩ := printMembers_eq_cons ms
    rw [print, List.cons_append, List.cons_append, List.append_assoc, hopen, run_keyOrEnd, htail,
      List.cons_append, run_printMember m st [] hd, ← List.cons_append, ← htail]
    exact run_printMembers ms [m] h (c :: r)

theorem run_printElems : ∀ (js acc : List Json) {st : List Frame} {s : State},
    emit st (.array (acc.reverse ++ js)) = some s → ∀ r : List Char,
      run ⟨.array acc :: st, .after⟩ (printElems js ++ r) = run s r
  | [], acc, st, s, h, r => by
    rw [List.append_nil] at h
    have hclose : run ⟨.array acc :: st, .after⟩ (printElems [] ++ r) =
      (emit st (.array acc.reverse)).bind fun s => run s r := rfl
    rw [hclose, h, Option.bind_some]
  | j :: js, acc, st, s, h, r => by
    have hcomma : ∀ cs, run ⟨.array acc :: st, .after⟩ (',' :: cs) =
      run ⟨.array acc :: st, .value⟩ cs := fun _ => rfl
    obtain ⟨d, ds, htail, hd⟩ := printElems_eq_cons js
    rw [printElems, List.cons_append, List.cons_append, List.append_assoc, hcomma, htail,
      List.cons_append, run_print j rfl hd, ← List.cons_append, ← htail]
    exact run_printElems js (j :: acc) (by simpa using h) r

theorem run_printMember : ∀ (m : String × Json) (st : List Frame) (acc : List (String × Json))
    {c : Char}, isNumberChar c = false → ∀ r : List Char,
      run ⟨.object acc :: st, .key⟩ (printMember m ++ c :: r) =
        run ⟨.object (m :: acc) :: st, .after⟩ (c :: r)
  | (k, j), st, acc, c, hc, r => by
    rw [printMember, List.append_assoc, List.cons_append, run_key]
    exact run_print j rfl hc r

theorem run_printMembers : ∀ (ms acc : List (String × Json)) {st : List Frame} {s : State},
    emit st (.object (acc.reverse ++ ms)) = some s → ∀ r : List Char,
      run ⟨.object acc :: st, .after⟩ (printMembers ms ++ r) = run s r
  | [], acc, st, s, h, r => by
    rw [List.append_nil] at h
    have hclose : run ⟨.object acc :: st, .after⟩ (printMembers [] ++ r) =
      (emit st (.object acc.reverse)).bind fun s => run s r := rfl
    rw [hclose, h, Option.bind_some]
  | m :: ms, acc, st, s, h, r => by
    have hcomma : ∀ cs, run ⟨.object acc :: st, .after⟩ (',' :: cs) =
      run ⟨.object acc :: st, .key⟩ cs := fun _ => rfl
    obtain ⟨d, ds, htail, hd⟩ := printMembers_eq_cons ms
    rw [printMembers, List.cons_append, List.cons_append, List.append_assoc, hcomma, htail,
      List.cons_append, run_printMember m st acc hd, ← List.cons_append, ← htail]
    exact run_printMembers ms (m :: acc) (by simpa using h) r

end

/-- A tree reads back from its compact text. -/
theorem read_print (j : Json) : read (print j) = some j := by
  rw [read, run_print j rfl (by decide) []]
  rfl

/-! ### Texts that open with a bracket -/

/-- An array or an object. -/
def Composite : Json → Prop
  | .array _ => True
  | .object _ => True
  | _ => False

/-- The reader is inside an array or object, or has just left the outermost one. -/
def Opened (s : State) : Prop := s.stack ≠ [] ∨ ∃ j, s.mode = .done j ∧ j.Composite

/-- A composite value, wherever it goes, and any value inside an array or object. -/
theorem opened_emit {st : List Frame} {j : Json} {s : State} (h : emit st j = some s)
    (hst : st ≠ [] ∨ j.Composite) : Opened s := by
  rcases st with _ | ⟨(_ | _ | _), st⟩ <;> cases h
  · rcases hst with hst | hj
    · contradiction
    · exact .inr ⟨j, rfl, hj⟩
  all_goals exact .inl (List.cons_ne_nil _ _)

theorem opened_afterValue {st : List Frame} {c : Char} {s : State} (h : afterValue st c = some s)
    (hst : st ≠ []) : Opened s := by
  by_cases hspace : isSpace c = true
  · rw [afterValue.eq_def, if_pos hspace] at h
    cases h
    exact .inl hst
  rw [afterValue.eq_def, if_neg hspace] at h
  rcases st with _ | ⟨(_ | _ | _), st⟩
  · contradiction
  case cons.member => cases h
  all_goals
    simp only at h
    split at h
    · cases h; exact .inl (List.cons_ne_nil _ _)
    · split at h
      · exact opened_emit h (.inr trivial)
      · cases h

theorem opened_beginValue {st : List Frame} {c : Char} {s : State} (h : beginValue st c = some s)
    (hst : st ≠ []) : Opened s := by
  rw [beginValue] at h
  repeat
    split at h
    · cases h; first | exact .inl (List.cons_ne_nil _ _) | exact .inl hst
  cases h

theorem opened_closeQuote {st : List Frame} {raw : List Char} {s : State}
    (h : closeQuote st raw = some s) (hst : st ≠ []) : Opened s := by
  rw [closeQuote.eq_def] at h
  rcases hraw : unquote raw with _ | u
  · rw [hraw] at h; cases h
  · simp only [hraw, Option.bind_eq_bind, Option.bind_some] at h
    rcases st with _ | ⟨(_ | _ | _), st⟩
    · contradiction
    case cons.object => cases h; exact .inl (List.cons_ne_nil _ _)
    all_goals exact opened_emit h (.inl hst)

theorem opened_resume {s s' : State} {c : Char} (h : resume s c = some s') (hs : Opened s) :
    Opened s' := by
  rw [resume] at h
  split at h
  · rename_i hmode
    rcases hs with hs | ⟨j, hj, -⟩
    · exact opened_afterValue h hs
    · rw [hmode] at hj; cases hj
  · rename_i j hmode
    split at h
    · cases h
      rcases hs with hs | ⟨j', hj, hcomp⟩
      · exact .inl hs
      · rw [hmode] at hj; exact .inr ⟨j', hj, hcomp⟩
    · cases h
  · cases h

theorem opened_step {s s' : State} {c : Char} (h : step s c = some s') (hs : Opened s) :
    Opened s' := by
  obtain ⟨st, mode⟩ := s
  rcases hs with hst | ⟨j, hj, hcomp⟩
  swap
  · -- the outermost value is complete: only blanks follow
    obtain rfl : mode = .done j := hj
    have hresume : resume ⟨st, .done j⟩ c = some s' := h
    exact opened_resume hresume (.inr ⟨j, rfl, hcomp⟩)
  have hkeep : ∀ m, Opened ⟨st, m⟩ := fun _ => .inl hst
  cases mode <;> simp only [step] at h
  case value =>
    split at h
    · cases h; exact hkeep _
    · exact opened_beginValue h hst
  case valueOrEnd =>
    split at h
    · cases h; exact hkeep _
    · split at h
      · exact opened_afterValue h hst
      · exact opened_beginValue h hst
  case key =>
    split at h
    · cases h; exact hkeep _
    · split at h <;> cases h
      exact hkeep _
  case keyOrEnd =>
    split at h
    · cases h; exact hkeep _
    · split at h
      · cases h; exact hkeep _
      · split at h
        · exact opened_afterValue h hst
        · cases h
  case colon =>
    split at h
    · cases h; exact hkeep _
    · split at h <;> cases h
      exact hkeep _
  case str raw esc =>
    split at h
    · cases h; exact hkeep _
    · split at h
      · cases h; exact hkeep _
      · split at h
        · exact opened_closeQuote h hst
        · cases h; exact hkeep _
  case num raw =>
    split at h
    · cases h; exact hkeep _
    · rcases hn : readNumber raw.reverse with _ | n
      · rw [hn] at h; cases h
      · rw [hn] at h
        rcases he : emit st (.number n) with _ | s₁
        · simp [he] at h
        · simp only [he, Option.bind_eq_bind, Option.bind_some] at h
          exact opened_resume h (opened_emit he (.inl hst))
  case lit rest j =>
    rcases rest with _ | ⟨d, rest⟩
    · cases h
    · simp only at h
      split at h
      · cases h
      · split at h
        · exact opened_emit h (.inl hst)
        · cases h; exact hkeep _
  all_goals exact opened_resume h (.inl hst)

theorem opened_run {s s' : State} : ∀ {cs : List Char}, run s cs = some s' → Opened s → Opened s'
  | [], h, hs => by cases h; exact hs
  | c :: cs, h, hs => by
    rw [run_cons] at h
    rcases hc : step s c with _ | s₁
    · rw [hc] at h; cases h
    · rw [hc] at h
      exact opened_run h (opened_step hc hs)

/-- What may stand in front of a text that reads: blanks, and nothing that is no value either. -/
theorem run_skip {s : State} {r : List Char} : ∀ {w : List Char},
    (∀ c ∈ w, isSpace c = true ∨ beginValue [] c = none) →
    run ⟨[], .value⟩ (w ++ r) = some s → run ⟨[], .value⟩ r = some s
  | [], _, h => h
  | c :: w, hw, h => by
    have hrest : ∀ d ∈ w, isSpace d = true ∨ beginValue [] d = none :=
      fun d hd => hw d (List.mem_cons_of_mem _ hd)
    rw [List.cons_append, run_cons] at h
    by_cases hspace : isSpace c = true
    · simp only [step, hspace, ↓reduceIte, Option.bind_some] at h
      exact run_skip hrest h
    · rcases hw c (List.mem_cons_self ..) with hc | hc
      · exact absurd hc hspace
      · simp [step, hspace, hc] at h

/-- A text that opens with a bracket reads as an array or an object. -/
theorem composite_of_read {w r : List Char} {c : Char} {j : Json}
    (hw : ∀ c ∈ w, isSpace c = true ∨ beginValue [] c = none) (hc : c = '{' ∨ c = '[')
    (h : read (w ++ c :: r) = some j) : j.Composite := by
  rw [read] at h
  split at h
  · rename_i j' hrun
    cases h
    rw [List.append_assoc] at hrun
    have hopen := run_skip hw hrun
    have hstart : ∃ f m, run ⟨[], .value⟩ ((c :: r) ++ [' ']) = run ⟨[f], m⟩ (r ++ [' ']) := by
      rcases hc with rfl | rfl
      · exact ⟨_, _, rfl⟩
      · exact ⟨_, _, rfl⟩
    obtain ⟨f, m, hstart⟩ := hstart
    rw [hstart] at hopen
    rcases opened_run hopen (.inl (List.cons_ne_nil _ _)) with hnil | ⟨j', hj, hcomp⟩
    · contradiction
    · cases hj; exact hcomp
  · cases h

end Json

end GoStd
