import Mathlib.Data.List.Basic
import Mathlib.Data.List.DropRight
import Mathlib.Data.String.Basic

/-! What a browser makes of the texts in a page: attribute values between double quotes, text fields and
    select fields, and `trim` of JavaScript.

        written                       held
        value="a &amp; b"             a & b
        value="a<CR>b"                a<LF>b
        <input type="text">           without line breaks
        <select>                      the last option marked, else the first -/

namespace Browser

/-! ### Trimming -/

/-- White space and line terminators of JavaScript. -/
def isSpace (c : Char) : Bool :=
  c = '\t' || c = '\n' || c = '\x0b' || c = '\x0c' || c = '\r' || c = ' ' || c = '\u00a0' ||
    c = '\u1680' || ('\u2000' ≤ c && c ≤ '\u200a') || c = '\u2028' || c = '\u2029' ||
    c = '\u202f' || c = '\u205f' || c = '\u3000' || c = '\ufeff'

/-- `s.trim()`. -/
def trim (s : String) : String :=
  String.ofList ((s.toList.dropWhile isSpace).rdropWhile isSpace)

theorem mem_of_mem_trim {s : String} {c : Char} (h : c ∈ (trim s).toList) : c ∈ s.toList := by
  rw [trim, String.toList_ofList] at h
  have hdrop := (List.rdropWhile_prefix isSpace _).subset h
  exact (List.dropWhile_suffix isSpace).subset hdrop

/-- A text of blanks alone. -/
def Blank (s : String) : Prop := ∀ c ∈ s.toList, isSpace c = true

theorem trim_eq_empty {s : String} : trim s = "" ↔ Blank s := by
  have hnil : trim s = "" ↔ (s.toList.dropWhile isSpace).rdropWhile isSpace = [] := by
    rw [← String.toList_inj, trim, String.toList_ofList]
    rfl
  rw [hnil, List.rdropWhile_eq_nil_iff]
  constructor
  · intro h c hc
    rw [← List.takeWhile_append_dropWhile (p := isSpace) (l := s.toList), List.mem_append] at hc
    exact hc.elim (fun hc => List.mem_takeWhile_imp hc) (h c)
  · intro h c hc
    exact h c ((List.dropWhile_suffix isSpace).subset hc)

/-! ### Attribute values -/

/-- The newlines of a page: each is a line feed. -/
def normalizeNewlines : List Char → List Char
  | [] => []
  | '\r' :: '\n' :: cs => '\n' :: normalizeNewlines cs
  | '\r' :: cs => '\n' :: normalizeNewlines cs
  | c :: cs => c :: normalizeNewlines cs

/-- NUL has no place in a page. -/
def replaceNul (c : Char) : Char := if c = '\x00' then '\ufffd' else c

/-- The character references of an attribute value, of those that `&`, `<`, `>` and `"` are written with. -/
def decode : List Char → List Char
  | [] => []
  | '&' :: 'a' :: 'm' :: 'p' :: ';' :: cs => '&' :: decode cs
  | '&' :: 'l' :: 't' :: ';' :: cs => '<' :: decode cs
  | '&' :: 'g' :: 't' :: ';' :: cs => '>' :: decode cs
  | '&' :: 'q' :: 'u' :: 'o' :: 't' :: ';' :: cs => '"' :: decode cs
  | c :: cs => replaceNul c :: decode cs

/-- The value of an attribute written between double quotes. -/
def attributeValue (text : String) : String := String.ofList (decode (normalizeNewlines text.toList))

/-- How a character is written in an attribute value. -/
def escape (c : Char) : List Char :=
  if c = '&' then "&amp;".toList
  else if c = '<' then "&lt;".toList
  else if c = '>' then "&gt;".toList
  else if c = '"' then "&quot;".toList
  else [c]

theorem decode_cons_of_ne {c : Char} (h : c ≠ '&') (cs : List Char) :
    decode (c :: cs) = replaceNul c :: decode cs := by
  rw [decode]
  all_goals simp [h]

theorem decode_escape (c : Char) (cs : List Char) :
    decode (escape c ++ cs) = replaceNul c :: decode cs := by
  rw [escape]
  split_ifs with hamp hlt hgt hquot
  · subst hamp
    rfl
  · subst hlt
    rfl
  · subst hgt
    rfl
  · subst hquot
    rfl
  · exact decode_cons_of_ne hamp cs

theorem decode_flatMap_escape : ∀ cs : List Char, decode (cs.flatMap escape) = cs.map replaceNul
  | [] => rfl
  | c :: cs => by
    rw [List.flatMap_cons, decode_escape, decode_flatMap_escape, List.map_cons]

theorem normalizeNewlines_cons_of_ne {c : Char} (h : c ≠ '\r') (cs : List Char) :
    normalizeNewlines (c :: cs) = c :: normalizeNewlines cs := by
  rw [normalizeNewlines]
  all_goals simp [h]

theorem normalizeNewlines_append {w : List Char} (h : '\r' ∉ w) (cs : List Char) :
    normalizeNewlines (w ++ cs) = w ++ normalizeNewlines cs := by
  induction w with
  | nil => rfl
  | cons c w ih =>
    rw [List.mem_cons, not_or] at h
    rw [List.cons_append, normalizeNewlines_cons_of_ne (Ne.symm h.1), ih h.2, List.cons_append]

theorem normalizeNewlines_cr {cs : List Char} (h : cs.head? ≠ some '\n') :
    normalizeNewlines ('\r' :: cs) = '\n' :: normalizeNewlines cs := by
  rw [normalizeNewlines]
  rintro cs' rfl
  exact h rfl

theorem head_ne_of_forall {cs : List Char} (h : ∀ cs', cs = '\n' :: cs' → False) :
    cs.head? ≠ some '\n' := by
  rcases cs with _ | ⟨d, cs⟩
  · simp
  · rw [List.head?_cons, ne_eq, Option.some.injEq]
    rintro rfl
    exact h cs rfl

theorem cr_notMem_escape {c : Char} (h : c ≠ '\r') : '\r' ∉ escape c := by
  rw [escape]
  split_ifs
  · decide
  · decide
  · decide
  · decide
  · simpa using h.symm

theorem head_escape {c : Char} (h : c ≠ '\n') (cs : List Char) :
    (escape c ++ cs).head? ≠ some '\n' := by
  rw [escape]
  split_ifs <;> simp [h]

/-- Writing the characters and normalizing the newlines do not get into each other's way. -/
theorem normalizeNewlines_flatMap_escape (cs : List Char) :
    normalizeNewlines (cs.flatMap escape) = (normalizeNewlines cs).flatMap escape := by
  have hcr : escape '\r' = ['\r'] := by decide
  have hlf : escape '\n' = ['\n'] := by decide
  induction cs using normalizeNewlines.induct with
  | case1 => rfl
  | case2 cs ih =>
    rw [normalizeNewlines, List.flatMap_cons, List.flatMap_cons, List.flatMap_cons, hcr, hlf, ← ih]
    rfl
  | case3 cs hne ih =>
    have hhead : (cs.flatMap escape).head? ≠ some '\n' := by
      rcases cs with _ | ⟨d, cs⟩
      · simp
      · rw [List.flatMap_cons]
        refine head_escape ?_ _
        rintro rfl
        exact hne cs rfl
    rw [List.flatMap_cons, hcr, List.singleton_append, normalizeNewlines_cr hhead, ih,
      normalizeNewlines_cr (head_ne_of_forall hne), List.flatMap_cons, hlf, List.singleton_append]
  | case4 c cs _ hc ih =>
    have hne : c ≠ '\r' := fun h => hc h
    rw [List.flatMap_cons, normalizeNewlines_append (cr_notMem_escape hne), ih,
      normalizeNewlines_cons_of_ne hne, List.flatMap_cons]

/-- What a text is shown as in a page it is written into. -/
def shown (s : String) : String := String.ofList ((normalizeNewlines s.toList).map replaceNul)

theorem attributeValue_escape (s : String) :
    attributeValue (String.ofList (s.toList.flatMap escape)) = shown s := by
  rw [attributeValue, String.toList_ofList, normalizeNewlines_flatMap_escape, decode_flatMap_escape,
    shown]

theorem mem_normalizeNewlines {c : Char} {cs : List Char} (h : c ∈ normalizeNewlines cs) :
    c ≠ '\r' := by
  induction cs using normalizeNewlines.induct with
  | case1 => cases h
  | case2 cs ih =>
    rw [normalizeNewlines] at h
    rcases List.mem_cons.mp h with rfl | h
    · decide
    · exact ih h
  | case3 cs hne ih =>
    rw [normalizeNewlines_cr (head_ne_of_forall hne)] at h
    rcases List.mem_cons.mp h with rfl | h
    · decide
    · exact ih h
  | case4 d cs _ hd ih =>
    rw [normalizeNewlines_cons_of_ne hd] at h
    rcases List.mem_cons.mp h with rfl | h
    · exact hd
    · exact ih h

theorem forall_normalizeNewlines {P : Char → Prop} (hP : P '\r' ↔ P '\n') (cs : List Char) :
    (∀ c ∈ normalizeNewlines cs, P c) ↔ ∀ c ∈ cs, P c := by
  induction cs using normalizeNewlines.induct with
  | case1 => exact Iff.rfl
  | case2 cs ih =>
    rw [normalizeNewlines]
    simp only [List.forall_mem_cons, ih, hP, and_self_left]
  | case3 cs hne ih =>
    rw [normalizeNewlines_cr (head_ne_of_forall hne)]
    simp only [List.forall_mem_cons, ih, hP]
  | case4 d cs _ hd ih =>
    rw [normalizeNewlines_cons_of_ne hd]
    simp only [List.forall_mem_cons, ih]

theorem mem_shown {s : String} {c : Char} (h : c ∈ (shown s).toList) : c ≠ '\r' ∧ c ≠ '\x00' := by
  rw [shown, String.toList_ofList, List.mem_map] at h
  obtain ⟨d, hd, rfl⟩ := h
  rw [replaceNul]
  split_ifs with hnul
  · decide
  · exact ⟨mem_normalizeNewlines hd, hnul⟩

theorem shown_eq_self {s : String} (h : ∀ c ∈ s.toList, c ≠ '\r' ∧ c ≠ '\x00') : shown s = s := by
  have hcr : '\r' ∉ s.toList := fun hmem => (h _ hmem).1 rfl
  have hnewlines := normalizeNewlines_append hcr []
  rw [List.append_nil, normalizeNewlines, List.append_nil] at hnewlines
  have hnul : s.toList.map replaceNul = s.toList.map id :=
    List.map_congr_left fun c hc => if_neg (h c hc).2
  rw [shown, hnewlines, hnul, List.map_id, String.ofList_toList]

/-- A text of blanks is shown as one. -/
theorem blank_shown (s : String) : Blank (shown s) ↔ Blank s := by
  have hnul (c : Char) : isSpace (replaceNul c) = isSpace c := by
    rw [replaceNul]
    split_ifs with h
    · subst h
      decide
    · rfl
  rw [Blank, shown, String.toList_ofList, List.forall_mem_map]
  simp only [hnul]
  exact forall_normalizeNewlines (by decide) s.toList

/-! ### Fields -/

/-- The value of a text field: without line breaks. -/
def textField (value : String) : String :=
  String.ofList (value.toList.filter fun c => c ≠ '\n' ∧ c ≠ '\r')

theorem blank_textField (s : String) : Blank (textField s) ↔ Blank s := by
  rw [Blank, textField, String.toList_ofList]
  constructor
  · intro h c hc
    by_cases hbreak : c = '\n' ∨ c = '\r'
    · rcases hbreak with rfl | rfl
      · decide
      · decide
    · rw [not_or] at hbreak
      exact h c (List.mem_filter.mpr ⟨hc, by simpa using hbreak⟩)
  · intro h c hc
    exact h c (List.mem_of_mem_filter hc)

/-- A text without blanks around it, and without what a page does not show. -/
def Tidy (s : String) : Prop := trim s = s ∧ ∀ c ∈ s.toList, c ≠ '\r' ∧ c ≠ '\x00'

theorem trim_shown_eq_self {s : String} : trim (shown s) = s ↔ Tidy s := by
  constructor
  · intro h
    have hchars : ∀ c ∈ s.toList, c ≠ '\r' ∧ c ≠ '\x00' := by
      intro c hc
      rw [← h] at hc
      exact mem_shown (mem_of_mem_trim hc)
    exact ⟨(congrArg trim (shown_eq_self hchars)).symm.trans h, hchars⟩
  · rintro ⟨htrim, hchars⟩
    rw [shown_eq_self hchars, htrim]

theorem trim_textField_eq_self {s : String} :
    trim (textField (shown s)) = s ↔ Tidy s ∧ '\n' ∉ s.toList := by
  constructor
  · intro h
    have hmem : ∀ c ∈ s.toList, c ∈ (shown s).toList ∧ c ≠ '\n' := by
      intro c hc
      rw [← h] at hc
      have hfield := mem_of_mem_trim hc
      rw [textField, String.toList_ofList, List.mem_filter, decide_eq_true_eq] at hfield
      exact ⟨hfield.1, hfield.2.1⟩
    have hchars : ∀ c ∈ s.toList, c ≠ '\r' ∧ c ≠ '\x00' := fun c hc => mem_shown (hmem c hc).1
    have hfield : textField s = s := by
      rw [textField, List.filter_eq_self.mpr, String.ofList_toList]
      intro c hc
      rw [decide_eq_true_eq]
      exact ⟨(hmem c hc).2, (hchars c hc).1⟩
    rw [shown_eq_self hchars, hfield] at h
    exact ⟨⟨h, hchars⟩, fun hlf => (hmem _ hlf).2 rfl⟩
  · rintro ⟨⟨htrim, hchars⟩, hlf⟩
    have hfield : textField s = s := by
      rw [textField, List.filter_eq_self.mpr, String.ofList_toList]
      intro c hc
      rw [decide_eq_true_eq]
      refine ⟨?_, (hchars c hc).1⟩
      rintro rfl
      exact hlf hc
    rw [shown_eq_self hchars, hfield, htrim]

/-- An option of a select field, and whether it is marked. -/
structure SelectOption where
  value : String
  selected : Bool

/-- The value of a select field that takes one option: of the options marked the last, and where none is
    the first. -/
def selectValue (options : List SelectOption) : String :=
  ((((options.filter SelectOption.selected).getLast?).or options.head?).map SelectOption.value).getD ""

/-- The values selected in a field that takes several. -/
def selectedOptions (options : List SelectOption) : List String :=
  (options.filter SelectOption.selected).map SelectOption.value

end Browser
