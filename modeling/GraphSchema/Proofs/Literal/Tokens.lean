import Mathlib
import GraphSchema.Literal.Basic
import GraphSchema.Proofs.Json.Strings

/-!
# The tokens of literal expressions

The words, decimal numbers, string literals and keys that a text can begin with, and for each the
function that reads it.  `word?_eq_some_iff`, `numeral?_eq_some_iff`, `string?_eq_some_iff` and
`key?_eq_some_iff` say that what is read is what the text begins with.  A token can be told by its
first character, which is none of the marks between tokens.
-/

namespace GraphSchema.Literal

/-! ## Decimal numbers -/

/-- At least one digit, and nothing else. -/
def isDigits (text : List Char) : Bool := !text.isEmpty && text.all Char.isDigit

/-- The exponent of a decimal number, which may be missing. -/
def isPower : List Char → Bool
  | [] => true
  | mark :: '+' :: digits | mark :: '-' :: digits => (mark == 'e' || mark == 'E') && isDigits digits
  | mark :: digits => (mark == 'e' || mark == 'E') && isDigits digits

/-- A decimal number without a sign: digits, perhaps with a point at any place among them, and
perhaps an exponent. -/
def isMagnitude (text : List Char) : Bool :=
  let whole := text.takeWhile Char.isDigit
  match text.dropWhile Char.isDigit with
  | '.' :: rest =>
    (isDigits whole || isDigits (rest.takeWhile Char.isDigit)) &&
      isPower (rest.dropWhile Char.isDigit)
  | rest => isDigits whole && isPower rest

/-- The text of a decimal number. -/
def isDecimal : List Char → Bool
  | '-' :: rest => isMagnitude rest
  | text => isMagnitude text

/-- What can stand in a decimal number. -/
def isNumberPart (c : Char) : Bool :=
  c.isDigit || c == '.' || c == 'e' || c == 'E' || c == '+' || c == '-'

/-! ## Tokens -/

/-- White space, perhaps none, and then the rest. -/
def Blank (text rest : List Char) : Prop :=
  ∃ gap, (∀ c ∈ gap, Json.Cursor.isSeparator c) ∧ text = gap ++ rest

/-- The text begins with this identifier, and it ends there. -/
structure Word (text name rest : List Char) : Prop where
  eq : text = name ++ rest
  identifier : isIdentifier (String.ofList name)
  ends : ∀ c ∈ rest.head?, isIdentifierPart c = false

/-- The text begins with this decimal number, and it ends there. -/
structure Numeral (text digits rest : List Char) : Prop where
  eq : text = digits ++ rest
  decimal : isDecimal digits
  ends : ∀ c ∈ rest.head?, isNumberPart c = false

/-- The text begins with a key: an identifier or a string literal. -/
inductive Key : List Char → String → List Char → Prop
  | name {text name rest : List Char} (h : Word text name rest) :
      Key text (String.ofList name) rest
  | quoted {text rest : List Char} {key : String} (h : Json.Quotation text key.toList rest) :
      Key ('"' :: text) key rest

/-! ## Readers of tokens -/

/-- Pass over white space. -/
def skip (text : List Char) : List Char := text.dropWhile Json.Cursor.isSeparator

/-- The identifier that the text begins with. -/
def word? : List Char → Option (List Char × List Char)
  | [] => none
  | c :: rest =>
    if isIdentifierStart c then
      some (c :: rest.takeWhile isIdentifierPart, rest.dropWhile isIdentifierPart)
    else none

/-- The decimal number that the text begins with. -/
def numeral? (text : List Char) : Option (List Char × List Char) :=
  if isDecimal (text.takeWhile isNumberPart) then
    some (text.takeWhile isNumberPart, text.dropWhile isNumberPart)
  else none

/-- The string literal whose opening quote has been read. -/
def string? (text : List Char) : Option (String × List Char) :=
  match Json.readString .keep ⟨text, ⟨1, 0⟩⟩ with
  | .ok (value, last) => some (value, last.rest)
  | .error _ => none

/-- The key that the text begins with. -/
def key? : List Char → Option (String × List Char)
  | '"' :: text => string? text
  | text => (word? text).map fun (name, rest) => (String.ofList name, rest)

/-- The text behind a colon and the white space around it. -/
def colon? (text : List Char) : Option (List Char) :=
  match skip text with
  | ':' :: rest => some (skip rest)
  | _ => none

/-! ## Classes of characters -/

section Tokens

variable {p : Char → Bool} {text front rest : List Char}

theorem takeWhile_append_eq (hfront : ∀ c ∈ front, p c) (hrest : ∀ c ∈ rest.head?, p c = false) :
    (front ++ rest).takeWhile p = front := by
  rw [List.takeWhile_append_of_pos hfront]
  cases rest with
  | nil => simp
  | cons c rest => simp [hrest c rfl]

theorem dropWhile_append_eq (hfront : ∀ c ∈ front, p c) (hrest : ∀ c ∈ rest.head?, p c = false) :
    (front ++ rest).dropWhile p = rest := by
  rw [List.dropWhile_append_of_pos hfront]
  cases rest with
  | nil => rfl
  | cons c rest => simp [hrest c rfl]

/-- What is not taken begins with no character of the class. -/
theorem head?_dropWhile_eq_false : ∀ c ∈ (text.dropWhile p).head?, p c = false := by
  intro c hc
  have h := List.head?_dropWhile_not p text
  rw [hc] at h
  exact h

end Tokens

/-- The marks and the white space of the grammar. -/
def marks : List Char := ['"', '[', ']', '\x7b', '\x7d', ':', ',', ' ', '\n', '\t', '\r']

theorem isSeparator_eq_false {c : Char} (h : c ∉ [' ', '\n', '\t', '\r']) :
    Json.Cursor.isSeparator c = false := by
  simpa [Json.Cursor.isSeparator, and_assoc] using h

/-- White space ends where something else begins. -/
theorem skip_eq {text rest : List Char} (h : Blank text rest)
    (hrest : ∀ c ∈ rest.head?, Json.Cursor.isSeparator c = false) : skip text = rest := by
  obtain ⟨gap, hgap, rfl⟩ := h
  exact dropWhile_append_eq hgap hrest

theorem blank_skip (text : List Char) : Blank text (skip text) :=
  ⟨text.takeWhile Json.Cursor.isSeparator, fun _ hc => List.all_eq_true.mp List.all_takeWhile _ hc,
    (List.takeWhile_append_dropWhile).symm⟩

theorem not_mem_marks_of_isIdentifierStart {c : Char} (h : isIdentifierStart c) : c ∉ marks := by
  intro hmem
  have hmarks : marks.all fun c => !isIdentifierStart c := by decide
  simpa [h] using List.all_eq_true.mp hmarks c hmem

theorem word?_eq_some_iff {text name rest : List Char} :
    word? text = some (name, rest) ↔ Word text name rest := by
  constructor
  · intro h
    unfold word? at h
    split at h
    · cases h
    · rename_i c behind
      split at h
      · rename_i hstart
        cases h
        refine ⟨by rw [List.cons_append, List.takeWhile_append_dropWhile], ?_,
          head?_dropWhile_eq_false⟩
        simp [isIdentifier, hstart]
      · cases h
  · rintro ⟨rfl, hname, hends⟩
    cases name with
    | nil => simp [isIdentifier] at hname
    | cons c name =>
      simp only [isIdentifier, String.toList_ofList, Bool.and_eq_true, List.all_eq_true] at hname
      simp [word?, hname.1, takeWhile_append_eq hname.2 hends, dropWhile_append_eq hname.2 hends]

theorem isNumberPart_of_isDigit {c : Char} (h : c.isDigit) : isNumberPart c := by
  simp [isNumberPart, h]

theorem isNumberPart_of_isDigits {text : List Char} (h : isDigits text) :
    ∀ c ∈ text, isNumberPart c := by
  simp only [isDigits, Bool.and_eq_true, List.all_eq_true] at h
  exact fun c hc => isNumberPart_of_isDigit (h.2 c hc)

theorem isNumberPart_of_isPower {text : List Char} (h : isPower text) :
    ∀ c ∈ text, isNumberPart c := by
  have hmark : ∀ {mark : Char}, (mark == 'e' || mark == 'E') = true → isNumberPart mark := by
    intro mark hmark
    simp only [Bool.or_eq_true, beq_iff_eq] at hmark
    rcases hmark with rfl | rfl <;> decide
  unfold isPower at h
  split at h
  · simp
  all_goals
    simp only [Bool.and_eq_true] at h
    have hdigits := isNumberPart_of_isDigits h.2
    simp only [List.forall_mem_cons]
  · exact ⟨hmark h.1, by decide, hdigits⟩
  · exact ⟨hmark h.1, by decide, hdigits⟩
  · exact ⟨hmark h.1, hdigits⟩

/-- Digits, and then what number parts make up. -/
theorem isNumberPart_of_dropWhile {text : List Char}
    (h : ∀ c ∈ text.dropWhile Char.isDigit, isNumberPart c) : ∀ c ∈ text, isNumberPart c := by
  intro c hc
  rw [← List.takeWhile_append_dropWhile (p := Char.isDigit) (l := text)] at hc
  rcases List.mem_append.mp hc with hc | hc
  · exact isNumberPart_of_isDigit (List.all_eq_true.mp List.all_takeWhile c hc)
  · exact h c hc

theorem isNumberPart_of_isMagnitude {text : List Char} (h : isMagnitude text) :
    ∀ c ∈ text, isNumberPart c := by
  refine isNumberPart_of_dropWhile ?_
  simp only [isMagnitude] at h
  split at h
  · rename_i rest hrest
    simp only [Bool.and_eq_true] at h
    rw [hrest, List.forall_mem_cons]
    exact ⟨by decide, isNumberPart_of_dropWhile (isNumberPart_of_isPower h.2)⟩
  · simp only [Bool.and_eq_true] at h
    exact isNumberPart_of_isPower h.2

/-- A decimal number is made of number parts. -/
theorem isNumberPart_of_isDecimal {text : List Char} (h : isDecimal text) :
    ∀ c ∈ text, isNumberPart c := by
  unfold isDecimal at h
  split at h
  · rw [List.forall_mem_cons]
    exact ⟨by decide, isNumberPart_of_isMagnitude h⟩
  · exact isNumberPart_of_isMagnitude h

theorem head_of_isMagnitude {text : List Char} (h : isMagnitude text) :
    ∃ c rest, text = c :: rest ∧ (c.isDigit ∨ c = '.') := by
  cases text with
  | nil => exact absurd h (by decide)
  | cons c rest =>
    refine ⟨c, rest, rfl, ?_⟩
    by_cases hdigit : c.isDigit
    · exact .inl hdigit
    · by_cases hpoint : c = '.'
      · exact .inr hpoint
      · simp [isMagnitude, hdigit, isDigits, hpoint] at h

theorem isIdentifierStart_of_isDigit {c : Char} (h : c.isDigit) : isIdentifierStart c = false := by
  have halpha : c.isAlpha = false := by
    grind [Char.isDigit, Char.isAlpha, Char.isUpper, Char.isLower]
  have hunderscore : c ≠ '_' := by
    rintro rfl
    exact absurd h (by decide)
  have hdollar : c ≠ '$' := by
    rintro rfl
    exact absurd h (by decide)
  simp [isIdentifierStart, halpha, hunderscore, hdollar]

theorem not_mem_marks_of_isDigit {c : Char} (h : c.isDigit) : c ∉ marks := by
  intro hmem
  have hmarks : marks.all fun c => !c.isDigit := by decide
  simpa [h] using List.all_eq_true.mp hmarks c hmem

/-- A decimal number begins like no other token. -/
theorem head_of_isDecimal {text : List Char} (h : isDecimal text) :
    ∃ c rest, text = c :: rest ∧ c ∉ marks ∧ isIdentifierStart c = false := by
  unfold isDecimal at h
  split at h
  · exact ⟨_, _, rfl, by decide, by decide⟩
  · obtain ⟨c, rest, rfl, hdigit | rfl⟩ := head_of_isMagnitude h
    · exact ⟨c, rest, rfl, not_mem_marks_of_isDigit hdigit, isIdentifierStart_of_isDigit hdigit⟩
    · exact ⟨_, _, rfl, by decide, by decide⟩

theorem numeral?_eq_some_iff {text digits rest : List Char} :
    numeral? text = some (digits, rest) ↔ Numeral text digits rest := by
  constructor
  · intro h
    unfold numeral? at h
    split at h
    · cases h
      exact ⟨(List.takeWhile_append_dropWhile).symm, ‹_›, head?_dropWhile_eq_false⟩
    · cases h
  · rintro ⟨rfl, hdigits, hends⟩
    have hparts := isNumberPart_of_isDecimal hdigits
    simp [numeral?, takeWhile_append_eq hparts hends, dropWhile_append_eq hparts hends, hdigits]

theorem string?_eq_some_iff {text rest : List Char} {value : String} :
    string? text = some (value, rest) ↔ Json.Quotation text value.toList rest := by
  constructor
  · intro h
    unfold string? at h
    split at h
    · rename_i hread
      cases h
      exact Json.quotation_of_readString hread
    · cases h
  · intro h
    obtain ⟨last, hread⟩ := Json.readString_of_quotation h ⟨1, 0⟩
    simp [string?, hread]

/-- The first character of a word. -/
theorem Word.head {text name rest : List Char} (h : Word text name rest) :
    ∃ c tail, text = c :: tail ∧ isIdentifierStart c := by
  obtain ⟨rfl, hname, -⟩ := h
  cases name with
  | nil => simp [isIdentifier] at hname
  | cons c name =>
    simp only [isIdentifier, String.toList_ofList, Bool.and_eq_true] at hname
    exact ⟨c, name ++ rest, rfl, hname.1⟩

/-- The first character of a number. -/
theorem Numeral.head {text digits rest : List Char} (h : Numeral text digits rest) :
    ∃ c tail, text = c :: tail ∧ c ∉ marks ∧ isIdentifierStart c = false := by
  obtain ⟨rfl, hdigits, -⟩ := h
  obtain ⟨c, tail, rfl, hmarks, hstart⟩ := head_of_isDecimal hdigits
  exact ⟨c, tail ++ rest, rfl, hmarks, hstart⟩

theorem word?_eq_none {c : Char} {rest : List Char} (h : isIdentifierStart c = false) :
    word? (c :: rest) = none := by
  simp [word?, h]

theorem key?_eq_some_iff {text rest : List Char} {key : String} :
    key? text = some (key, rest) ↔ Key text key rest := by
  constructor
  · intro h
    unfold key? at h
    split at h
    · exact .quoted (string?_eq_some_iff.mp h)
    · obtain ⟨⟨name, behind⟩, hword, heq⟩ := Option.map_eq_some_iff.mp h
      cases heq
      exact .name (word?_eq_some_iff.mp hword)
  · intro h
    cases h with
    | @name _ name _ hword =>
      obtain ⟨c, tail, rfl, hstart⟩ := hword.head
      have hquote : c ≠ '"' := by
        rintro rfl
        exact absurd hstart (by decide)
      unfold key?
      split
      · rename_i heq
        cases heq
        exact absurd rfl hquote
      · rw [word?_eq_some_iff.mpr hword]
        rfl
    | quoted hquoted => exact string?_eq_some_iff.mpr hquoted

theorem blank_of_colon? {text start : List Char} (h : colon? text = some start) :
    ∃ behind, Blank text (':' :: behind) ∧ Blank behind start := by
  unfold colon? at h
  split at h
  · rename_i behind htext
    cases h
    exact ⟨behind, htext ▸ blank_skip text, blank_skip behind⟩
  · cases h

/-! ## Progress -/

theorem Blank.length_le {text rest : List Char} (h : Blank text rest) :
    rest.length ≤ text.length := by
  obtain ⟨gap, -, rfl⟩ := h
  simp

theorem Word.length_lt {text name rest : List Char} (h : Word text name rest) :
    rest.length < text.length := by
  obtain ⟨rfl, hname, -⟩ := h
  cases name with
  | nil => simp [isIdentifier] at hname
  | cons c name => simp only [List.length_append, List.length_cons]; omega

theorem Numeral.length_lt {text digits rest : List Char} (h : Numeral text digits rest) :
    rest.length < text.length := by
  obtain ⟨rfl, hdigits, -⟩ := h
  obtain ⟨c, tail, rfl, -, -⟩ := head_of_isDecimal hdigits
  simp only [List.length_append, List.length_cons]
  omega

theorem Key.length_lt {text rest : List Char} {key : String} (h : Key text key rest) :
    rest.length < text.length := by
  cases h with
  | name hword => exact hword.length_lt
  | quoted hquoted =>
    have hshorter := hquoted.length_lt
    simp only [List.length_cons]
    omega

end GraphSchema.Literal
