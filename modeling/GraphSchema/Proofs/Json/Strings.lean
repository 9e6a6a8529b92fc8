import GraphSchema.Json.Lexeme
import GraphSchema.Proofs.Outcomes
import GraphSchema.Text.Quoted

/-!
# String literals of JSON

`Json.Quotation` says what a string literal is, from behind its opening quote on: characters that
stand for themselves, and escapes.  The reader of strings reads exactly these
(`quotation_of_readString`, `readString_of_quotation`), and a quoted text is one
(`quotation_flatMap`).
-/

namespace GraphSchema.Json

/-- The escapes of one letter. -/
def escapeLetters : List (Char × Char) :=
  [('"', '"'), ('\\', '\\'), ('/', '/'), ('b', Char.ofNat 8), ('f', Char.ofNat 12), ('n', '\n'),
   ('r', '\r'), ('t', '\t')]

/-- The text, which stands behind a backslash, begins with the escape of a character; what follows
the escape is the last argument. -/
inductive Escaped : List Char → Char → List Char → Prop
  | letter {letter c : Char} {rest : List Char} (h : (letter, c) ∈ escapeLetters) :
      Escaped (letter :: rest) c rest
  | codePoint {a b c d : Char} {value : Nat} {rest : List Char}
      (hvalue : hexValue4? a b c d = some value) (hlone : value < 0xD800 ∨ 0xDFFF < value) :
      Escaped ('u' :: a :: b :: c :: d :: rest) (Char.ofNat value) rest
  | surrogates {a b c d e f g h : Char} {high low : Nat} {rest : List Char}
      (hhigh : hexValue4? a b c d = some high) (habove : 0xD800 ≤ high) (hbelow : high ≤ 0xDBFF)
      (hlow : hexValue4? e f g h = some low) (habove' : 0xDC00 ≤ low) (hbelow' : low ≤ 0xDFFF) :
      Escaped ('u' :: a :: b :: c :: d :: '\\' :: 'u' :: e :: f :: g :: h :: rest)
        (Char.ofNat (0x10000 + (high - 0xD800) * 0x400 + (low - 0xDC00))) rest

/-- The text, which stands behind an opening quote, begins with the characters of a string literal
and its closing quote; what follows the literal is the last argument. -/
inductive Quotation : List Char → List Char → List Char → Prop
  | close {rest : List Char} : Quotation ('"' :: rest) [] rest
  | plain {c : Char} {text value rest : List Char} (hquote : c ≠ '"') (hslash : c ≠ '\\')
      (hcontrol : 32 ≤ c.toNat) (h : Quotation text value rest) :
      Quotation (c :: text) (c :: value) rest
  | escape {c : Char} {text behind value rest : List Char} (hescaped : Escaped text c behind)
      (h : Quotation behind value rest) : Quotation ('\\' :: text) (c :: value) rest

/-! ## What the reader reads is a literal -/

theorem readHex_eq_ok {cursor last : Cursor} {value : Nat}
    (h : readHex cursor = .ok (value, last)) :
    ∃ a b c d, cursor.rest = a :: b :: c :: d :: last.rest ∧ hexValue4? a b c d = some value := by
  simp only [readHex] at h
  -- Where no four digits are left, the reader refuses, with either of two faults.
  split at h
  · rename_i a b c d rest hrest
    split at h
    · rename_i hvalue
      cases h
      exact ⟨a, b, c, d, hrest, hvalue⟩
    · split at h <;> cases h
  · split at h <;> cases h

theorem readLowSurrogate_eq_ok {high : Nat} {cursor last : Cursor} {decoded : List Char}
    (h : readLowSurrogate high cursor = .ok (decoded, last)) :
    ∃ second third low, cursor.next? = some ('\\', second) ∧ second.next? = some ('u', third) ∧
      readHex third = .ok (low, last) ∧ 0xDC00 ≤ low ∧ low ≤ 0xDFFF ∧
      decoded = [Char.ofNat (0x10000 + (high - 0xD800) * 0x400 + (low - 0xDC00))] := by
  unfold readLowSurrogate at h
  obtain ⟨second, hslash, h⟩ := exists_of_bind_eq_ok h
  obtain ⟨third, hu, h⟩ := exists_of_bind_eq_ok h
  obtain ⟨⟨low, fourth⟩, hlow, h⟩ := exists_of_bind_eq_ok h
  have hfirst : cursor.next? = some ('\\', second) := by
    dsimp only at hslash
    split at hslash
    · cases hslash
    · rename_i hnext
      split at hslash
      · rename_i hletter
        cases hslash
        exact hletter ▸ hnext
      · cases hslash
  have hsecond : second.next? = some ('u', third) := by
    dsimp only at hu
    split at hu
    · cases hu
    · rename_i hnext
      split at hu
      · rename_i hletter
        cases hu
        exact hletter ▸ hnext
      · cases hu
  dsimp only at h
  split at h
  · cases h
  · cases h
    exact ⟨second, third, low, hfirst, hsecond, hlow, by omega, by omega, rfl⟩

/-- What a code point is read from: one escape, or the escapes of two surrogates. -/
theorem readCodePoint_eq_ok {cursor last : Cursor} {decoded : List Char}
    (h : readCodePoint .keep cursor = .ok (decoded, last)) :
    ∃ value middle, readHex cursor = .ok (value, middle) ∧
      ((value < 0xD800 ∨ 0xDFFF < value) ∧ decoded = [Char.ofNat value] ∧ middle = last ∨
        0xD800 ≤ value ∧ value ≤ 0xDBFF ∧ readLowSurrogate value middle = .ok (decoded, last)) := by
  unfold readCodePoint at h
  obtain ⟨⟨value, middle⟩, hhex, h⟩ := exists_of_bind_eq_ok h
  refine ⟨value, middle, hhex, ?_⟩
  simp only [reduceCtorEq, if_false] at h
  split at h
  · cases h
  · split at h
    · rename_i hhigh
      exact .inr ⟨hhigh.1, hhigh.2, h⟩
    · cases h
      exact .inl ⟨by omega, rfl, rfl⟩

theorem escaped_of_readCodePoint {cursor last : Cursor} {decoded : List Char}
    (h : readCodePoint .keep cursor = .ok (decoded, last)) :
    ∃ c, decoded = [c] ∧ Escaped ('u' :: cursor.rest) c last.rest := by
  obtain ⟨value, middle, hhex, h⟩ := readCodePoint_eq_ok h
  obtain ⟨a, b, c, d, hrest, hvalue⟩ := readHex_eq_ok hhex
  rw [hrest]
  rcases h with ⟨hlone, rfl, rfl⟩ | ⟨habove, hbelow, hpair⟩
  · exact ⟨_, rfl, .codePoint hvalue hlone⟩
  · obtain ⟨second, third, low, hslash, hu, hlow, habove', hbelow', rfl⟩ :=
      readLowSurrogate_eq_ok hpair
    obtain ⟨e, f, g, i, hrest', hvalue'⟩ := readHex_eq_ok hlow
    rw [Cursor.rest_of_next? hslash, Cursor.rest_of_next? hu, hrest']
    exact ⟨_, rfl, .surrogates hvalue habove hbelow hvalue' habove' hbelow'⟩

theorem escaped_of_readEscape {cursor last : Cursor} {decoded : List Char}
    (h : readEscape .keep cursor = .ok (decoded, last)) :
    ∃ c, decoded = [c] ∧ Escaped cursor.rest c last.rest := by
  unfold readEscape at h
  split at h
  · cases h
  · rename_i c behind hnext
    rw [Cursor.rest_of_next? hnext]
    split at h
    case h_9 => exact escaped_of_readCodePoint h
    case h_10 => cases h
    all_goals
      cases h
      exact ⟨_, rfl, .letter (by decide)⟩

theorem quotation_of_readCharacters {steps : Nat} {cursor last : Cursor} {value : List Char}
    (h : readCharacters .keep steps cursor = .ok (value, last)) :
    Quotation cursor.rest value last.rest := by
  induction steps generalizing cursor value with
  | zero => cases h
  | succ steps ih =>
    unfold readCharacters at h
    split at h
    · cases h
    · rename_i c behind hnext
      rw [Cursor.rest_of_next? hnext]
      split at h
      · rename_i hquote
        cases h
        exact hquote ▸ .close
      · split at h
        · rename_i hslash
          obtain ⟨⟨decoded, second⟩, hescape, h⟩ := exists_of_bind_eq_ok h
          obtain ⟨⟨more, third⟩, hmore, h⟩ := exists_of_bind_eq_ok h
          obtain ⟨decoded, rfl, hescaped⟩ := escaped_of_readEscape hescape
          cases h
          exact hslash ▸ .escape hescaped (ih hmore)
        · split at h
          · cases h
          · obtain ⟨⟨more, second⟩, hmore, h⟩ := exists_of_bind_eq_ok h
            cases h
            exact .plain ‹_› ‹_› (by omega) (ih hmore)

/-- A string that is read is a literal. -/
theorem quotation_of_readString {cursor last : Cursor} {value : String}
    (h : readString .keep cursor = .ok (value, last)) :
    Quotation cursor.rest value.toList last.rest := by
  obtain ⟨⟨characters, behind⟩, hread, h⟩ := exists_of_bind_eq_ok h
  cases h
  simpa using quotation_of_readCharacters hread

/-! ## Every literal is read -/

theorem readHex_cons {a b c d : Char} {value : Nat} (hvalue : hexValue4? a b c d = some value)
    (rest : List Char) (place : Position) :
    readHex ⟨a :: b :: c :: d :: rest, place⟩ =
      .ok (value, ⟨rest, ⟨place.line, place.column + 4⟩⟩) := by
  simp [readHex, hvalue]

theorem Escaped.readEscape {text rest : List Char} {c : Char} (h : Escaped text c rest)
    (place : Position) :
    ∃ last, readEscape .keep ⟨text, place⟩ = .ok ([c], ⟨rest, last⟩) := by
  cases h with
  | letter h =>
    simp only [escapeLetters, List.mem_cons, Prod.mk.injEq, List.not_mem_nil, or_false] at h
    rcases h with ⟨rfl, rfl⟩ | ⟨rfl, rfl⟩ | ⟨rfl, rfl⟩ | ⟨rfl, rfl⟩ | ⟨rfl, rfl⟩ | ⟨rfl, rfl⟩ |
      ⟨rfl, rfl⟩ | ⟨rfl, rfl⟩ <;> exact ⟨_, rfl⟩
  | @codePoint a b c d value rest hvalue hlone =>
    have hlow : ¬ (0xDC00 ≤ value ∧ value ≤ 0xDFFF) := by omega
    have hhigh : ¬ (0xD800 ≤ value ∧ value ≤ 0xDBFF) := by omega
    simp [Json.readEscape, readCodePoint, readHex_cons hvalue, hlow, hhigh]
  | @surrogates a b c d e f g i high low rest hhigh habove hbelow hlow habove' hbelow' =>
    have hlone : ¬ (0xDC00 ≤ high ∧ high ≤ 0xDFFF) := by omega
    have hpair : ¬ (low < 0xDC00 ∨ 0xDFFF < low) := by omega
    simp [Json.readEscape, readCodePoint, readLowSurrogate, readHex_cons hhigh, readHex_cons hlow,
      hlone, hpair, habove, hbelow]

/-- An escape is read within the text that is left. -/
theorem Escaped.length_lt {text rest : List Char} {c : Char} (h : Escaped text c rest) :
    rest.length < text.length := by
  cases h <;> simp only [List.length_cons] <;> omega

/-- A literal is read within the text that is left. -/
theorem Quotation.length_lt {text value rest : List Char} (h : Quotation text value rest) :
    rest.length < text.length := by
  induction h with
  | close => simp
  | plain _ _ _ _ ih =>
    simp only [List.length_cons]
    omega
  | escape hescaped _ ih =>
    have hshorter := hescaped.length_lt
    simp only [List.length_cons]
    omega

theorem Quotation.readCharacters {text value rest : List Char} (h : Quotation text value rest) :
    ∀ (steps : Nat) (place : Position), text.length < steps →
      ∃ last, readCharacters .keep steps ⟨text, place⟩ = .ok (value, ⟨rest, last⟩) := by
  induction h with
  | close =>
    intro steps place hsteps
    obtain ⟨steps, rfl⟩ := Nat.exists_eq_add_of_lt hsteps
    exact ⟨_, rfl⟩
  | @plain c text value rest hquote hslash hcontrol _ ih =>
    intro steps place hsteps
    obtain _ | steps := steps
    · omega
    · obtain ⟨last, hread⟩ := ih steps (place.char c) (by simpa using hsteps)
      have hvisible : ¬ c.toNat < 32 := by omega
      simp [Json.readCharacters, hquote, hslash, hvisible, hread]
  | @escape c text behind value rest hescaped _ ih =>
    intro steps place hsteps
    obtain _ | steps := steps
    · omega
    · have hshorter := hescaped.length_lt
      obtain ⟨middle, hescape⟩ := hescaped.readEscape (place.char '\\')
      obtain ⟨last, hread⟩ := ih steps middle (by simp only [List.length_cons] at hsteps; omega)
      simp [Json.readCharacters, hescape, hread]

/-- A literal is read. -/
theorem readString_of_quotation {text rest : List Char} {value : String}
    (h : Quotation text value.toList rest) (place : Position) :
    ∃ last, readString .keep ⟨text, place⟩ = .ok (value, ⟨rest, last⟩) := by
  obtain ⟨last, hread⟩ := h.readCharacters (text.length + 1) place (Nat.lt_succ_self _)
  exact ⟨last, by simp [readString, hread]⟩

/-! ## A quoted text is a literal -/

/-- The four hexadecimal digits of a control character. -/
theorem hexFixed_control {value : Nat} (h : value < 32) :
    ∃ a b c d, Text.hexFixed 4 value = [a, b, c, d] ∧ hexValue4? a b c d = some value := by
  refine ⟨Text.hexDigit (value / 16 / 16 / 16), Text.hexDigit (value / 16 / 16),
    Text.hexDigit (value / 16), Text.hexDigit value, by simp [Text.hexFixed], ?_⟩
  simp only [hexValue4?, Text.hexValue?_hexDigit, Option.pure_def, Option.bind_eq_bind,
    Option.bind_some]
  congr 1
  omega

/-- A character is written as itself or as its escape. -/
theorem quotation_escape (c : Char) {text value rest : List Char}
    (h : Quotation text value rest) :
    Quotation (Text.Quoted.escape c ++ text) (c :: value) rest := by
  have hletter : ∀ {letter d : Char}, c = d → (letter, d) ∈ escapeLetters →
      Quotation (['\\', letter] ++ text) (c :: value) rest := by
    rintro letter d rfl hmem
    exact .escape (.letter hmem) h
  have hcode : ∀ {n : Nat}, c.toNat = n → c = Char.ofNat n := by
    rintro n rfl
    exact c.ofNat_toNat.symm
  unfold Text.Quoted.escape
  split
  · exact hletter ‹_› (by decide)
  split
  · exact hletter ‹_› (by decide)
  split
  · exact hletter (hcode ‹_›) (by decide)
  split
  · exact hletter (hcode ‹_›) (by decide)
  split
  · exact hletter ‹_› (by decide)
  split
  · exact hletter ‹_› (by decide)
  split
  · exact hletter ‹_› (by decide)
  split
  · rename_i hcontrol
    obtain ⟨a, b, d, e, hdigits, hvalue⟩ := hexFixed_control hcontrol
    rw [hdigits]
    have hescaped : Escaped ('u' :: a :: b :: d :: e :: text) (Char.ofNat c.toNat) text :=
      .codePoint hvalue (by omega)
    rw [Char.ofNat_toNat] at hescaped
    exact .escape hescaped h
  · exact .plain ‹_› ‹_› (by omega) h

/-- What stands behind the opening quote of a quoted text. -/
theorem quotation_flatMap (value rest : List Char) :
    Quotation (value.flatMap Text.Quoted.escape ++ '"' :: rest) value rest := by
  induction value with
  | nil => exact .close
  | cons c value ih =>
    rw [List.flatMap_cons, List.append_assoc]
    exact quotation_escape c ih

end GraphSchema.Json
