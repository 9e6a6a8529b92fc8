import GraphSchema.Proofs.Json.Progress

/-!
# What can be read can be passed over

Passing over a value asks less of the text than reading it: a number may be out of range and a
surrogate may stand alone.  Where a value is read, passing over it ends at the same place
(`skipValue_of_readValue`).
-/

namespace GraphSchema.Json

/-! ## Strings -/

/-- An escape is passed over in one step, or in two if it is a pair of surrogates. -/
theorem readEscape_skip {cursor last : Cursor} {decoded : List Char}
    (h : readEscape .keep cursor = .ok (decoded, last)) :
    (∃ decoded', readEscape .skip cursor = .ok (decoded', last)) ∨
    ∃ middle second decoded', readEscape .skip cursor = .ok ([], middle) ∧
      middle.next? = some ('\\', second) ∧ readEscape .skip second = .ok (decoded', last) := by
  have hpoint : ∀ {start place : Cursor} {value : Nat}, readHex start = .ok (value, place) →
      readCodePoint .skip start = .ok ([], place) := by
    intro start place value hhex
    simp [readCodePoint, hhex]
  unfold readEscape at h ⊢
  split at h
  · cases h
  · rename_i c behind hnext
    split at h
    case h_9 =>
      obtain ⟨value, middle, hhex, h⟩ := readCodePoint_eq_ok h
      rcases h with ⟨-, -, rfl⟩ | ⟨-, -, hpair⟩
      · exact .inl ⟨_, hpoint hhex⟩
      · obtain ⟨second, third, low, hslash, hu, hlow, -, -, -⟩ := readLowSurrogate_eq_ok hpair
        refine .inr ⟨middle, second, [], hpoint hhex, hslash, ?_⟩
        rw [hu]
        exact hpoint hlow
    case h_10 => cases h
    all_goals exact .inl ⟨_, h⟩

theorem readCharacters_skip_escape {steps : Nat} {cursor behind middle last : Cursor}
    {decoded value : List Char} (hslash : cursor.next? = some ('\\', behind))
    (hescape : readEscape .skip behind = .ok (decoded, middle))
    (hrest : readCharacters .skip steps middle = .ok (value, last)) :
    readCharacters .skip (steps + 1) cursor = .ok (decoded ++ value, last) := by
  simp [readCharacters, hslash, hescape, hrest]

theorem readCharacters_skip {steps : Nat} {cursor last : Cursor} {value : List Char}
    (h : readCharacters .keep steps cursor = .ok (value, last)) :
    ∀ steps', cursor.rest.length < steps' →
      ∃ value', readCharacters .skip steps' cursor = .ok (value', last) := by
  induction steps generalizing cursor value with
  | zero => cases h
  | succ steps ih =>
    intro steps' hsteps'
    obtain _ | steps' := steps'
    · omega
    unfold readCharacters at h
    split at h
    · cases h
    rename_i c behind hnext
    have hbehind := Cursor.length_lt_of_next? hnext
    split at h
    · rename_i hquote
      cases h
      exact ⟨[], by simp [readCharacters, hnext, hquote]⟩
    split at h
    · rename_i hslash
      obtain ⟨⟨decoded, second⟩, hescape, h⟩ := exists_of_bind_eq_ok h
      obtain ⟨⟨more, third⟩, hmore, h⟩ := exists_of_bind_eq_ok h
      cases h
      subst hslash
      obtain ⟨c, -, hescaped⟩ := escaped_of_readEscape hescape
      have hsecond := hescaped.length_lt
      rcases readEscape_skip hescape with ⟨decoded', hskip⟩ |
        ⟨middle, next, decoded', hskip, hnext', hskip'⟩
      · obtain ⟨value', hrest⟩ := ih hmore steps' (by omega)
        exact ⟨_, readCharacters_skip_escape hnext hskip hrest⟩
      -- The second of two surrogates takes a step of its own.
      · obtain _ | steps' := steps'
        · omega
        · obtain ⟨value', hrest⟩ := ih hmore steps' (by omega)
          have hrest' := readCharacters_skip_escape hnext' hskip' hrest
          exact ⟨_, readCharacters_skip_escape hnext hskip hrest'⟩
    · rename_i hquote hslash
      split at h
      · cases h
      · rename_i hcontrol
        obtain ⟨⟨more, second⟩, hmore, h⟩ := exists_of_bind_eq_ok h
        cases h
        obtain ⟨value', hrest⟩ := ih hmore steps' (by omega)
        exact ⟨c :: value', by simp [readCharacters, hnext, hquote, hslash, hcontrol, hrest]⟩

/-- A string that is read is passed over. -/
theorem readString_skip {cursor last : Cursor} {text : String}
    (h : readString .keep cursor = .ok (text, last)) :
    ∃ text', readString .skip cursor = .ok (text', last) := by
  obtain ⟨⟨characters, behind⟩, hread, h⟩ := exists_of_bind_eq_ok h
  cases h
  obtain ⟨characters', hskip⟩ := readCharacters_skip hread _ (Nat.lt_succ_self _)
  exact ⟨String.ofList characters', by simp [readString, hskip]⟩

/-! ## Numbers -/

section Numbers

variable {ended : SyntaxFault} {cursor last : Cursor}

theorem readWhole_ended {whole : List Char} (h : readWhole ended cursor = .ok (whole, last))
    (ended' : SyntaxFault) : readWhole ended' cursor = .ok (whole, last) := by
  unfold readWhole at h ⊢
  split at h
  · cases h
  · exact h

theorem readFraction_ended {fraction : List Char}
    (h : readFraction ended cursor = .ok (fraction, last)) (ended' : SyntaxFault) :
    readFraction ended' cursor = .ok (fraction, last) := by
  unfold readFraction at h ⊢
  split at h
  · split at h
    · split at h <;> cases h
    · exact h
  · exact h

theorem readPower_ended {power : Option (Bool × List Char × Position)}
    (h : readPower ended cursor = .ok (power, last)) (ended' : SyntaxFault) :
    readPower ended' cursor = .ok (power, last) := by
  unfold readPower at h ⊢
  split at h
  · split at h
    · rename_i hmark
      rw [if_pos hmark]
      split at h
      split at h
      · split at h <;> cases h
      · exact h
    · rename_i hmark
      rw [if_neg hmark]
      exact h
  · exact h

/-- A number that is read is read whatever is said of its end. -/
theorem readNumeral_ended {numeral : Numeral}
    (h : readNumeral ended cursor = .ok (numeral, last)) (ended' : SyntaxFault) :
    readNumeral ended' cursor = .ok (numeral, last) := by
  unfold readNumeral at h ⊢
  split at h
  obtain ⟨⟨whole, afterWhole⟩, hwhole, h⟩ := exists_of_bind_eq_ok h
  obtain ⟨⟨fraction, afterFraction⟩, hfraction, h⟩ := exists_of_bind_eq_ok h
  obtain ⟨⟨power, afterPower⟩, hpower, h⟩ := exists_of_bind_eq_ok h
  cases h
  simp [readWhole_ended hwhole ended', readFraction_ended hfraction ended',
    readPower_ended hpower ended']

end Numbers

/-! ## Values -/

section Values

variable {rounding : Rounding}

/-- Reading the elements of an array begins with a step to its end or to an element. -/
theorem exists_nextElement {steps room place : Nat} {first : Bool} {cursor last : Cursor}
    {elements : List Json}
    (h : readElementsIn rounding steps room first place cursor = .ok (elements, last)) :
    nextElement first cursor = .ok (.closed last) ∨
    ∃ start, nextElement first cursor = .ok (.item () start) := by
  cases steps with
  | zero => simp [readElementsIn, fail] at h
  | succ steps =>
    simp only [readElementsIn] at h
    obtain ⟨next, hnext, h⟩ := exists_of_bind_eq_ok h
    cases next with
    | closed behind =>
      cases h
      exact .inl hnext
    | item _ start => exact .inr ⟨start, hnext⟩

/-- Reading the entries of an object begins with a step to its end or to a key. -/
theorem exists_nextKey {steps room : Nat} {first : Bool} {cursor last : Cursor}
    {entries : List (String × Json)}
    (h : readEntriesIn rounding steps room first cursor = .ok (entries, last)) :
    nextKey first cursor = .ok (.closed last) ∨
    ∃ key colon, nextKey first cursor = .ok (.item key colon) := by
  cases steps with
  | zero => simp [readEntriesIn, fail] at h
  | succ steps =>
    simp only [readEntriesIn] at h
    obtain ⟨next, hnext, h⟩ := exists_of_bind_eq_ok h
    cases next with
    | closed behind =>
      cases h
      exact .inl hnext
    | item key colon => exact .inr ⟨key, colon, hnext⟩

mutual

/-- A value that is read is passed over, also from further up in the white space before it. -/
theorem skipValueIn_of_readValueIn : ∀ (steps room : Nat) {cursor last : Cursor} {value : Json},
    readValueIn rounding steps room cursor = .ok (value, last) →
      ∀ other : Cursor, other.skipBlank = cursor.skipBlank → skipValueIn steps other = .ok last
  | 0, _, _, _, _, h, _, _ => by simp [readValueIn, fail] at h
  | steps + 1, room, cursor, last, value, h, other, hother => by
    simp only [readValueIn] at h
    simp only [skipValueIn, hother]
    split at h
    · cases h
    rename_i c behind hnext
    split at h
    case h_4 =>
      obtain ⟨⟨text, after⟩, hread, h⟩ := exists_of_bind_eq_ok h
      cases h
      obtain ⟨text', hskip⟩ := readString_skip hread
      simp [hskip, Except.map]
    case h_5 =>
      split at h
      · cases h
      obtain ⟨⟨elements, after⟩, hread, h⟩ := exists_of_bind_eq_ok h
      cases h
      rcases exists_nextElement hread with hclosed | ⟨start, hstart⟩
      · simp [next?_of_closed_element hclosed]
      · obtain ⟨rfl, c, inner, hopen, hne⟩ := next?_of_first_element hstart
        have hskip := skipElementsIn_of_readElementsIn steps _ hread hstart behind.skipBlank rfl
        simp only [hopen]
        split <;> simp_all
    case h_6 =>
      split at h
      · cases h
      obtain ⟨⟨entries, after⟩, hread, h⟩ := exists_of_bind_eq_ok h
      cases h
      rcases exists_nextKey hread with hclosed | ⟨key, colon, hkey⟩
      · simp [next?_of_closed_key hclosed]
      · obtain ⟨inner, hquote, hstring⟩ := next?_of_first_key hkey
        have hskip := skipEntriesIn_of_readEntriesIn steps _ hread hkey hquote hstring
          behind.skipBlank (Cursor.skipBlank_skipBlank behind)
        simpa [hquote] using hskip
    case h_7 =>
      split at h
      · rename_i hnumber
        obtain ⟨⟨numeral, after⟩, hread, h⟩ := exists_of_bind_eq_ok h
        obtain ⟨number, -, h⟩ := exists_of_bind_eq_ok h
        cases h
        simp [hnumber, readNumeral_ended hread, Except.map]
      · cases h
    -- The three words.
    all_goals
      obtain ⟨after, hread, h⟩ := exists_of_bind_eq_ok h
      cases h
      exact hread

/-- So are the elements of an array from an element on. -/
theorem skipElementsIn_of_readElementsIn : ∀ (steps room : Nat) {first : Bool} {place : Nat}
    {cursor start last : Cursor} {elements : List Json},
    readElementsIn rounding steps room first place cursor = .ok (elements, last) →
    nextElement first cursor = .ok (.item () start) →
      ∀ other : Cursor, other.skipBlank = start.skipBlank → skipElementsIn steps other = .ok last
  | 0, _, _, _, _, _, _, _, h, _, _, _ => by simp [readElementsIn, fail] at h
  | steps + 1, room, first, place, cursor, start, last, elements, h, hstart, other, hother => by
    simp only [readElementsIn] at h
    obtain ⟨found, hfound, h⟩ := exists_of_bind_eq_ok h
    cases hstart.symm.trans hfound
    obtain ⟨⟨value, behind⟩, hvalue, h⟩ := exists_of_bind_eq_ok h
    obtain ⟨⟨more, after⟩, hmore, h⟩ := exists_of_bind_eq_ok h
    cases h
    have hskip := skipValueIn_of_readValueIn steps room (mapError_eq_ok_iff.mp hvalue) other hother
    rcases exists_nextElement hmore with hclosed | ⟨next, hnext⟩
    · simp [skipElementsIn, hskip, next?_of_closed_element hclosed]
    · obtain ⟨comma, hcomma, rfl⟩ := next?_of_later_element hnext
      have hrest := skipElementsIn_of_readElementsIn steps room hmore hnext comma (by simp)
      simp [skipElementsIn, hskip, hcomma, hrest]

/-- So are the entries of an object from a key on. -/
theorem skipEntriesIn_of_readEntriesIn : ∀ (steps room : Nat) {first : Bool}
    {cursor start behind colon last : Cursor} {key : String} {entries : List (String × Json)},
    readEntriesIn rounding steps room first cursor = .ok (entries, last) →
    nextKey first cursor = .ok (.item key colon) → start.next? = some ('"', behind) →
    readString .keep behind = .ok (key, colon) →
      ∀ other : Cursor, other.skipBlank = start → skipEntriesIn steps other = .ok last
  | 0, _, _, _, _, _, _, _, _, _, h, _, _, _, _, _ => by simp [readEntriesIn, fail] at h
  | steps + 1, room, first, cursor, start, behind, colon, last, key, entries, h, hnext, hquote,
      hkey, other, hother => by
    simp only [readEntriesIn] at h
    obtain ⟨found, hfound, h⟩ := exists_of_bind_eq_ok h
    cases hnext.symm.trans hfound
    obtain ⟨inner, hcolon, h⟩ := exists_of_bind_eq_ok h
    obtain ⟨⟨value, after⟩, hvalue, h⟩ := exists_of_bind_eq_ok h
    obtain ⟨⟨more, final⟩, hmore, h⟩ := exists_of_bind_eq_ok h
    cases h
    obtain ⟨key', hstring⟩ := readString_skip hkey
    have hskip := skipValueIn_of_readValueIn steps room (mapError_eq_ok_iff.mp hvalue) inner rfl
    rcases exists_nextKey hmore with hclosed | ⟨next, place, hlater⟩
    · simp [skipEntriesIn, hother, hquote, hstring, hcolon, hskip, next?_of_closed_key hclosed]
    · obtain ⟨comma, quote, hcomma, hquote', hkey'⟩ := next?_of_later_key hlater
      have hrest := skipEntriesIn_of_readEntriesIn steps room hmore hlater hquote' hkey' comma rfl
      simp [skipEntriesIn, hother, hquote, hstring, hcolon, hskip, hcomma, hrest]

end

/-- Where a value is read, passing over it ends at the same place. -/
theorem skipValue_of_readValue {room : Nat} {cursor last : Cursor} {value : Json}
    (h : readValue rounding room cursor = .ok (value, last)) : skipValue cursor = .ok last :=
  skipValueIn_of_readValueIn cursor.steps room h cursor rfl

end Values

end GraphSchema.Json
