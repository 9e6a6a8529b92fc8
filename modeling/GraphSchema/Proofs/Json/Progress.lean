import Mathlib
import GraphSchema.Json.Reader
import GraphSchema.Proofs.Json.Strings

/-!
# Reading moves on

Every token that is read is taken from the text that is left, so a reader needs no more steps than
twice the characters that are left to it, and with that many the number of steps does not matter
(`readValueIn_eq`, `readEntriesIn_eq`).
-/

namespace GraphSchema.Json

/-! ## White space -/

namespace Cursor

theorem takeWhile_rest (p : Char → Bool) (text : List Char) (place : Position) :
    (takeWhile p text place).2.rest = text.dropWhile p := by
  induction text generalizing place with
  | nil => rfl
  | cons c rest ih =>
    by_cases h : p c
    · simp [takeWhile, h, ih]
    · simp [takeWhile, h]

/-- Nothing more is taken where taking has stopped. -/
theorem takeWhile_takeWhile (p : Char → Bool) (text : List Char) (place : Position) :
    (takeWhile p (takeWhile p text place).2.rest (takeWhile p text place).2.position).2 =
      (takeWhile p text place).2 := by
  induction text generalizing place with
  | nil => rfl
  | cons c rest ih =>
    by_cases h : p c
    · simpa [takeWhile, h] using ih (place.char c)
    · simp [takeWhile, h]

@[simp] theorem skipBlank_skipBlank (cursor : Cursor) :
    cursor.skipBlank.skipBlank = cursor.skipBlank :=
  takeWhile_takeWhile isSeparator cursor.rest cursor.position

theorem length_skipBlank_le (cursor : Cursor) :
    cursor.skipBlank.rest.length ≤ cursor.rest.length := by
  rw [skipBlank, takeWhile_rest]
  exact (List.dropWhile_sublist _).length_le

theorem length_lt_of_next? {cursor behind : Cursor} {c : Char}
    (h : cursor.next? = some (c, behind)) : behind.rest.length < cursor.rest.length := by
  rw [rest_of_next? h]
  simp

/-- The character behind white space. -/
theorem length_lt_of_skipBlank {cursor behind : Cursor} {c : Char}
    (h : cursor.skipBlank.next? = some (c, behind)) : behind.rest.length < cursor.rest.length :=
  Nat.lt_of_lt_of_le (length_lt_of_next? h) cursor.length_skipBlank_le

theorem length_digits_le (cursor : Cursor) :
    cursor.digits.2.rest.length ≤ cursor.rest.length := by
  rw [digits, takeWhile_rest]
  exact (List.dropWhile_sublist _).length_le

end Cursor

/-! ## Scalars -/

theorem length_le_of_readWord {letters : List Char} {cursor last : Cursor}
    (h : readWord letters cursor = .ok last) : last.rest.length ≤ cursor.rest.length := by
  induction letters generalizing cursor with
  | nil =>
    cases h
    exact Nat.le_refl _
  | cons letter letters ih =>
    unfold readWord at h
    split at h
    · cases h
    · rename_i c behind hnext
      split at h
      · have hbehind := Cursor.length_lt_of_next? hnext
        have hlast := ih h
        omega
      · cases h

theorem length_lt_of_readString {cursor last : Cursor} {text : String}
    (h : readString .keep cursor = .ok (text, last)) :
    last.rest.length < cursor.rest.length :=
  (quotation_of_readString h).length_lt

theorem length_lt_of_readWhole {ended : SyntaxFault} {cursor last : Cursor} {whole : List Char}
    (h : readWhole ended cursor = .ok (whole, last)) :
    last.rest.length < cursor.rest.length := by
  unfold readWhole at h
  split at h
  · cases h
  · rename_i c behind hnext
    have hbehind := Cursor.length_lt_of_next? hnext
    split at h
    · split at h
      · split at h
        · cases h
        · cases h
          exact hbehind
      · cases h
        exact hbehind
    · split at h
      · rename_i hdigit
        rw [Except.ok.injEq] at h
        have hlast : last.rest = cursor.rest.dropWhile Char.isDigit := by
          rw [← Cursor.takeWhile_rest Char.isDigit cursor.rest cursor.position, ← Cursor.digits, h]
        have htail : (behind.rest.dropWhile Char.isDigit).length ≤ behind.rest.length :=
          (List.dropWhile_sublist _).length_le
        rw [hlast, Cursor.rest_of_next? hnext]
        simp only [List.dropWhile_cons, hdigit, if_true, List.length_cons]
        omega
      · cases h

theorem length_le_of_readFraction {ended : SyntaxFault} {cursor last : Cursor}
    {fraction : List Char} (h : readFraction ended cursor = .ok (fraction, last)) :
    last.rest.length ≤ cursor.rest.length := by
  unfold readFraction at h
  split at h
  · rename_i behind hnext
    have hbehind := Cursor.length_lt_of_next? hnext
    have hdigits := behind.length_digits_le
    split at h
    · split at h <;> cases h
    · rename_i digits place heq
      cases h
      rw [heq] at hdigits
      exact Nat.le_trans hdigits (Nat.le_of_lt hbehind)
  · cases h
    exact Nat.le_refl _

theorem length_le_of_readPower {ended : SyntaxFault} {cursor last : Cursor}
    {power : Option (Bool × List Char × Position)}
    (h : readPower ended cursor = .ok (power, last)) :
    last.rest.length ≤ cursor.rest.length := by
  unfold readPower at h
  split at h
  · rename_i mark behind hnext
    have hbehind := Cursor.length_lt_of_next? hnext
    split at h
    · split at h
      rename_i negative first hsign
      have hfirst : first.rest.length ≤ behind.rest.length := by
        split at hsign <;> cases hsign
        · exact Nat.le_of_lt (Cursor.length_lt_of_next? ‹_›)
        · exact Nat.le_of_lt (Cursor.length_lt_of_next? ‹_›)
        · exact Nat.le_refl _
      have hdigits := first.length_digits_le
      split at h
      · split at h <;> cases h
      · rename_i digits place heq
        cases h
        rw [heq] at hdigits
        exact Nat.le_trans hdigits (Nat.le_trans hfirst (Nat.le_of_lt hbehind))
    · cases h
      exact Nat.le_refl _
  · cases h
    exact Nat.le_refl _

theorem length_lt_of_readNumeral {ended : SyntaxFault} {cursor last : Cursor} {numeral : Numeral}
    (h : readNumeral ended cursor = .ok (numeral, last)) :
    last.rest.length < cursor.rest.length := by
  unfold readNumeral at h
  split at h
  rename_i negative first hsign
  have hfirst : first.rest.length ≤ cursor.rest.length := by
    split at hsign <;> cases hsign
    · exact Nat.le_of_lt (Cursor.length_lt_of_next? ‹_›)
    · exact Nat.le_refl _
  obtain ⟨⟨whole, afterWhole⟩, hwhole, h⟩ := exists_of_bind_eq_ok h
  obtain ⟨⟨fraction, afterFraction⟩, hfraction, h⟩ := exists_of_bind_eq_ok h
  obtain ⟨⟨power, afterPower⟩, hpower, h⟩ := exists_of_bind_eq_ok h
  cases h
  have hafterWhole := length_lt_of_readWhole hwhole
  have hafterFraction := length_le_of_readFraction hfraction
  have hafterPower := length_le_of_readPower hpower
  omega

/-! ## The steps from part to part -/

/-- What the step to the next element of an array can find. -/
theorem nextElement_eq_ok {first : Bool} {cursor : Cursor} {next : Next Unit}
    (h : nextElement first cursor = .ok next) :
    (∃ last, next = .closed last ∧ cursor.skipBlank.next? = some (']', last)) ∨
    (first = true ∧ next = .item () cursor.skipBlank ∧
      ∃ c behind, cursor.skipBlank.next? = some (c, behind) ∧ c ≠ ']') ∨
    (first = false ∧ ∃ behind, cursor.skipBlank.next? = some (',', behind) ∧
      next = .item () behind.skipBlank) := by
  simp only [nextElement] at h
  split at h
  · cases h
  · rename_i c behind hnext
    split at h
    · rename_i hclose
      cases h
      exact .inl ⟨behind, rfl, hclose ▸ hnext⟩
    · rename_i hopen
      split at h
      · rename_i hfirst
        cases h
        exact .inr (.inl ⟨hfirst, rfl, c, behind, hnext, hopen⟩)
      · rename_i hfirst
        split at h
        · rename_i hcomma
          split at h
          · cases h
          · cases h
          · cases h
            exact .inr (.inr ⟨by simpa using hfirst, behind, hcomma ▸ hnext, rfl⟩)
        · cases h

/-- What the step to the next key of an object can find. -/
theorem nextKey_eq_ok {first : Bool} {cursor : Cursor} {next : Next String}
    (h : nextKey first cursor = .ok next) :
    (∃ last, next = .closed last ∧ cursor.skipBlank.next? = some ('\x7d', last)) ∨
    (∃ start behind key last, next = .item key last ∧ start.next? = some ('"', behind) ∧
      readString .keep behind = .ok (key, last) ∧
      (first = true ∧ start = cursor.skipBlank ∨
        first = false ∧ ∃ comma, cursor.skipBlank.next? = some (',', comma) ∧
          start = comma.skipBlank)) := by
  replace h := mapError_eq_ok_iff.mp h
  cases first with
  | true =>
    simp only [if_true] at h
    split at h
    · cases h
    · rename_i c behind hnext
      split at h
      · rename_i hclose
        cases h
        exact .inl ⟨behind, rfl, hclose ▸ hnext⟩
      · split at h
        · rename_i behind hquote
          obtain ⟨⟨key, last⟩, hkey, h⟩ := exists_of_bind_eq_ok h
          cases h
          exact .inr ⟨_, behind, key, last, rfl, hquote, hkey, .inl ⟨rfl, rfl⟩⟩
        · cases h
  | false =>
    simp only [Bool.false_eq_true, if_false] at h
    split at h
    · cases h
    · rename_i c behind hnext
      split at h
      · rename_i hclose
        cases h
        exact .inl ⟨behind, rfl, hclose ▸ hnext⟩
      · split at h
        · rename_i hcomma
          split at h
          · cases h
          · cases h
          · split at h
            · rename_i behind hquote
              obtain ⟨⟨key, last⟩, hkey, h⟩ := exists_of_bind_eq_ok h
              cases h
              exact .inr ⟨_, behind, key, last, rfl, hquote, hkey,
                .inr ⟨rfl, _, hcomma ▸ hnext, rfl⟩⟩
            · cases h
        · cases h

theorem next?_of_closed_element {first : Bool} {cursor last : Cursor}
    (h : nextElement first cursor = .ok (.closed last)) :
    cursor.skipBlank.next? = some (']', last) := by
  rcases nextElement_eq_ok h with ⟨last, heq, hclose⟩ | ⟨-, heq, -⟩ | ⟨-, behind, -, heq⟩
  · cases heq
    exact hclose
  · cases heq
  · cases heq

theorem next?_of_first_element {cursor start : Cursor}
    (h : nextElement true cursor = .ok (.item () start)) :
    start = cursor.skipBlank ∧ ∃ c behind, cursor.skipBlank.next? = some (c, behind) ∧ c ≠ ']' := by
  rcases nextElement_eq_ok h with ⟨last, heq, -⟩ | ⟨-, heq, hopen⟩ | ⟨hfirst, -⟩
  · cases heq
  · cases heq
    exact ⟨rfl, hopen⟩
  · cases hfirst

theorem next?_of_later_element {cursor start : Cursor}
    (h : nextElement false cursor = .ok (.item () start)) :
    ∃ comma, cursor.skipBlank.next? = some (',', comma) ∧ start = comma.skipBlank := by
  rcases nextElement_eq_ok h with ⟨last, heq, -⟩ | ⟨hfirst, -⟩ | ⟨-, comma, hcomma, heq⟩
  · cases heq
  · cases hfirst
  · cases heq
    exact ⟨comma, hcomma, rfl⟩

theorem next?_of_closed_key {first : Bool} {cursor last : Cursor}
    (h : nextKey first cursor = .ok (.closed last)) :
    cursor.skipBlank.next? = some ('\x7d', last) := by
  rcases nextKey_eq_ok h with ⟨last, heq, hclose⟩ | ⟨start, behind, key, last, heq, -⟩
  · cases heq
    exact hclose
  · cases heq

theorem next?_of_first_key {cursor last : Cursor} {key : String}
    (h : nextKey true cursor = .ok (.item key last)) :
    ∃ behind, cursor.skipBlank.next? = some ('"', behind) ∧
      readString .keep behind = .ok (key, last) := by
  rcases nextKey_eq_ok h with ⟨last, heq, -⟩ | ⟨start, behind, key, last, heq, hquote, hkey, hstart⟩
  · cases heq
  · cases heq
    rcases hstart with ⟨-, rfl⟩ | ⟨hfirst, -⟩
    · exact ⟨behind, hquote, hkey⟩
    · cases hfirst

theorem next?_of_later_key {cursor last : Cursor} {key : String}
    (h : nextKey false cursor = .ok (.item key last)) :
    ∃ comma behind, cursor.skipBlank.next? = some (',', comma) ∧
      comma.skipBlank.next? = some ('"', behind) ∧ readString .keep behind = .ok (key, last) := by
  rcases nextKey_eq_ok h with ⟨last, heq, -⟩ | ⟨start, behind, key, last, heq, hquote, hkey, hstart⟩
  · cases heq
  · cases heq
    rcases hstart with ⟨hfirst, -⟩ | ⟨-, comma, hcomma, rfl⟩
    · cases hfirst
    · exact ⟨comma, behind, hcomma, hquote, hkey⟩

theorem length_le_of_nextElement {first : Bool} {cursor start : Cursor}
    (h : nextElement first cursor = .ok (.item () start)) :
    start.rest.length ≤ cursor.rest.length := by
  cases first with
  | true =>
    obtain ⟨rfl, -⟩ := next?_of_first_element h
    exact cursor.length_skipBlank_le
  | false =>
    obtain ⟨comma, hcomma, rfl⟩ := next?_of_later_element h
    have hbehind := Cursor.length_lt_of_skipBlank hcomma
    have hstart := comma.length_skipBlank_le
    omega

theorem length_lt_of_nextKey {first : Bool} {cursor last : Cursor} {key : String}
    (h : nextKey first cursor = .ok (.item key last)) :
    last.rest.length < cursor.rest.length := by
  cases first with
  | true =>
    obtain ⟨behind, hquote, hkey⟩ := next?_of_first_key h
    exact (length_lt_of_readString hkey).trans (Cursor.length_lt_of_skipBlank hquote)
  | false =>
    obtain ⟨comma, behind, hcomma, hquote, hkey⟩ := next?_of_later_key h
    have hlast := length_lt_of_readString hkey
    have hbehind := Cursor.length_lt_of_skipBlank hquote
    have hstart := Cursor.length_lt_of_skipBlank hcomma
    omega

theorem length_lt_of_readColon {cursor last : Cursor} (h : readColon cursor = .ok last) :
    last.rest.length < cursor.rest.length := by
  simp only [readColon] at h
  split at h
  · cases h
  · rename_i hcolon
    cases h
    exact Cursor.length_lt_of_skipBlank hcolon
  · cases h

/-! ## Values -/

section Values

variable {rounding : Rounding}

mutual

theorem length_lt_of_readValueIn : ∀ (steps room : Nat) {cursor last : Cursor} {value : Json},
    readValueIn rounding steps room cursor = .ok (value, last) →
      last.rest.length < cursor.rest.length
  | 0, _, _, _, _, h => by simp [readValueIn, fail] at h
  | steps + 1, room, cursor, last, value, h => by
    simp only [readValueIn] at h
    split at h
    · cases h
    rename_i c behind hnext
    have hbehind := Cursor.length_lt_of_skipBlank hnext
    split at h
    case h_4 =>
      obtain ⟨⟨text, after⟩, hread, h⟩ := exists_of_bind_eq_ok h
      cases h
      exact (length_lt_of_readString hread).trans hbehind
    case h_5 =>
      split at h
      · cases h
      · obtain ⟨⟨elements, after⟩, hread, h⟩ := exists_of_bind_eq_ok h
        cases h
        exact (length_lt_of_readElementsIn steps _ hread).trans hbehind
    case h_6 =>
      split at h
      · cases h
      · obtain ⟨⟨entries, after⟩, hread, h⟩ := exists_of_bind_eq_ok h
        cases h
        exact (length_lt_of_readEntriesIn steps _ hread).trans hbehind
    case h_7 =>
      split at h
      · obtain ⟨⟨numeral, after⟩, hread, h⟩ := exists_of_bind_eq_ok h
        obtain ⟨number, -, h⟩ := exists_of_bind_eq_ok h
        cases h
        exact (length_lt_of_readNumeral hread).trans_le cursor.length_skipBlank_le
      · cases h
    -- The three words.
    all_goals
      obtain ⟨after, hread, h⟩ := exists_of_bind_eq_ok h
      cases h
      exact (length_le_of_readWord hread).trans_lt hbehind

theorem length_lt_of_readElementsIn : ∀ (steps room : Nat) {first : Bool} {place : Nat}
    {cursor last : Cursor} {elements : List Json},
    readElementsIn rounding steps room first place cursor = .ok (elements, last) →
      last.rest.length < cursor.rest.length
  | 0, _, _, _, _, _, _, h => by simp [readElementsIn, fail] at h
  | steps + 1, room, first, place, cursor, last, elements, h => by
    simp only [readElementsIn] at h
    obtain ⟨next, hnext, h⟩ := exists_of_bind_eq_ok h
    cases next with
    | closed behind =>
      cases h
      exact Cursor.length_lt_of_skipBlank (next?_of_closed_element hnext)
    | item _ start =>
      obtain ⟨⟨value, behind⟩, hvalue, h⟩ := exists_of_bind_eq_ok h
      obtain ⟨⟨more, after⟩, hmore, h⟩ := exists_of_bind_eq_ok h
      cases h
      have hstart := length_le_of_nextElement hnext
      have hbehind := length_lt_of_readValueIn steps room (mapError_eq_ok_iff.mp hvalue)
      have hlast := length_lt_of_readElementsIn steps room hmore
      exact hlast.trans (hbehind.trans_le hstart)

theorem length_lt_of_readEntriesIn : ∀ (steps room : Nat) {first : Bool} {cursor last : Cursor}
    {entries : List (String × Json)},
    readEntriesIn rounding steps room first cursor = .ok (entries, last) →
      last.rest.length < cursor.rest.length
  | 0, _, _, _, _, _, h => by simp [readEntriesIn, fail] at h
  | steps + 1, room, first, cursor, last, entries, h => by
    simp only [readEntriesIn] at h
    obtain ⟨next, hnext, h⟩ := exists_of_bind_eq_ok h
    cases next with
    | closed behind =>
      cases h
      exact Cursor.length_lt_of_skipBlank (next?_of_closed_key hnext)
    | item key colon =>
      obtain ⟨start, hcolon, h⟩ := exists_of_bind_eq_ok h
      obtain ⟨⟨value, behind⟩, hvalue, h⟩ := exists_of_bind_eq_ok h
      obtain ⟨⟨more, after⟩, hmore, h⟩ := exists_of_bind_eq_ok h
      cases h
      have hkey := length_lt_of_nextKey hnext
      have hstart := length_lt_of_readColon hcolon
      have hbehind := length_lt_of_readValueIn steps room (mapError_eq_ok_iff.mp hvalue)
      have hlast := length_lt_of_readEntriesIn steps room hmore
      exact hlast.trans (hbehind.trans (hstart.trans hkey))

end

mutual

/-- With enough steps their number does not matter. -/
theorem readValueIn_eq : ∀ (steps steps' room : Nat) (cursor : Cursor),
    2 * cursor.rest.length + 1 ≤ steps → 2 * cursor.rest.length + 1 ≤ steps' →
      readValueIn rounding steps room cursor = readValueIn rounding steps' room cursor
  | 0, _, _, _, hsteps, _ => absurd hsteps (Nat.not_succ_le_zero _)
  | _ + 1, 0, _, _, _, hsteps' => absurd hsteps' (Nat.not_succ_le_zero _)
  | steps + 1, steps' + 1, room, cursor, hsteps, hsteps' => by
    simp only [readValueIn]
    split
    · rfl
    rename_i c behind hnext
    have hbehind := Cursor.length_lt_of_skipBlank hnext
    split
    case h_5 =>
      rw [readElementsIn_eq steps steps' _ true 0 behind (by omega) (by omega)]
    case h_6 =>
      rw [readEntriesIn_eq steps steps' _ true behind (by omega) (by omega)]
    all_goals rfl

theorem readElementsIn_eq : ∀ (steps steps' room : Nat) (first : Bool) (place : Nat)
    (cursor : Cursor), 2 * cursor.rest.length + 2 ≤ steps → 2 * cursor.rest.length + 2 ≤ steps' →
      readElementsIn rounding steps room first place cursor =
        readElementsIn rounding steps' room first place cursor
  | 0, _, _, _, _, _, hsteps, _ => absurd hsteps (Nat.not_succ_le_zero _)
  | _ + 1, 0, _, _, _, _, _, hsteps' => absurd hsteps' (Nat.not_succ_le_zero _)
  | steps + 1, steps' + 1, room, first, place, cursor, hsteps, hsteps' => by
    simp only [readElementsIn]
    refine bind_congr_ok fun next hnext => ?_
    cases next with
    | closed behind => rfl
    | item _ start =>
      have hstart := length_le_of_nextElement hnext
      dsimp only
      rw [readValueIn_eq steps steps' room start (by omega) (by omega)]
      refine bind_congr_ok fun found hfound => ?_
      have hbehind := length_lt_of_readValueIn steps' room (mapError_eq_ok_iff.mp hfound)
      rw [readElementsIn_eq steps steps' room false (place + 1) found.2 (by omega) (by omega)]

theorem readEntriesIn_eq : ∀ (steps steps' room : Nat) (first : Bool) (cursor : Cursor),
    2 * cursor.rest.length + 2 ≤ steps → 2 * cursor.rest.length + 2 ≤ steps' →
      readEntriesIn rounding steps room first cursor =
        readEntriesIn rounding steps' room first cursor
  | 0, _, _, _, _, hsteps, _ => absurd hsteps (Nat.not_succ_le_zero _)
  | _ + 1, 0, _, _, _, _, hsteps' => absurd hsteps' (Nat.not_succ_le_zero _)
  | steps + 1, steps' + 1, room, first, cursor, hsteps, hsteps' => by
    simp only [readEntriesIn]
    refine bind_congr_ok fun next hnext => ?_
    cases next with
    | closed behind => rfl
    | item key colon =>
      have hkey := length_lt_of_nextKey hnext
      refine bind_congr_ok fun start hcolon => ?_
      have hstart := length_lt_of_readColon hcolon
      rw [readValueIn_eq steps steps' room start (by omega) (by omega)]
      refine bind_congr_ok fun found hfound => ?_
      have hbehind := length_lt_of_readValueIn steps' room (mapError_eq_ok_iff.mp hfound)
      rw [readEntriesIn_eq steps steps' room false found.2 (by omega) (by omega)]

end

end Values

end GraphSchema.Json
