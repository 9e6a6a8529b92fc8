import GraphSchema.Proofs.Json.Progress

/-!
# Values and their parts, complaints aside

`valueAt?`, `elementsAt?` and `entriesAt?` are what the readers of values, elements and entries
return, without the complaints and without a number of steps.  An array or object is what its
parts are (`valueAt?_bracket`, `valueAt?_brace`), and these are read from one to the next
(`elementsAt?_item`, `entriesAt?_item`).
-/

namespace GraphSchema.Json

section Parts

variable (rounding : Rounding)

/-- The value that the text begins with. -/
def valueAt? (room : Nat) (cursor : Cursor) : Option (Json × Cursor) :=
  (readValue rounding room cursor).toOption

/-- The elements of an array from the one at `place` on. -/
def elementsAt? (room : Nat) (first : Bool) (place : Nat) (cursor : Cursor) :
    Option (List Json × Cursor) :=
  (readElementsIn rounding cursor.steps room first place cursor).toOption

/-- The entries of an object. -/
def entriesAt? (room : Nat) (first : Bool) (cursor : Cursor) :
    Option (List (String × Json) × Cursor) :=
  (readEntriesIn rounding cursor.steps room first cursor).toOption

variable {rounding} {room place steps : Nat} {first : Bool} {cursor behind start : Cursor}

theorem toOption_readValueIn (h : 2 * cursor.rest.length + 1 ≤ steps) :
    (readValueIn rounding steps room cursor).toOption = valueAt? rounding room cursor := by
  rw [valueAt?, readValue, readValueIn_eq steps cursor.steps room cursor h (by simp [Cursor.steps])]

theorem toOption_readElementsIn (h : 2 * cursor.rest.length + 2 ≤ steps) :
    (readElementsIn rounding steps room first place cursor).toOption =
      elementsAt? rounding room first place cursor := by
  rw [elementsAt?, readElementsIn_eq steps cursor.steps room first place cursor h (Nat.le_refl _)]

theorem toOption_readEntriesIn (h : 2 * cursor.rest.length + 2 ≤ steps) :
    (readEntriesIn rounding steps room first cursor).toOption =
      entriesAt? rounding room first cursor := by
  rw [entriesAt?, readEntriesIn_eq steps cursor.steps room first cursor h (Nat.le_refl _)]

/-! ## Progress -/

theorem length_lt_of_valueAt? {value : Json}
    (h : valueAt? rounding room cursor = some (value, behind)) :
    behind.rest.length < cursor.rest.length :=
  length_lt_of_readValueIn _ _ (toOption_eq_some_iff.mp h)

/-! ## Elements -/

theorem elementsAt?_closed (h : nextElement first cursor = .ok (.closed behind)) :
    elementsAt? rounding room first place cursor = some ([], behind) := by
  simp [elementsAt?, Cursor.steps, readElementsIn, h]

theorem elementsAt?_error {fault : ReadFault} (h : nextElement first cursor = .error fault) :
    elementsAt? rounding room first place cursor = none := by
  simp [elementsAt?, Cursor.steps, readElementsIn, h]

theorem elementsAt?_item (h : nextElement first cursor = .ok (.item () start)) :
    elementsAt? rounding room first place cursor =
      (valueAt? rounding room start).bind fun found =>
        (elementsAt? rounding room false (place + 1) found.2).map fun more =>
          (found.1 :: more.1, more.2) := by
  have hstart := length_le_of_nextElement h
  rw [elementsAt?, Cursor.steps, readElementsIn]
  simp only [h, toOption_bind, toOption_ok, Option.bind_some, toOption_mapError]
  rw [toOption_readValueIn (by omega)]
  refine Option.bind_congr fun found hfound => ?_
  have hbehind := length_lt_of_valueAt? hfound
  rw [toOption_readElementsIn (by omega), Option.map_eq_bind]
  rfl

/-! ## Entries -/

theorem entriesAt?_closed (h : nextKey first cursor = .ok (.closed behind)) :
    entriesAt? rounding room first cursor = some ([], behind) := by
  simp [entriesAt?, Cursor.steps, readEntriesIn, h]

theorem entriesAt?_error {fault : ReadFault} (h : nextKey first cursor = .error fault) :
    entriesAt? rounding room first cursor = none := by
  simp [entriesAt?, Cursor.steps, readEntriesIn, h]

theorem entriesAt?_item {key : String} (h : nextKey first cursor = .ok (.item key behind)) :
    entriesAt? rounding room first cursor =
      (readColon behind).toOption.bind fun start =>
        (valueAt? rounding room start).bind fun found =>
          (entriesAt? rounding room false found.2).map fun more =>
            ((key, found.1) :: more.1, more.2) := by
  have hkey := length_lt_of_nextKey h
  rw [entriesAt?, Cursor.steps, readEntriesIn]
  simp only [h, toOption_bind, toOption_ok, Option.bind_some, toOption_mapError]
  refine Option.bind_congr fun start hcolon => ?_
  have hstart := length_lt_of_readColon (toOption_eq_some_iff.mp hcolon)
  rw [toOption_readValueIn (by omega)]
  refine Option.bind_congr fun found hfound => ?_
  have hbehind := length_lt_of_valueAt? hfound
  rw [toOption_readEntriesIn (by omega), Option.map_eq_bind]
  rfl

/-! ## Values -/

theorem valueAt?_bracket (h : cursor.skipBlank.next? = some ('[', behind)) :
    valueAt? rounding (room + 1) cursor =
      (elementsAt? rounding room true 0 behind).map fun found => (.array found.1, found.2) := by
  have hbehind := Cursor.length_lt_of_skipBlank h
  rw [valueAt?, readValue, Cursor.steps, readValueIn]
  simp only [h, Nat.succ_ne_zero, if_false, Nat.add_sub_cancel, toOption_bind]
  rw [toOption_readElementsIn (by omega), Option.map_eq_bind]
  rfl

theorem valueAt?_brace (h : cursor.skipBlank.next? = some ('\x7b', behind)) :
    valueAt? rounding (room + 1) cursor =
      (entriesAt? rounding room true behind).map fun found => (.object found.1, found.2) := by
  have hbehind := Cursor.length_lt_of_skipBlank h
  rw [valueAt?, readValue, Cursor.steps, readValueIn]
  simp only [h, Nat.succ_ne_zero, if_false, Nat.add_sub_cancel, toOption_bind]
  rw [toOption_readEntriesIn (by omega), Option.map_eq_bind]
  rfl

/-- No array or object is entered where no bracket may be opened. -/
theorem valueAt?_zero {c : Char} (h : cursor.skipBlank.next? = some (c, behind))
    (hc : c = '[' ∨ c = '\x7b') : valueAt? rounding 0 cursor = none := by
  rw [valueAt?, readValue, Cursor.steps, readValueIn]
  rcases hc with rfl | rfl <;> simp [h, fail]

theorem valueAt?_quote (h : cursor.skipBlank.next? = some ('"', behind)) :
    valueAt? rounding room cursor =
      (readString .keep behind).toOption.map fun found => (.string found.1, found.2) := by
  rw [valueAt?, readValue, Cursor.steps, readValueIn]
  simp only [h, toOption_bind]
  rw [Option.map_eq_bind]
  rfl

/-- What does not begin with a quote is no string, and what does not begin with a bracket has no
parts. -/
theorem shape_of_valueAt? {value : Json}
    (h : valueAt? rounding room cursor = some (value, behind)) :
    ∃ c inner, cursor.skipBlank.next? = some (c, inner) ∧
      (c ≠ '"' → ∀ text, value ≠ .string text) ∧ (c ≠ '[' → ∀ elements, value ≠ .array elements) ∧
      (c ≠ '\x7b' → ∀ entries, value ≠ .object entries) := by
  have hread := toOption_eq_some_iff.mp h
  rw [readValue, Cursor.steps, readValueIn] at hread
  dsimp only at hread
  split at hread
  · cases hread
  rename_i c inner hnext
  refine ⟨c, inner, hnext, ?_⟩
  split at hread
  case h_4 =>
    obtain ⟨⟨text, after⟩, -, hread⟩ := exists_of_bind_eq_ok hread
    cases hread
    simp
  case h_5 =>
    split at hread
    · cases hread
    obtain ⟨⟨elements, after⟩, -, hread⟩ := exists_of_bind_eq_ok hread
    cases hread
    simp
  case h_6 =>
    split at hread
    · cases hread
    obtain ⟨⟨entries, after⟩, -, hread⟩ := exists_of_bind_eq_ok hread
    cases hread
    simp
  case h_7 =>
    split at hread
    · obtain ⟨⟨numeral, after⟩, -, hread⟩ := exists_of_bind_eq_ok hread
      obtain ⟨number, -, hread⟩ := exists_of_bind_eq_ok hread
      cases hread
      simp
    · cases hread
  -- The three words.
  all_goals
    obtain ⟨after, -, hread⟩ := exists_of_bind_eq_ok hread
    cases hread
    simp

theorem exists_quote_of_valueAt? {text : String}
    (h : valueAt? rounding room cursor = some (.string text, behind)) :
    ∃ inner, cursor.skipBlank.next? = some ('"', inner) := by
  obtain ⟨c, inner, hnext, hstring, -, -⟩ := shape_of_valueAt? h
  by_cases hc : c = '"'
  · exact ⟨inner, hc ▸ hnext⟩
  · exact absurd rfl (hstring hc text)

theorem exists_bracket_of_valueAt? {elements : List Json}
    (h : valueAt? rounding room cursor = some (.array elements, behind)) :
    ∃ inner, cursor.skipBlank.next? = some ('[', inner) := by
  obtain ⟨c, inner, hnext, -, harray, -⟩ := shape_of_valueAt? h
  by_cases hc : c = '['
  · exact ⟨inner, hc ▸ hnext⟩
  · exact absurd rfl (harray hc elements)

theorem exists_brace_of_valueAt? {entries : List (String × Json)}
    (h : valueAt? rounding room cursor = some (.object entries, behind)) :
    ∃ inner, cursor.skipBlank.next? = some ('\x7b', inner) := by
  obtain ⟨c, inner, hnext, -, -, hobject⟩ := shape_of_valueAt? h
  by_cases hc : c = '\x7b'
  · exact ⟨inner, hc ▸ hnext⟩
  · exact absurd rfl (hobject hc entries)

end Parts

end GraphSchema.Json
