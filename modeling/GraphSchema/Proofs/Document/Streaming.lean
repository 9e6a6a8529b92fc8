import GraphSchema.Document.OfText
import GraphSchema.Proofs.Document.Repeats
import GraphSchema.Proofs.Json.Parts
import GraphSchema.Proofs.Json.Skipping

/-!
# Definitions read from a text

A definition is read from a text entry by entry, and so are the definitions of a document.
Complaints aside, that is the same as reading the value of the text first and looking at the value
afterwards (`definitionAt?_eq`, `toOption_readTypes`).
-/

namespace GraphSchema

open Json (Cursor valueAt? elementsAt? entriesAt?)

/-! ## Complaints -/

@[simp] theorem toOption_fail {α : Type} (fault : Json.SyntaxFault) (place : Json.Position) :
    (Json.fail fault place : Except Json.ReadFault α).toOption = none := rfl

@[simp] theorem toOption_mismatchAt {α : Type} (mismatch : Mismatch) (place : Json.Position) :
    (mismatchAt mismatch place : Except LoadFault α).toOption = none := rfl

@[simp] theorem toOption_lexical {α : Type} (reading : Except Json.ReadFault α) :
    (lexical reading).toOption = reading.toOption :=
  toOption_mapError _ _

@[simp] theorem toOption_refuse {α : Type} (wanted : Wanted) (cursor : Cursor) :
    (refuse wanted cursor : Except LoadFault α).toOption = none := by
  unfold refuse
  split
  · rfl
  · rfl
  · simp

/-! ## Tags -/

theorem toOption_readTag (room : Nat) (cursor : Cursor) :
    (readTag cursor).toOption = (valueAt? .stepwise room cursor).bind fun found =>
      found.1.toKind.toOption.map fun kind => (kind, found.2) := by
  unfold readTag
  dsimp only
  split
  · rename_i behind hquote
    have hstart : cursor.skipBlank.skipBlank.next? = some ('"', behind) := by
      rw [Cursor.skipBlank_skipBlank, hquote]
    rw [toOption_bind, toOption_lexical, ← valueAt?, Json.valueAt?_quote hstart,
      Json.valueAt?_quote hquote]
    cases Json.readString .keep behind with
    | error fault => rfl
    | ok found =>
      simp only [toOption_ok, Option.map_some, Option.bind_some]
      split
      · simp [*]
      · simp [*]
  · rename_i hother
    rw [toOption_refuse]
    refine (Option.bind_eq_none_iff.mpr ?_).symm
    rintro ⟨value, behind⟩ hvalue
    cases value with
    | string text =>
      obtain ⟨inner, hquote⟩ := Json.exists_quote_of_valueAt? hvalue
      exact (hother inner hquote).elim
    | _ => rfl

/-! ## The entries of a definition -/

theorem toOption_readTagged (room : Nat) : ∀ (steps : Nat) (first : Bool) (tag : Option Kind)
    (cursor : Cursor), cursor.rest.length < steps →
      (readTagged room steps first tag cursor).toOption =
        (entriesAt? .stepwise room first cursor).bind fun raw =>
          (taggedFrom? tag raw.1).map fun found => (found.1, found.2, raw.2)
  | 0, _, _, _, hsteps => absurd hsteps (Nat.not_lt_zero _)
  | steps + 1, first, tag, cursor, hsteps => by
    rw [readTagged, toOption_bind, toOption_lexical]
    cases hnext : Json.nextKey first cursor with
    | error fault => simp [Json.entriesAt?_error hnext]
    | ok next =>
      cases next with
      | closed behind => simp [Json.entriesAt?_closed hnext, taggedFrom?, Fields.takeOnce?]
      | item key colon =>
        have hkey := Json.length_lt_of_nextKey hnext
        rw [Json.entriesAt?_item hnext]
        simp only [toOption_ok, Option.bind_some, Option.bind_assoc]
        by_cases htag : key = tagKey
        · cases tag with
          | some kind => simp [htag, Option.bind_map, taggedFrom?, Fields.takeOnce?]
          | none =>
            simp only [htag, if_true, Option.isSome_none, Bool.false_eq_true, if_false,
              toOption_bind, toOption_lexical, toOption_mapError]
            refine Option.bind_congr fun start hcolon => ?_
            have hstart := Json.length_lt_of_readColon (toOption_eq_some_iff.mp hcolon)
            rw [toOption_readTag room, Option.bind_assoc]
            refine Option.bind_congr fun found hfound => ?_
            have hbehind := Json.length_lt_of_valueAt? hfound
            cases hkind : found.1.toKind with
            | error mismatch => simp [Option.bind_map, taggedFrom?, Fields.takeOnce?, hkind]
            | ok kind =>
              simp only [toOption_ok, Option.map_some, Option.bind_some]
              rw [toOption_readTagged room steps false (some kind) found.2 (by omega)]
              simp [Option.bind_map, taggedFrom?, Fields.takeOnce?, hkind]
        · simp only [htag, if_false, toOption_bind, toOption_lexical, toOption_mapError]
          refine Option.bind_congr fun start hcolon => ?_
          have hstart := Json.length_lt_of_readColon (toOption_eq_some_iff.mp hcolon)
          refine Option.bind_congr fun found hfound => ?_
          have hbehind := Json.length_lt_of_valueAt? hfound
          rw [toOption_readTagged room steps false tag found.2 (by omega)]
          simp [taggedFrom?, Fields.takeOnce?, htag, Option.map_eq_bind, Option.bind_assoc]

/-! ## Definitions -/

/-- A definition that is read entry by entry, and examined where it ends. -/
def definitionAt? (room : Nat) (cursor : Cursor) : Option (Definition String × Cursor) :=
  (readDefinition room cursor).toOption.bind fun read =>
    (read.1.readContent read.2.1).toOption.map fun definition => (definition, read.2.2)

theorem definitionAt?_brace {room : Nat} {cursor behind : Cursor}
    (h : cursor.skipBlank.next? = some ('\x7b', behind)) :
    definitionAt? (room + 1) cursor = (entriesAt? .stepwise room true behind).bind fun raw =>
      (definitionOf? (.object raw.1)).map fun definition => (definition, raw.2) := by
  have hbehind := Json.Cursor.length_lt_of_next? h
  have htagged := toOption_readTagged room cursor.skipBlank.steps true none behind
    (by simp only [Cursor.steps]; omega)
  rw [definitionAt?, readDefinition]
  simp only [h, Nat.succ_ne_zero, if_false, Nat.add_sub_cancel, toOption_bind, htagged,
    Option.bind_assoc, Option.bind_map]
  refine Option.bind_congr fun raw _ => ?_
  simp only [Function.comp_apply, definitionOf?]
  cases taggedFrom? none raw.1 with
  | none => rfl
  | some found =>
    obtain ⟨tag, entries⟩ := found
    cases tag <;> rfl

theorem definitionAt?_bracket {room : Nat} {cursor behind : Cursor}
    (h : cursor.skipBlank.next? = some ('[', behind)) :
    definitionAt? (room + 1) cursor = (elementsAt? .stepwise room true 0 behind).bind fun raw =>
      (definitionOf? (.array raw.1)).map fun definition => (definition, raw.2) := by
  have hbehind := Json.Cursor.length_lt_of_next? h
  rw [definitionAt?, readDefinition]
  simp only [h, Nat.succ_ne_zero, if_false, Nat.add_sub_cancel, toOption_bind, toOption_lexical]
  cases hnext : Json.nextElement true behind with
  | error fault => simp [Json.elementsAt?_error hnext]
  | ok next =>
    cases next with
    | closed last => simp [Json.elementsAt?_closed hnext, definitionOf?]
    | item _ start =>
      have hstart := Json.length_le_of_nextElement hnext
      rw [Json.elementsAt?_item hnext]
      simp only [toOption_ok, Option.bind_some, toOption_bind, toOption_mapError,
        toOption_lexical, Option.bind_assoc]
      rw [toOption_readTag room, Option.bind_assoc]
      refine Option.bind_congr fun found hfound => ?_
      have hafter := Json.length_lt_of_valueAt? hfound
      rw [Option.bind_map, Option.bind_map]
      cases hkind : found.1.toKind with
      | error mismatch => simp [definitionOf?, hkind]
      | ok kind =>
        have hmore : (Json.readElementsIn .stepwise cursor.skipBlank.steps room false 1
            found.2).toOption = elementsAt? .stepwise room false (0 + 1) found.2 :=
          Json.toOption_readElementsIn (by simp only [Cursor.steps]; omega)
        simp [definitionOf?, hkind, hmore]

/-- Reading a definition and examining it is reading its value and looking at that. -/
theorem definitionAt?_eq (room : Nat) (cursor : Cursor) :
    definitionAt? room cursor = (valueAt? .stepwise room cursor).bind fun found =>
      (definitionOf? found.1).map fun definition => (definition, found.2) := by
  by_cases hbrace : ∃ behind, cursor.skipBlank.next? = some ('\x7b', behind)
  · obtain ⟨behind, hbrace⟩ := hbrace
    cases room with
    | zero => simp [Json.valueAt?_zero hbrace (.inr rfl), definitionAt?, readDefinition, hbrace]
    | succ room => rw [definitionAt?_brace hbrace, Json.valueAt?_brace hbrace, Option.bind_map]; rfl
  by_cases hbracket : ∃ behind, cursor.skipBlank.next? = some ('[', behind)
  · obtain ⟨behind, hbracket⟩ := hbracket
    cases room with
    | zero => simp [Json.valueAt?_zero hbracket (.inl rfl), definitionAt?, readDefinition, hbracket]
    | succ room =>
      rw [definitionAt?_bracket hbracket, Json.valueAt?_bracket hbracket, Option.bind_map]
      rfl
  · have hrefused : definitionAt? room cursor = none := by
      unfold definitionAt? readDefinition
      dsimp only
      split
      · exact absurd ⟨_, by assumption⟩ hbrace
      · exact absurd ⟨_, by assumption⟩ hbracket
      · rw [toOption_refuse]
        rfl
    rw [hrefused]
    refine (Option.bind_eq_none_iff.mpr ?_).symm
    rintro ⟨value, behind⟩ hvalue
    cases value with
    | array elements => exact absurd (Json.exists_bracket_of_valueAt? hvalue) hbracket
    | object entries => exact absurd (Json.exists_brace_of_valueAt? hvalue) hbrace
    | _ => rfl

/-! ## The definitions of a document -/

theorem toOption_readTypesFrom (room : Nat) : ∀ (steps : Nat) (first : Bool) (cursor : Cursor),
    cursor.rest.length < steps →
      (readTypesFrom room steps first cursor).toOption =
        (entriesAt? .stepwise room first cursor).bind fun raw =>
          (raw.1.mapM namedDefinition?).map fun types => (types, raw.2)
  | 0, _, _, hsteps => absurd hsteps (Nat.not_lt_zero _)
  | steps + 1, first, cursor, hsteps => by
    rw [readTypesFrom, toOption_bind, toOption_lexical]
    cases hnext : Json.nextKey first cursor with
    | error fault => simp [Json.entriesAt?_error hnext]
    | ok next =>
      cases next with
      | closed behind => simp [Json.entriesAt?_closed hnext]
      | item id colon =>
        have hkey := Json.length_lt_of_nextKey hnext
        rw [Json.entriesAt?_item hnext]
        simp only [toOption_ok, Option.bind_some, toOption_bind, toOption_lexical,
          toOption_mapError, Option.bind_assoc]
        refine Option.bind_congr fun start hcolon => ?_
        have hstart := Json.length_lt_of_readColon (toOption_eq_some_iff.mp hcolon)
        -- A definition is examined before the ones behind it are read.
        trans (definitionAt? room start).bind fun read =>
          (readTypesFrom room steps false read.2).toOption.map fun more =>
            ((id, read.1) :: more.1, more.2)
        · rw [definitionAt?, Option.bind_assoc]
          refine Option.bind_congr fun read _ => ?_
          cases read.1.readContent read.2.1 with
          | error mismatch => rfl
          | ok definition => simp [Option.map_eq_bind]
        · rw [definitionAt?_eq, Option.bind_assoc]
          refine Option.bind_congr fun found hfound => ?_
          have hbehind := Json.length_lt_of_valueAt? hfound
          rw [Option.bind_map, Option.bind_map]
          simp only [Function.comp_def, List.mapM_cons]
          cases hdefinition : definitionOf? found.1 with
          | none => simp [namedDefinition?, hdefinition]
          | some definition =>
            simp only [Option.bind_some]
            rw [toOption_readTypesFrom room steps false found.2 (by omega)]
            simp [namedDefinition?, hdefinition, Option.map_eq_bind, Option.bind_assoc]

/-- The definitions of a document, examined one by one. -/
theorem toOption_readTypes (room : Nat) (cursor : Cursor) :
    (readTypes room cursor).toOption = (valueAt? .stepwise room cursor).bind fun found =>
      (typesOf? found.1).map fun types => (types, found.2) := by
  unfold readTypes
  dsimp only
  split
  · rename_i behind hbrace
    have hbehind := Json.Cursor.length_lt_of_next? hbrace
    cases room with
    | zero => simp [Json.valueAt?_zero hbrace (.inr rfl)]
    | succ room =>
      have htypes := toOption_readTypesFrom room cursor.skipBlank.steps true behind
        (by simp only [Cursor.steps]; omega)
      rw [Json.valueAt?_brace hbrace, if_neg (Nat.succ_ne_zero room), toOption_bind,
        Nat.add_sub_cancel, htypes, Option.bind_map, Option.bind_assoc]
      refine Option.bind_congr fun raw _ => ?_
      simp only [Function.comp_apply, typesOf?]
      cases raw.1.mapM namedDefinition? <;> rfl
  · rename_i hbrace
    rw [toOption_refuse]
    refine (Option.bind_eq_none_iff.mpr ?_).symm
    rintro ⟨value, behind⟩ hvalue
    cases value with
    | object entries =>
      obtain ⟨inner, hnext⟩ := Json.exists_brace_of_valueAt? hvalue
      exact (hbrace inner hnext).elim
    | _ => rfl

end GraphSchema
