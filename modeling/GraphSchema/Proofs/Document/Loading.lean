import GraphSchema.CommandLine.Run
import GraphSchema.Proofs.Document.Streaming

/-!
# Two ways to load a document

A document is loaded from a text as it is read (`Document.ofText`), or from the value of the whole
text with its repeated keys merged (`CommandLine.documentIn`).

Where the text is read as a value, `Document.ofText` finds what that value spells with its types
and tags once (`toOption_ofText`), since the reader of documents, the reader of values and the one
that passes over values stop at the same places.  Where it is not, a document is found only if the
reader of values fails in a part that is passed over (`failsInPassing_of_ofText`).  Both together
are `Document.loads_alike`.
-/

namespace GraphSchema

open Json (Cursor valueAt? elementsAt? entriesAt?)

/-! ## The root of a document -/

/-- Entries of a document that is read with all its entries. -/
theorem toOption_readRoot (room : Nat) : ∀ (steps : Nat) (first : Bool)
    (types : Option (Fields (Definition String))) (cursor : Cursor) {last : Cursor}
    {entries : List (String × Json)}, cursor.rest.length < steps →
    entriesAt? .stepwise room first cursor = some (entries, last) →
      (readRoot room steps first types cursor).toOption = rootFrom? types entries
  | 0, _, _, _, _, _, hsteps, _ => absurd hsteps (Nat.not_lt_zero _)
  | steps + 1, first, types, cursor, last, entries, hsteps, hentries => by
    rw [readRoot, toOption_bind, toOption_lexical]
    cases hnext : Json.nextKey first cursor with
    | error fault =>
      rw [Json.entriesAt?_error hnext] at hentries
      cases hentries
    | ok next =>
      cases next with
      | closed behind =>
        rw [Json.entriesAt?_closed hnext] at hentries
        cases hentries
        cases types <;> rfl
      | item key colon =>
        have hkey := Json.length_lt_of_nextKey hnext
        rw [Json.entriesAt?_item hnext] at hentries
        obtain ⟨start, hcolon, hentries⟩ := Option.bind_eq_some_iff.mp hentries
        obtain ⟨⟨value, behind⟩, hvalue, hentries⟩ := Option.bind_eq_some_iff.mp hentries
        obtain ⟨⟨more, after⟩, hmore, heq⟩ := Option.map_eq_some_iff.mp hentries
        cases heq
        have hstart := Json.length_lt_of_readColon (toOption_eq_some_iff.mp hcolon)
        have hbehind := Json.length_lt_of_valueAt? hvalue
        simp only [toOption_ok, Option.bind_some]
        by_cases htypes : key = typesKey
        · cases types with
          | some types => simp [htypes, rootFrom?, Fields.takeOnce?]
          | none =>
            have hread := toOption_readTypes room start
            rw [hvalue, Option.bind_some] at hread
            simp only [htypes, if_true, Option.isSome_none, Bool.false_eq_true, if_false,
              toOption_bind, toOption_lexical, hcolon, Option.bind_some, toOption_mapError, hread]
            cases hfound : typesOf? value with
            | none => simp [rootFrom?, Fields.takeOnce?, hfound]
            | some found =>
              simp only [Option.map_some, Option.bind_some]
              rw [toOption_readRoot room steps false (some found) behind (by omega) hmore]
              simp [rootFrom?, Fields.takeOnce?, hfound]
        · have hskip := Json.skipValue_of_readValue (toOption_eq_some_iff.mp hvalue)
          simp only [htypes, if_false, toOption_bind, toOption_lexical, hcolon, Option.bind_some,
            toOption_mapError, hskip, toOption_ok]
          rw [toOption_readRoot room steps false types behind (by omega) hmore]
          simp [rootFrom?, Fields.takeOnce?, htypes, Option.bind_map]

/-! ## Arrays -/

/-- The bracket behind the one element of a document comes next. -/
theorem closeRoot_eq_ok_iff {cursor : Cursor} :
    closeRoot cursor = .ok () ↔ ∃ last, Json.nextElement false cursor = .ok (.closed last) := by
  constructor
  · intro h
    unfold closeRoot at h
    dsimp only at h
    split at h
    · cases h
    · rename_i last hclose
      exact ⟨last, by simp [Json.nextElement, hclose]⟩
    · split at h <;> cases h
    · cases h
  · rintro ⟨last, hclosed⟩
    simp [closeRoot, Json.next?_of_closed_element hclosed]

/-- The bracket comes next where there are no more elements. -/
theorem toOption_closeRoot {room place : Nat} {cursor last : Cursor} {more : List Json}
    (h : elementsAt? .stepwise room false place cursor = some (more, last)) :
    (closeRoot cursor).toOption = if more = [] then some () else none := by
  cases hnext : Json.nextElement false cursor with
  | error fault =>
    rw [Json.elementsAt?_error hnext] at h
    cases h
  | ok next =>
    cases next with
    | closed after =>
      rw [Json.elementsAt?_closed hnext] at h
      rw [closeRoot_eq_ok_iff.mpr ⟨after, hnext⟩]
      cases h
      rfl
    | item _ start =>
      rw [Json.elementsAt?_item hnext] at h
      obtain ⟨found, -, h⟩ := Option.bind_eq_some_iff.mp h
      obtain ⟨rest, -, heq⟩ := Option.map_eq_some_iff.mp h
      cases heq
      cases hclose : closeRoot cursor with
      | error fault => simp
      | ok _ =>
        obtain ⟨after, hclosed⟩ := closeRoot_eq_ok_iff.mp hclose
        cases hnext.symm.trans hclosed

/-- A document that is read from a whole value is the one that the value spells. -/
theorem toOption_ofText {text : String} {value : Json} {last : Cursor}
    (h : Json.readValue .stepwise Json.depthLimit (.start text) = .ok (value, last)) :
    (Document.ofText text).toOption = documentOf? value := by
  have hvalue : valueAt? .stepwise Json.depthLimit (.start text) = some (value, last) :=
    toOption_eq_some_iff.mpr h
  unfold Document.ofText
  dsimp only
  split
  · rename_i behind hbrace
    have hbehind := Json.Cursor.length_lt_of_next? hbrace
    rw [show Json.depthLimit = Json.depthLimit - 1 + 1 from rfl,
      Json.valueAt?_brace hbrace] at hvalue
    obtain ⟨⟨entries, after⟩, hentries, heq⟩ := Option.map_eq_some_iff.mp hvalue
    cases heq
    exact toOption_readRoot _ _ true none behind (by simp only [Cursor.steps]; omega) hentries
  · rename_i behind hbracket
    rw [show Json.depthLimit = Json.depthLimit - 1 + 1 from rfl,
      Json.valueAt?_bracket hbracket] at hvalue
    obtain ⟨⟨elements, after⟩, helements, heq⟩ := Option.map_eq_some_iff.mp hvalue
    cases heq
    rw [toOption_bind, toOption_lexical]
    cases hnext : Json.nextElement true behind with
    | error fault =>
      rw [Json.elementsAt?_error hnext] at helements
      cases helements
    | ok next =>
      cases next with
      | closed after =>
        rw [Json.elementsAt?_closed hnext] at helements
        cases helements
        rfl
      | item _ start =>
        rw [Json.elementsAt?_item hnext] at helements
        obtain ⟨⟨types, middle⟩, htypes, helements⟩ := Option.bind_eq_some_iff.mp helements
        obtain ⟨⟨more, final⟩, hmore, heq⟩ := Option.map_eq_some_iff.mp helements
        cases heq
        have hread := toOption_readTypes (Json.depthLimit - 1) start
        rw [htypes, Option.bind_some] at hread
        simp only [toOption_ok, Option.bind_some, toOption_bind, toOption_mapError,
          toOption_lexical, hread, Option.bind_map, Function.comp_def, toOption_closeRoot hmore]
        cases more with
        | nil => simp [documentOf?, Option.map_eq_bind]
        | cons value more => simp [documentOf?]
  · rename_i hbrace hbracket
    rw [toOption_refuse]
    cases value with
    | array elements =>
      obtain ⟨inner, hnext⟩ := Json.exists_bracket_of_valueAt? hvalue
      exact (hbracket inner hnext).elim
    | object entries =>
      obtain ⟨inner, hnext⟩ := Json.exists_brace_of_valueAt? hvalue
      exact (hbrace inner hnext).elim
    | _ => rfl

/-! ## Texts that are not read as a whole -/

/-- The fault lies in an entry of the document other than its types. -/
def PassedOver (fault : Json.ReadFault) : Prop :=
  ∃ name rest, fault.path = .key name :: rest ∧ name ≠ typesKey

/-- Reading fails in entries only that the reader of documents passes over. -/
def FailsInPassing {α : Type} (reading : Except Json.ReadFault α) : Prop :=
  ∀ fault, reading = .error fault → PassedOver fault

theorem failsInPassing_ok {α : Type} {reading : Except Json.ReadFault α} {value : α}
    (h : reading = .ok value) : FailsInPassing reading := by
  intro fault hfault
  rw [h] at hfault
  cases hfault

theorem FailsInPassing.bind {α β : Type} {reading : Except Json.ReadFault α}
    {rest : α → Except Json.ReadFault β} (h : FailsInPassing reading)
    (hrest : ∀ value, reading = .ok value → FailsInPassing (rest value)) :
    FailsInPassing (reading >>= rest) := by
  intro fault hfault
  cases reading with
  | error cause =>
    cases hfault
    exact h _ rfl
  | ok value => exact hrest value rfl fault hfault

/-- The value of another entry than the types. -/
theorem failsInPassing_within {α : Type} {name : String} (h : name ≠ typesKey)
    (reading : Except Json.ReadFault α) :
    FailsInPassing (reading.mapError (Json.ReadFault.within (.key name))) := by
  intro fault hfault
  cases reading with
  | error cause =>
    cases hfault
    exact ⟨name, _, rfl, h⟩
  | ok value => cases hfault

/-- Where the entries of a document are read, what is not read as a value is passed over. -/
theorem failsInPassing_of_readRoot (room : Nat) : ∀ (steps : Nat) {first : Bool}
    {types : Option (Fields (Definition String))} {cursor : Cursor} {document : Document},
    readRoot room steps first types cursor = .ok document →
      ∀ steps', 2 * cursor.rest.length + 2 ≤ steps' →
        FailsInPassing (Json.readEntriesIn .stepwise steps' room first cursor)
  | 0, _, _, _, _, h, _, _ => by simp [readRoot, lexical, Json.fail, Except.mapError] at h
  | _ + 1, _, _, _, _, _, 0, hsteps' => absurd hsteps' (Nat.not_succ_le_zero _)
  | steps + 1, first, types, cursor, document, h, steps' + 1, hsteps' => by
    rw [readRoot] at h
    obtain ⟨next, hnext, h⟩ := exists_of_bind_eq_ok h
    replace hnext := mapError_eq_ok_iff.mp hnext
    rw [Json.readEntriesIn]
    refine (failsInPassing_ok hnext).bind fun found hfound => ?_
    cases hnext.symm.trans hfound
    cases next with
    | closed behind => exact failsInPassing_ok rfl
    | item key colon =>
      have hkey := Json.length_lt_of_nextKey hnext
      dsimp only at h ⊢
      split at h
      · rename_i htypes
        split at h
        · cases h
        obtain ⟨start, hcolon, h⟩ := exists_of_bind_eq_ok h
        obtain ⟨⟨read, behind⟩, hread, h⟩ := exists_of_bind_eq_ok h
        replace hcolon := mapError_eq_ok_iff.mp hcolon
        have hstart := Json.length_lt_of_readColon hcolon
        have hentry := toOption_eq_some_iff.mpr (mapError_eq_ok_iff.mp hread)
        rw [toOption_readTypes] at hentry
        obtain ⟨⟨value, after⟩, hvalue, hentry⟩ := Option.bind_eq_some_iff.mp hentry
        obtain ⟨types', -, heq⟩ := Option.map_eq_some_iff.mp hentry
        cases heq
        dsimp only at h
        have hbehind := Json.length_lt_of_valueAt? hvalue
        have hfound : Json.readValueIn .stepwise steps' room start = .ok (value, after) := by
          rw [← toOption_eq_some_iff, Json.toOption_readValueIn (by omega), hvalue]
        refine (failsInPassing_ok hcolon).bind fun place hplace => ?_
        cases hcolon.symm.trans hplace
        rw [hfound]
        exact (failsInPassing_of_readRoot room steps h steps' (by omega)).bind fun _ _ =>
          failsInPassing_ok rfl
      · rename_i htypes
        obtain ⟨start, hcolon, h⟩ := exists_of_bind_eq_ok h
        obtain ⟨behind, hskip, h⟩ := exists_of_bind_eq_ok h
        replace hcolon := mapError_eq_ok_iff.mp hcolon
        replace hskip := mapError_eq_ok_iff.mp (mapError_eq_ok_iff.mp hskip)
        have hstart := Json.length_lt_of_readColon hcolon
        refine (failsInPassing_ok hcolon).bind fun place hplace => ?_
        cases hcolon.symm.trans hplace
        refine (failsInPassing_within htypes _).bind fun found hfound => ?_
        have hvalue : (Json.readValueIn .stepwise steps' room start).toOption = some found := by
          rw [mapError_eq_ok_iff.mp hfound, toOption_ok]
        rw [Json.toOption_readValueIn (by omega)] at hvalue
        have hbehind := Json.length_lt_of_valueAt? hvalue
        cases hskip.symm.trans (Json.skipValue_of_readValue (toOption_eq_some_iff.mp hvalue))
        exact (failsInPassing_of_readRoot room steps h steps' (by omega)).bind fun _ _ =>
          failsInPassing_ok rfl

/-- Where a document is read, what is not read as a value is passed over. -/
theorem failsInPassing_of_ofText {text : String} {document : Document}
    (h : Document.ofText text = .ok document) :
    FailsInPassing (Json.readValue .stepwise Json.depthLimit (.start text)) := by
  unfold Document.ofText at h
  dsimp only at h
  split at h
  · rename_i behind hbrace
    have hbehind := Cursor.length_lt_of_skipBlank hbrace
    rw [Json.readValue, Cursor.steps, Json.readValueIn]
    simp only [hbrace]
    have hentries := failsInPassing_of_readRoot (Json.depthLimit - 1) _ h
      (2 * (Cursor.start text).rest.length + 1) (by omega)
    exact hentries.bind fun _ _ => failsInPassing_ok rfl
  · rename_i behind hbracket
    obtain ⟨next, hnext, h⟩ := exists_of_bind_eq_ok h
    replace hnext := mapError_eq_ok_iff.mp hnext
    cases next with
    | closed last => cases h
    | item _ first =>
      obtain ⟨⟨types, after⟩, htypes, h⟩ := exists_of_bind_eq_ok h
      obtain ⟨_, hclose, -⟩ := exists_of_bind_eq_ok h
      replace hclose := mapError_eq_ok_iff.mp hclose
      have helement := toOption_eq_some_iff.mpr (mapError_eq_ok_iff.mp htypes)
      rw [toOption_readTypes] at helement
      obtain ⟨⟨value, last⟩, hvalue, helement⟩ := Option.bind_eq_some_iff.mp helement
      obtain ⟨types', -, heq⟩ := Option.map_eq_some_iff.mp helement
      cases heq
      obtain ⟨final, hclosed⟩ := closeRoot_eq_ok_iff.mp hclose
      have hwhole : valueAt? .stepwise Json.depthLimit (.start text) =
          some (.array [value], final) := by
        rw [show Json.depthLimit = Json.depthLimit - 1 + 1 from rfl,
          Json.valueAt?_bracket hbracket, Json.elementsAt?_item hnext, hvalue, Option.bind_some,
          Json.elementsAt?_closed hclosed]
        rfl
      exact failsInPassing_ok (toOption_eq_some_iff.mp hwhole)
  · rw [← toOption_eq_some_iff, toOption_refuse] at h
    cases h

/-! ## Agreement -/

theorem CommandLine.documentIn_eq_ok_iff {path text : String} {document : Document} :
    CommandLine.documentIn none path text = .ok document ↔
      ∃ value, Json.readUnmerged text = .ok value ∧
        Document.ofJson value.mergeRepeats = .ok document := by
  simp only [← toOption_eq_some_iff, documentIn, toOption_bind, toOption_mapError,
    Json.read_eq_map_readUnmerged, toOption_map, pure_eq_ok, toOption_ok,
    Option.bind_eq_some_iff, Option.map_eq_some_iff]
  grind

/-- **Agreement of the two ways to load a document.**  A text that is a value is loaded as it is
read exactly if that value, with all that is repeated in it, spells the document and repeats
neither the types nor a tag.  Then the document is loaded from the merged value as well, and
where no object repeats a key, it is loaded in both ways or in none.  Of a text that is no value,
a document is only read where what is wrong stands behind it or in an entry that is passed over. -/
theorem Document.loads_alike (path text : String) (document : Document) :
    (∀ value, Json.readUnmerged text = .ok value →
      (Document.ofText text = .ok document ↔
        Document.ofJson value = .ok document ∧ TaggedOnce value) ∧
      (Document.ofText text = .ok document →
        CommandLine.documentIn none path text = .ok document) ∧
      (value.Distinct → CommandLine.documentIn none path text = .ok document →
        Document.ofText text = .ok document)) ∧
    ∀ fault, Json.readUnmerged text = .error fault → Document.ofText text = .ok document →
      fault.fault = .trailingCharacters ∨ PassedOver fault := by
  constructor
  · intro value hvalue
    obtain ⟨last, hread⟩ := Json.readValue_of_readUnmerged hvalue
    have hspelled : Document.ofText text = .ok document ↔
        Document.ofJson value = .ok document ∧ TaggedOnce value := by
      rw [← toOption_eq_some_iff, toOption_ofText hread, documentOf?_eq_some_iff]
    have hmerged : CommandLine.documentIn none path text = .ok document ↔
        Document.ofJson value.mergeRepeats = .ok document := by
      simp [CommandLine.documentIn_eq_ok_iff, hvalue]
    rw [hspelled, hmerged]
    refine ⟨Iff.rfl, ?_, ?_⟩
    · rintro ⟨h, honce⟩
      exact Document.ofJson_mergeRepeats honce h
    · intro hdistinct h
      rw [Json.mergeRepeats_of_distinct hdistinct] at h
      exact ⟨h, hdistinct.taggedOnce⟩
  · intro fault hfault h
    rcases Json.error_of_readUnmerged hfault with hvalue | htrailing
    · exact .inr (failsInPassing_of_ofText h fault hvalue)
    · exact .inl htrailing

/-- A document of two types. -/
def namedPair : String :=
  "\x7b\"types\":\x7b\"Name\":\x7b\"kind\":\"intrinsic\",\"name\":\"string\"\x7d,\"Pair\":[\"tuple\",[\"Name\",\"Name\"]]\x7d\x7d"

/-- An empty document with a remark that is no string: half a pair of surrogates. -/
def remarked : String := "\x7b\"types\":\x7b\x7d,\"remark\":\"\\ud800\"\x7d"

/-- A document that has its types twice. -/
def typedTwice : String := "\x7b\"types\":\x7b\x7d,\"types\":\x7b\x7d\x7d"

theorem Document.loads_alike_namedPair :
    ∃ value document fault,
      Json.readUnmerged namedPair = .ok value ∧ value.Distinct ∧
      CommandLine.documentIn none "" namedPair = .ok document ∧
      Document.ofText namedPair = .ok document ∧
      Json.readUnmerged remarked = .error fault ∧ Document.ofText remarked = .ok ⟨[]⟩ ∧
      (fault.fault = .trailingCharacters ∨ PassedOver fault) := by
  let value : Json := .object [("types", .object
    [("Name", .object [("kind", .string "intrinsic"), ("name", .string "string")]),
      ("Pair", .array [.string "tuple", .array [.string "Name", .string "Name"]])])]
  let document : Document := ⟨[("Name", .intrinsic .string), ("Pair", .tuple ["Name", "Name"])]⟩
  have hvalue : Json.readUnmerged namedPair = .ok value := by cbv
  have hdistinct : value.Distinct := by
    simp [value, Json.Distinct, Json.EntriesDistinct, Json.ElementsDistinct]
  have hloaded : CommandLine.documentIn none "" namedPair = .ok document := by cbv
  have hfault : Json.readUnmerged remarked =
      .error ⟨[.key "remark"], .unpairedSurrogate, ⟨1, 29⟩⟩ := by cbv
  have hread : Document.ofText remarked = .ok ⟨[]⟩ := by cbv
  refine ⟨value, document, _, hvalue, hdistinct, hloaded, ?_, hfault, hread, ?_⟩
  · exact ((Document.loads_alike "" namedPair document).1 value hvalue).2.2 hdistinct hloaded
  · exact (Document.loads_alike "" remarked ⟨[]⟩).2 _ hfault hread

/-- Neither way to load documents loads all that the other one does. -/
theorem Document.loads_unlike :
    (Document.ofText typedTwice ≠ .ok ⟨[]⟩ ∧ CommandLine.documentIn none "" typedTwice = .ok ⟨[]⟩) ∧
    Document.ofText remarked = .ok ⟨[]⟩ ∧ CommandLine.documentIn none "" remarked ≠ .ok ⟨[]⟩ := by
  refine ⟨⟨?_, by cbv⟩, by cbv, ?_⟩
  · have hnone : (Document.ofText typedTwice).toOption = none := by cbv
    intro h
    rw [h] at hnone
    cases hnone
  · have hnone : (CommandLine.documentIn none "" remarked).toOption = none := by cbv
    intro h
    rw [h] at hnone
    cases hnone

end GraphSchema
