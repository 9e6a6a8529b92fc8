import GraphSchema.Document.OfJson
import GraphSchema.Proofs.Json.Repeats

/-!
# Repeated keys of a document

`documentOf?` is what a value spells to a reader that wants the types of a document, and the tag
of a definition, to stand once.  It is what `Document.ofJson` makes of a value that repeats neither
(`documentOf?_eq_some_iff`); the fields of a definition stand once in any case.  Other repeated
keys may be merged without changing the document (`Document.ofJson_mergeRepeats`): the ids of
types and the names of properties, of which the last ones count, and keys that no form knows.
-/

namespace GraphSchema

/-! ## Values of fields -/

namespace Json

theorem eq_string_of_toText {value : Json} {text : String} (h : value.toText = .ok text) :
    value = .string text := by
  cases value with
  | string found =>
    cases h
    rfl
  | _ => cases h

theorem toText_mergeRepeats {value : Json} {text : String} (h : value.toText = .ok text) :
    value.mergeRepeats.toText = .ok text := by
  rw [eq_string_of_toText h, mergeRepeats_string, toText]

theorem toKind_mergeRepeats {value : Json} {kind : Kind} (h : value.toKind = .ok kind) :
    value.mergeRepeats.toKind = .ok kind := by
  cases value with
  | string => rwa [mergeRepeats_string]
  | _ => cases h

theorem toOptionalText_mergeRepeats {value : Json} {text : Option String}
    (h : value.toOptionalText = .ok text) : value.mergeRepeats.toOptionalText = .ok text := by
  cases value with
  | array | object => cases h
  | _ => simpa [mergeRepeats] using h

theorem toFlag_mergeRepeats {value : Json} {flag : Bool} (h : value.toFlag = .ok flag) :
    value.mergeRepeats.toFlag = .ok flag := by
  cases value with
  | bool => simpa [mergeRepeats] using h
  | _ => cases h

/-- A list of texts has no objects, so nothing is merged in it. -/
theorem map_mergeRepeats_of_toText {elements : List Json} {texts : List String}
    (h : elements.mapM toText = .ok texts) : elements.map mergeRepeats = elements := by
  induction elements generalizing texts with
  | nil => rfl
  | cons value rest ih =>
    rw [List.mapM_cons] at h
    obtain ⟨text, htext, h⟩ := exists_of_bind_eq_ok h
    obtain ⟨more, hmore, -⟩ := exists_of_bind_eq_ok h
    rw [List.map_cons, ih hmore, eq_string_of_toText htext, mergeRepeats_string]

theorem toTexts_mergeRepeats {value : Json} {texts : List String} (h : value.toTexts = .ok texts) :
    value.mergeRepeats.toTexts = .ok texts := by
  cases value with
  | array elements =>
    rw [mergeRepeats_array, map_mergeRepeats_of_toText h]
    exact h
  | _ => cases h

theorem toNamedTexts_object (entries : List (String × Json)) :
    (object entries).toNamedTexts =
      entries.mapM (Fields.readEntry fun _ value => value.toText) >>= fun texts =>
        .ok (Fields.ofEntries texts) :=
  rfl

/-- Texts by key are merged to the same texts, whether before or after they are read. -/
theorem toNamedTexts_mergeRepeats {value : Json} {texts : List (String × String)}
    (h : value.toNamedTexts = .ok texts) : value.mergeRepeats.toNamedTexts = .ok texts := by
  cases value with
  | object entries =>
    rw [toNamedTexts_object] at h
    obtain ⟨read, hread, h⟩ := exists_of_bind_eq_ok h
    cases h
    have hmerged := Fields.mapM_ofEntries
      (Fields.mapM_mapValues (fun _ _ _ => toText_mergeRepeats) hread)
    rw [mergeRepeats_object, toNamedTexts_object, hmerged, ok_bind, Fields.ofEntries_ofEntries]
  | _ => cases h

theorem toUnit_mergeRepeats {value : Json} (h : value.toUnit = .ok ()) :
    value.mergeRepeats.toUnit = .ok () := by
  cases value with
  | null => simpa [mergeRepeats] using h
  | object entries =>
    cases entries with
    | nil =>
      rw [mergeRepeats_object]
      exact h
    | cons entry rest => cases h
  | _ => cases h

/-- A kind that is spelled as an object is spelled by its only entry. -/
theorem toIntrinsic_mergeRepeats {value : Json} {kind : Intrinsic}
    (h : value.toIntrinsic = .ok kind) : value.mergeRepeats.toIntrinsic = .ok kind := by
  cases value with
  | string => rwa [mergeRepeats_string]
  | object entries =>
    match entries, h with
    | [(text, value)], h =>
      obtain ⟨found, hfound, h⟩ := exists_of_bind_eq_ok h
      obtain ⟨_, hunit, h⟩ := exists_of_bind_eq_ok h
      rw [mergeRepeats_object]
      simp only [Fields.mapValues, List.map_cons, List.map_nil, Fields.ofEntries, Fields.merge_cons,
        Fields.put, Fields.merge_nil, toIntrinsic, hfound, toUnit_mergeRepeats hunit]
      exact h
  | _ => cases h

end Json

/-! ## Fields of a definition -/

/-- The field of a form under a key. -/
def Kind.field? (kind : Kind) (key : String) : Option Field :=
  kind.fields.find? fun field => field.key == key

/-- The key is one of the form. -/
def Kind.knows (kind : Kind) (key : String) : Bool := (kind.field? key).isSome

namespace Draft

variable {kind : Kind} {draft next last : Draft} {field : Field} {key : String} {value : Json}
  {entries rest : List (String × Json)}

theorem read_mergeRepeats (h : draft.read field value = .ok next) :
    draft.read field value.mergeRepeats = .ok next := by
  cases field <;> obtain ⟨made, hmade, heq⟩ := exists_of_bind_eq_ok h <;> simp only [read]
  case name => rwa [Json.toIntrinsic_mergeRepeats hmade]
  case symbol => rwa [Json.toOptionalText_mergeRepeats hmade]
  case interface => rwa [Json.toFlag_mergeRepeats hmade]
  case properties => rwa [Json.toNamedTexts_mergeRepeats hmade]
  case target => rwa [Json.toText_mergeRepeats hmade]
  all_goals rwa [Json.toTexts_mergeRepeats hmade]

/-- To read a field adds it to the ones that have been read. -/
theorem has_of_read (h : draft.read field value = .ok next) (other : Field) :
    next.has other = (draft.has other || other == field) := by
  cases field <;> obtain ⟨made, -, heq⟩ := exists_of_bind_eq_ok h <;> cases heq <;>
    cases other <;> simp [has]

theorem readEntries_of_none (h : kind.field? key = none) :
    readEntries kind draft ((key, value) :: rest) = readEntries kind draft rest := by
  rw [Kind.field?] at h
  simp only [readEntries, h]

/-- A known field is read where it has not been read before. -/
theorem readEntries_eq_ok_iff (h : kind.field? key = some field) :
    readEntries kind draft ((key, value) :: rest) = .ok last ↔
      draft.has field = false ∧
        ∃ next, draft.read field value = .ok next ∧ readEntries kind next rest = .ok last := by
  rw [Kind.field?] at h
  simp only [readEntries, h]
  cases draft.has field with
  | true => simp
  | false =>
    cases draft.read field value <;> simp

/-- Unknown entries do not matter. -/
theorem readEntries_filter_eq_ok_iff (kind : Kind) (entries : List (String × Json)) :
    readEntries kind draft (entries.filter fun entry => kind.knows entry.1) = .ok last ↔
      readEntries kind draft entries = .ok last := by
  induction entries generalizing draft with
  | nil => rfl
  | cons entry rest ih =>
    obtain ⟨key, value⟩ := entry
    cases hfield : kind.field? key with
    | none => simp [Kind.knows, hfield, readEntries_of_none hfield, ← ih]
    | some field => simp [Kind.knows, hfield, readEntries_eq_ok_iff hfield, ← ih]

/-- A field that is read has not been read before. -/
theorem has_eq_false_of_readEntries (h : readEntries kind draft entries = .ok last)
    (hmem : key ∈ Fields.keys entries) (hfield : kind.field? key = some field) :
    draft.has field = false := by
  induction entries generalizing draft with
  | nil => cases hmem
  | cons entry rest ih =>
    obtain ⟨name, value⟩ := entry
    by_cases hname : name = key
    · subst hname
      exact ((readEntries_eq_ok_iff hfield).mp h).1
    · rw [Fields.keys_cons, List.mem_cons, or_iff_right (Ne.symm hname)] at hmem
      cases hother : kind.field? name with
      | none => exact ih ((readEntries_of_none hother).symm.trans h) hmem
      | some other =>
        obtain ⟨-, next, hread, hrest⟩ := (readEntries_eq_ok_iff hother).mp h
        have hnext := ih hrest hmem
        rw [has_of_read hread, Bool.or_eq_false_iff] at hnext
        exact hnext.1

/-- Fields that are read stand once. -/
theorem nodup_of_readEntries (h : readEntries kind draft entries = .ok last) :
    (Fields.keys (entries.filter fun entry => kind.knows entry.1)).Nodup := by
  induction entries generalizing draft with
  | nil => exact List.nodup_nil
  | cons entry rest ih =>
    obtain ⟨key, value⟩ := entry
    cases hfield : kind.field? key with
    | none =>
      rw [readEntries_of_none hfield] at h
      simpa [Kind.knows, hfield] using ih h
    | some field =>
      obtain ⟨-, next, hread, hrest⟩ := (readEntries_eq_ok_iff hfield).mp h
      have hnew : key ∉ Fields.keys rest := by
        intro hmem
        have hnext := has_eq_false_of_readEntries hrest hmem hfield
        simp [has_of_read hread] at hnext
      have hfilter : key ∉ Fields.keys (rest.filter fun entry => kind.knows entry.1) :=
        fun hmem => hnew ((List.filter_sublist.map Prod.fst).subset hmem)
      simp only [Kind.knows, hfield, Option.isSome_some, List.filter_cons_of_pos,
        Fields.keys_cons, List.nodup_cons]
      exact ⟨hfilter, ih hrest⟩

theorem readEntries_mapValues (h : readEntries kind draft entries = .ok last) :
    readEntries kind draft (Fields.mapValues Json.mergeRepeats entries) = .ok last := by
  induction entries generalizing draft with
  | nil => exact h
  | cons entry rest ih =>
    obtain ⟨key, value⟩ := entry
    rw [Fields.mapValues, List.map_cons]
    cases hfield : kind.field? key with
    | none =>
      rw [readEntries_of_none hfield] at h ⊢
      exact ih h
    | some field =>
      obtain ⟨hnew, next, hread, hrest⟩ := (readEntries_eq_ok_iff hfield).mp h
      exact (readEntries_eq_ok_iff hfield).mpr ⟨hnew, next, read_mergeRepeats hread, ih hrest⟩

/-- No known field is repeated, and repetitions of unknown ones do not matter. -/
theorem readEntries_mergeRepeats (h : readEntries kind draft entries = .ok last) :
    readEntries kind draft (Fields.ofEntries (Fields.mapValues Json.mergeRepeats entries)) =
      .ok last := by
  have hnodup : (Fields.keys (Fields.mapValues Json.mergeRepeats
      (entries.filter fun entry => kind.knows entry.1))).Nodup := by
    rw [Fields.keys_mapValues]
    exact nodup_of_readEntries h
  rw [← readEntries_filter_eq_ok_iff, Fields.filter_ofEntries (p := kind.knows),
    Fields.filter_mapValues, Fields.ofEntries_of_nodup hnodup]
  exact readEntries_mapValues ((readEntries_filter_eq_ok_iff kind entries).mpr h)

theorem readPositions_mergeRepeats {count : Nat} {fields : List Field} {values : List Json}
    (h : readPositions kind count draft fields values = .ok last) :
    readPositions kind count draft fields (values.map Json.mergeRepeats) = .ok last := by
  induction fields generalizing count draft values with
  | nil =>
    cases values with
    | nil => exact h
    | cons value rest => cases h
  | cons field fields ih =>
    cases values with
    | nil => exact h
    | cons value rest =>
      obtain ⟨next, hread, h⟩ := exists_of_bind_eq_ok h
      simp only [List.map_cons, readPositions, read_mergeRepeats hread]
      exact ih h

end Draft

namespace Kind

variable {kind : Kind} {definition : Definition String}

theorem readContent_entries_mergeRepeats {entries : List (String × Json)}
    (h : kind.readContent (.entries entries) = .ok definition) :
    kind.readContent
      (.entries (Fields.ofEntries (Fields.mapValues Json.mergeRepeats entries))) =
        .ok definition := by
  obtain ⟨draft, hdraft, hfinish⟩ := exists_of_bind_eq_ok h
  rw [readContent, Draft.readEntries_mergeRepeats hdraft]
  exact hfinish

theorem readContent_positions_mergeRepeats {values : List Json}
    (h : kind.readContent (.positions values) = .ok definition) :
    kind.readContent (.positions (values.map Json.mergeRepeats)) = .ok definition := by
  obtain ⟨draft, hdraft, hfinish⟩ := exists_of_bind_eq_ok h
  rw [readContent, Draft.readPositions_mergeRepeats hdraft]
  exact hfinish

end Kind

/-! ## Values with one tag in each definition -/

/-- In an object, the key stands at most once. -/
def Json.AtMostOnce (key : String) : Json → Prop
  | .object entries => (Fields.keys entries).count key ≤ 1
  | _ => True

/-- Each of the definitions that a value spells has at most one tag. -/
def TypesTaggedOnce : Json → Prop
  | .object entries => ∀ entry ∈ entries, entry.2.AtMostOnce tagKey
  | _ => True

/-- A document has its types at most once, and each of its definitions at most one tag. -/
def TaggedOnce : Json → Prop
  | .object entries =>
    (Fields.keys entries).count typesKey ≤ 1 ∧
      ∀ types, Fields.get? entries typesKey = some types → TypesTaggedOnce types
  | .array elements => ∀ types ∈ elements, TypesTaggedOnce types
  | _ => True

theorem Json.Distinct.atMostOnce {value : Json} (h : value.Distinct) (key : String) :
    value.AtMostOnce key := by
  cases value with
  | object entries =>
    rw [Distinct] at h
    exact List.nodup_iff_count_le_one.mp h.1 key
  | _ => trivial

theorem Json.Distinct.typesTaggedOnce {value : Json} (h : value.Distinct) :
    TypesTaggedOnce value := by
  cases value with
  | object entries =>
    rw [Distinct] at h
    exact fun entry hmem => (distinct_of_mem h.2 hmem).atMostOnce tagKey
  | _ => trivial

/-- Where no key is repeated, neither are the types nor a tag. -/
theorem Json.Distinct.taggedOnce {value : Json} (h : value.Distinct) : TaggedOnce value := by
  cases value with
  | object entries =>
    refine ⟨h.atMostOnce typesKey, fun types htypes => ?_⟩
    rw [Distinct] at h
    exact (distinct_of_mem h.2 (Fields.mem_of_get? htypes)).typesTaggedOnce
  | array elements =>
    rw [Distinct] at h
    exact fun types hmem => (distinct_of_mem_elements h hmem).typesTaggedOnce
  | _ => trivial

/-! ## Merging repeated keys -/

/-- Repetitions of other keys than the tag do not matter to a definition. -/
theorem Definition.ofJson_mergeRepeats {value : Json} {definition : Definition String}
    (honce : value.AtMostOnce tagKey) (h : Definition.ofJson value = .ok definition) :
    Definition.ofJson value.mergeRepeats = .ok definition := by
  cases value with
  | object entries =>
    have hcount : (Fields.keys (Fields.mapValues Json.mergeRepeats entries)).count tagKey ≤ 1 := by
      rw [Fields.keys_mapValues]
      exact honce
    rw [Json.mergeRepeats_object]
    rw [Definition.ofJson] at h ⊢
    rw [Fields.get?_ofEntries_of_count hcount, Fields.get?_mapValues,
      Fields.filter_ofEntries (p := (· != tagKey)),
      Fields.filter_mapValues (p := (· != tagKey))]
    cases htag : Fields.get? entries tagKey with
    | none =>
      rw [htag] at h
      cases h
    | some tag =>
      rw [htag] at h
      obtain ⟨kind, hkind, h⟩ := exists_of_bind_eq_ok h
      have hkind' := Json.toKind_mergeRepeats (mapError_eq_ok_iff.mp (mapError_eq_ok_iff.mp hkind))
      have hcontent := Kind.readContent_entries_mergeRepeats (mapError_eq_ok_iff.mp h)
      simp only [Option.map_some, hkind']
      exact congrArg readingHere hcontent
  | array elements =>
    rw [Json.mergeRepeats_array]
    cases elements with
    | nil => cases h
    | cons tag values =>
      obtain ⟨kind, hkind, h⟩ := exists_of_bind_eq_ok h
      have hkind' := Json.toKind_mergeRepeats (mapError_eq_ok_iff.mp (mapError_eq_ok_iff.mp hkind))
      have hcontent := Kind.readContent_positions_mergeRepeats (mapError_eq_ok_iff.mp h)
      simp only [List.map_cons, Definition.ofJson, hkind']
      exact congrArg readingHere hcontent
  | _ => cases h

namespace Document

/-- A definition of a document. -/
def definitionAt (id : String) (value : Json) : Except LoadFault (Definition String) :=
  (Definition.ofJson value).mapError (LoadFault.within (.key id))

theorem typesOfJson_object (entries : List (String × Json)) :
    typesOfJson (.object entries) =
      entries.mapM (Fields.readEntry definitionAt) >>= fun types =>
        .ok (Fields.ofEntries types) :=
  rfl

theorem definitionAt_eq_ok_iff {id : String} {value : Json} {definition : Definition String} :
    definitionAt id value = .ok definition ↔ Definition.ofJson value = .ok definition :=
  mapError_eq_ok_iff

theorem typesOfJson_mergeRepeats {value : Json} {types : Fields (Definition String)}
    (honce : TypesTaggedOnce value) (h : typesOfJson value = .ok types) :
    typesOfJson value.mergeRepeats = .ok types := by
  cases value with
  | object entries =>
    rw [typesOfJson_object] at h
    obtain ⟨read, hread, h⟩ := exists_of_bind_eq_ok h
    cases h
    have hdefinition : ∀ entry ∈ entries, ∀ definition,
        definitionAt entry.1 entry.2 = .ok definition →
          definitionAt entry.1 entry.2.mergeRepeats = .ok definition := by
      intro entry hmem definition hfound
      rw [definitionAt_eq_ok_iff] at hfound ⊢
      exact Definition.ofJson_mergeRepeats (honce entry hmem) hfound
    have hmerged := Fields.mapM_ofEntries (Fields.mapM_mapValues hdefinition hread)
    rw [Json.mergeRepeats_object, typesOfJson_object, hmerged, ok_bind, Fields.ofEntries_ofEntries]
  | _ => cases h

/-- A document that has its types once, and in its definitions one tag, is not changed by
merging what else is repeated. -/
theorem ofJson_mergeRepeats {value : Json} {document : Document} (honce : TaggedOnce value)
    (h : ofJson value = .ok document) : ofJson value.mergeRepeats = .ok document := by
  cases value with
  | object entries =>
    have hcount :
        (Fields.keys (Fields.mapValues Json.mergeRepeats entries)).count typesKey ≤ 1 := by
      rw [Fields.keys_mapValues]
      exact honce.1
    rw [Json.mergeRepeats_object]
    rw [ofJson] at h ⊢
    rw [Fields.get?_ofEntries_of_count hcount, Fields.get?_mapValues]
    cases htypes : Fields.get? entries typesKey with
    | none =>
      rw [htypes] at h
      cases h
    | some value =>
      rw [htypes] at h
      obtain ⟨types, hread, h⟩ := exists_of_bind_eq_ok h
      have hmerged := typesOfJson_mergeRepeats (honce.2 value htypes) (mapError_eq_ok_iff.mp hread)
      simp only [Option.map_some, hmerged]
      exact h
  | array elements =>
    rw [Json.mergeRepeats_array]
    match elements, h with
    | [value], h =>
      obtain ⟨types, hread, h⟩ := exists_of_bind_eq_ok h
      have hmerged := typesOfJson_mergeRepeats (honce value (by simp)) (mapError_eq_ok_iff.mp hread)
      simp only [List.map_cons, List.map_nil, ofJson, hmerged]
      exact h
    | value :: _ :: _, h =>
      obtain ⟨types, -, h⟩ := exists_of_bind_eq_ok h
      cases h
  | _ => cases h

end Document

/-! ## Looking at a value -/

/-- The tag among some entries, of which there may be one, and the other entries. -/
def taggedFrom? (tag : Option Kind) (entries : List (String × Json)) :
    Option (Option Kind × List (String × Json)) :=
  Fields.takeOnce? tagKey (fun value => value.toKind.toOption) tag entries

/-- The definition that a value spells, with one tag. -/
def definitionOf? : Json → Option (Definition String)
  | .object entries =>
    (taggedFrom? none entries).bind fun found =>
      found.1.bind fun kind => (kind.readContent (.entries found.2)).toOption
  | .array (tag :: values) =>
    tag.toKind.toOption.bind fun kind => (kind.readContent (.positions values)).toOption
  | _ => none

/-- The definition that the value of an entry spells, under the key of the entry. -/
def namedDefinition? (entry : String × Json) : Option (String × Definition String) :=
  (definitionOf? entry.2).map (entry.1, ·)

/-- The definitions that a value spells, by id. -/
def typesOf? : Json → Option (Fields (Definition String))
  | .object entries => (entries.mapM namedDefinition?).map Fields.ofEntries
  | _ => none

/-- The document that entries spell, of which some may have been read. -/
def rootFrom? (types : Option (Fields (Definition String))) (entries : List (String × Json)) :
    Option Document :=
  (Fields.takeOnce? typesKey typesOf? types entries).bind fun found => found.1.map Document.mk

/-- The document that a value spells, with one tag in each definition and the types once. -/
def documentOf? : Json → Option Document
  | .object entries => rootFrom? none entries
  | .array [types] => (typesOf? types).map Document.mk
  | _ => none

/-! ## Values that spell a document -/

theorem definitionOf?_eq_some_iff {value : Json} {definition : Definition String} :
    definitionOf? value = some definition ↔
      Definition.ofJson value = .ok definition ∧ value.AtMostOnce tagKey := by
  cases value with
  | object entries =>
    rw [definitionOf?, taggedFrom?, Definition.ofJson]
    cases htag : Fields.get? entries tagKey with
    | none =>
      rw [Fields.takeOnce?_of_not_mem (Fields.get?_eq_none_iff.mp htag)]
      simp [mismatchHere]
    | some tag =>
      rw [Fields.takeOnce?_of_get? htag, Json.AtMostOnce]
      by_cases hone : (Fields.keys entries).count tagKey ≤ 1
      · rw [if_pos hone, ← toOption_eq_some_iff]
        simp [hone, readingHere, Option.bind_map]
      · simp [hone]
  | array elements =>
    cases elements with
    | nil => simp [definitionOf?, Definition.ofJson, mismatchHere]
    | cons tag values =>
      rw [definitionOf?, Definition.ofJson, ← toOption_eq_some_iff]
      simp [Json.AtMostOnce, readingHere]
  | _ => simp [definitionOf?, Definition.ofJson, mismatchHere]

theorem namedDefinition?_eq_some_iff {entry : String × Json}
    {named : String × Definition String} :
    namedDefinition? entry = some named ↔
      Fields.readEntry Document.definitionAt entry = .ok named ∧ entry.2.AtMostOnce tagKey := by
  obtain ⟨id, definition⟩ := named
  rw [namedDefinition?, Option.map_eq_some_iff, Fields.readEntry_eq_ok_iff,
    Document.definitionAt_eq_ok_iff]
  simp only [definitionOf?_eq_some_iff, Prod.mk.injEq]
  grind

theorem typesOf?_eq_some_iff {value : Json} {types : Fields (Definition String)} :
    typesOf? value = some types ↔
      Document.typesOfJson value = .ok types ∧ TypesTaggedOnce value := by
  cases value with
  | object entries =>
    rw [typesOf?, Document.typesOfJson_object, Option.map_eq_some_iff]
    simp only [mapM_eq_some_iff fun _ _ _ => namedDefinition?_eq_some_iff, TypesTaggedOnce]
    cases entries.mapM (Fields.readEntry Document.definitionAt) <;> simp [and_comm]
  | _ => simp [typesOf?, Document.typesOfJson, mismatchHere]

theorem map_typesOf?_eq_some_iff {value : Json} {document : Document} :
    (typesOf? value).map Document.mk = some document ↔
      (Document.typesOfJson value).toOption.map Document.mk = some document ∧
        TypesTaggedOnce value := by
  simp only [Option.map_eq_some_iff, typesOf?_eq_some_iff, toOption_eq_some_iff]
  grind

/-- What a value spells with its types and tags once is what it spells. -/
theorem documentOf?_eq_some_iff {value : Json} {document : Document} :
    documentOf? value = some document ↔
      Document.ofJson value = .ok document ∧ TaggedOnce value := by
  cases value with
  | object entries =>
    rw [documentOf?, rootFrom?, Document.ofJson]
    cases htypes : Fields.get? entries typesKey with
    | none =>
      rw [Fields.takeOnce?_of_not_mem (Fields.get?_eq_none_iff.mp htypes)]
      simp [mismatchHere]
    | some types =>
      rw [Fields.takeOnce?_of_get? htypes, TaggedOnce]
      by_cases hone : (Fields.keys entries).count typesKey ≤ 1
      · have htaken : ((typesOf? types).map fun made =>
              (some made, entries.filter fun entry => entry.1 != typesKey)).bind
            (fun found => found.1.map Document.mk) = (typesOf? types).map Document.mk := by
          cases typesOf? types <;> rfl
        rw [if_pos hone, htaken, map_typesOf?_eq_some_iff, ← toOption_eq_some_iff]
        simp [hone, htypes, Option.bind_eq_some_iff]
      · simp [hone]
  | array elements =>
    match elements with
    | [] => simp [documentOf?, Document.ofJson, mismatchHere]
    | [types] =>
      rw [documentOf?, Document.ofJson, ← toOption_eq_some_iff, map_typesOf?_eq_some_iff]
      simp [TaggedOnce, Option.bind_eq_some_iff]
    | types :: _ :: _ =>
      simp [documentOf?, Document.ofJson, ← toOption_eq_some_iff, mismatchHere]
  | _ => simp [documentOf?, Document.ofJson, mismatchHere]

end GraphSchema
