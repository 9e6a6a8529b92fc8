import GraphSchema.Literal.Encoding
import GraphSchema.Proofs.Outcomes

/-!
# Schemas as literal expressions

A schema is offered to the encoder of literal expressions by two routes: as the calls of its own
wire form, and as the JSON value of that form.  `Schema.literal` is what both routes give, with an
entry for every entry of the wire form: the encoder leaves an entry out only for an absent value,
and no part of a schema is one.  The wire form tells schemas apart (`Schema.literal_injective`),
because `type` and `$ref` tell the shapes apart, the kinds have their own spellings, and none of
these is the name of a shape.
-/

namespace GraphSchema

/-! ## Encoding entry by entry -/

namespace Data

/-- An entry whose value is not absent is written, and what follows starts without a key. -/
theorem encodeCalls_entry (key : String) {value : Data} {literal : Literal}
    {rest : List (MapRole × Data)} {entries : List (String × Literal)}
    (hvalue : value.encode = .ok literal) (hvoid : literal.isVoid = false)
    (hrest : encodeCalls none rest = .ok entries) :
    encodeCalls none (entry key value ++ rest) = .ok ((key, literal) :: entries) := by
  have hkey : (Data.string key).encode = .ok (.string key) := by simp [encode]
  simp [entry, encodeCalls, hkey, Literal.mapKey, hvalue, hrest, Literal.consEntry, hvoid]

theorem encodeCalls_nil : encodeCalls none [] = .ok [] := by
  simp [encodeCalls]

theorem encode_map {calls : List (MapRole × Data)} {entries : List (String × Literal)}
    (h : encodeCalls none calls = .ok entries) :
    (map calls).encode = .ok (.object true entries) := by
  simp [encode, h]

theorem encode_sequence {elements : List Data} {literals : List Literal}
    (h : encodeAll elements = .ok literals) :
    (sequence elements).encode = .ok (.array true literals) := by
  simp [encode, h]

theorem encode_string (text : String) : (string text).encode = .ok (.string text) := by
  simp [encode]

/-- Texts are encoded one by one. -/
theorem encodeAll_strings (texts : List String) :
    encodeAll (texts.map .string) = .ok (texts.map .string) := by
  induction texts with
  | nil => simp [encodeAll]
  | cons text rest ih =>
    simp [encodeAll, encode_string, ih]

end Data

namespace Json

/-- Texts as JSON values are texts as data. -/
theorem elementsToData_strings (texts : List String) :
    elementsToData (texts.map .string) = texts.map .string := by
  induction texts with
  | nil => simp [elementsToData]
  | cons text rest ih => simp [elementsToData, toData, ih]

theorem entriesToCalls_append (front back : List (String × Json)) :
    entriesToCalls (front ++ back) = entriesToCalls front ++ entriesToCalls back := by
  induction front with
  | nil => simp [entriesToCalls]
  | cons entry rest ih =>
    obtain ⟨key, value⟩ := entry
    simp [entriesToCalls, ih]

end Json

namespace Schema

/-! ## The expression of a schema -/

/-- The property of a title. -/
def titleProperty : Option String → List (String × Literal)
  | some title => [("title", .string title)]
  | none => []

mutual

/-- The literal expression of a schema: its wire form, every container laid out over lines. -/
def literal : Schema → Literal
  | any title => .object true (("type", .string "any") :: titleProperty title)
  | intrinsic kind => .object true [("type", .string kind.name)]
  | object title properties required =>
    .object true (("type", .string "object") :: (titleProperty title ++
      [("properties", .object true (propertyLiterals properties)),
       ("required", .array true (required.map .string))]))
  | array items => .object true [("type", .string "array"), ("items", literal items)]
  | reference name => .object true [("$ref", .string name)]

/-- The literal expression of every property. -/
def propertyLiterals : List (String × Schema) → List (String × Literal)
  | [] => []
  | (name, schema) :: rest => (name, literal schema) :: propertyLiterals rest

end

/-- No schema is written as the absent value, so no entry that holds one is left out. -/
@[simp] theorem isVoid_literal (schema : Schema) : schema.literal.isVoid = false := by
  cases schema <;> simp [literal, Literal.isVoid]

/-! ## Both routes -/

/-- The entries of a title, in front of others, as calls. -/
theorem encodeCalls_titleCalls (title : Option String) {rest : List (MapRole × Data)}
    {entries : List (String × Literal)} (hrest : Data.encodeCalls none rest = .ok entries) :
    Data.encodeCalls none (titleCalls title ++ rest) = .ok (titleProperty title ++ entries) := by
  cases title with
  | none => simpa [titleCalls, titleProperty] using hrest
  | some title =>
    exact Data.encodeCalls_entry "title" (Data.encode_string title) (by simp [Literal.isVoid]) hrest

/-- An entry that holds a text. -/
theorem encodeCalls_text (key text : String) {rest : List (MapRole × Data)}
    {entries : List (String × Literal)} (hrest : Data.encodeCalls none rest = .ok entries) :
    Data.encodeCalls none (Data.entry key (.string text) ++ rest) =
      .ok ((key, .string text) :: entries) :=
  Data.encodeCalls_entry key (Data.encode_string text) (by simp [Literal.isVoid]) hrest

mutual

/-- The calls of the wire form give the expression of the schema. -/
theorem encode_toData : ∀ schema : Schema, schema.toData.encode = .ok schema.literal
  | any title => by
    simp only [toData, literal]
    refine Data.encode_map (encodeCalls_text "type" "any" ?_)
    simpa using encodeCalls_titleCalls title Data.encodeCalls_nil
  | intrinsic kind => by
    simp only [toData, literal]
    refine Data.encode_map ?_
    simpa using encodeCalls_text "type" kind.name Data.encodeCalls_nil
  | object title properties required => by
    have hproperties := Data.encode_map (encode_propertiesToCalls properties)
    have hrequired := Data.encode_sequence (Data.encodeAll_strings required)
    have hrest := Data.encodeCalls_entry "required" hrequired
      (by simp [Literal.isVoid]) Data.encodeCalls_nil
    have hentries := Data.encodeCalls_entry "properties" hproperties
      (by simp [Literal.isVoid]) hrest
    simp only [toData, literal, List.append_assoc]
    refine Data.encode_map (encodeCalls_text "type" "object" ?_)
    simpa using encodeCalls_titleCalls title hentries
  | array items => by
    have hitems := Data.encodeCalls_entry "items" (encode_toData items)
      (isVoid_literal items) Data.encodeCalls_nil
    simp only [toData, literal]
    refine Data.encode_map (encodeCalls_text "type" "array" ?_)
    simpa using hitems
  | reference name => by
    simp only [toData, literal]
    refine Data.encode_map ?_
    simpa using encodeCalls_text "$ref" name Data.encodeCalls_nil

/-- The calls of the properties give their expressions, in order. -/
theorem encode_propertiesToCalls : ∀ properties : List (String × Schema),
    Data.encodeCalls none (propertiesToCalls properties) = .ok (propertyLiterals properties)
  | [] => by simp [propertiesToCalls, propertyLiterals, Data.encodeCalls_nil]
  | (name, schema) :: rest => by
    simp only [propertiesToCalls, propertyLiterals]
    exact Data.encodeCalls_entry name (encode_toData schema) (isVoid_literal schema)
      (encode_propertiesToCalls rest)

end

/-- The entry of a title makes the calls of the title. -/
theorem entriesToCalls_titleEntry (title : Option String) :
    Json.entriesToCalls (titleEntry title) = titleCalls title := by
  cases title <;> simp [titleEntry, titleCalls, Json.entriesToCalls, Json.toData]

mutual

/-- The JSON value of the wire form makes the calls of the wire form. -/
theorem toData_toJson : ∀ schema : Schema, schema.toJson.toData = schema.toData
  | any title => by
    simp [toJson, toData, Json.toData, Json.entriesToCalls, entriesToCalls_titleEntry]
  | intrinsic kind => by
    simp [toJson, toData, Json.toData, Json.entriesToCalls]
  | object title properties required => by
    have hproperties := entriesToCalls_propertiesToJson properties
    simp [toJson, toData, Json.toData, Json.entriesToCalls, Json.entriesToCalls_append,
      entriesToCalls_titleEntry, hproperties, Json.elementsToData_strings]
  | array items => by
    simp [toJson, toData, Json.toData, Json.entriesToCalls, toData_toJson items]
  | reference name => by
    simp [toJson, toData, Json.toData, Json.entriesToCalls]

/-- The JSON values of the properties make the calls of the properties. -/
theorem entriesToCalls_propertiesToJson : ∀ properties : List (String × Schema),
    Json.entriesToCalls (propertiesToJson properties) = propertiesToCalls properties
  | [] => by simp [propertiesToJson, propertiesToCalls, Json.entriesToCalls]
  | (name, schema) :: rest => by
    simp [propertiesToJson, propertiesToCalls, Json.entriesToCalls, toData_toJson schema,
      entriesToCalls_propertiesToJson rest]

end

/-! ## What the expression tells -/

/-- A text that spells no kind is not the name of one. -/
theorem name_ne {text : String} (h : Intrinsic.ofName? text = none) (kind : Intrinsic) :
    kind.name ≠ text := by
  rintro rfl
  simp at h

theorem name_injective {kind other : Intrinsic} (h : kind.name = other.name) : kind = other := by
  have hkind : some kind = some other := by
    rw [← Intrinsic.ofName?_name kind, h, Intrinsic.ofName?_name]
  exact Option.some.inj hkind

/-- Titles are told apart by their properties, also in front of properties that follow. -/
theorem titleProperty_append_inj {title other : Option String} {key : String}
    {value value' : Literal} {rest rest' : List (String × Literal)} (hkey : key ≠ "title")
    (h : titleProperty title ++ (key, value) :: rest =
      titleProperty other ++ (key, value') :: rest') :
    title = other ∧ value = value' ∧ rest = rest' := by
  cases title <;> cases other <;> simp_all [titleProperty]

theorem titleProperty_injective {title other : Option String}
    (h : titleProperty title = titleProperty other) : title = other := by
  cases title <;> cases other <;> simp_all [titleProperty]

theorem map_string_injective {texts others : List String}
    (h : texts.map Literal.string = others.map Literal.string) : texts = others :=
  (List.map_inj_right fun _ _ heq => Literal.string.inj heq).1 h

mutual

/-- The expression tells the schema, the order of properties and of required names included. -/
theorem literal_injective : ∀ {schema other : Schema},
    schema.literal = other.literal → schema = other
  | any title, other, h => by
    cases other <;> simp [literal] at h
    case any => exact congrArg any (titleProperty_injective h)
    case intrinsic kind => exact absurd h.1.symm (name_ne (by decide) kind)
  | intrinsic kind, other, h => by
    cases other <;> simp [literal] at h
    case any => exact absurd h.1 (name_ne (by decide) kind)
    case intrinsic => exact congrArg intrinsic (name_injective h)
  | object title properties required, other, h => by
    cases other <;> simp [literal] at h
    case object =>
      obtain ⟨rfl, hproperties, hrequired⟩ := titleProperty_append_inj (by decide) h
      have hlists := propertyLiterals_injective (Literal.object.inj hproperties).2
      simp only [List.cons.injEq, Prod.mk.injEq, Literal.array.injEq] at hrequired
      rw [hlists, map_string_injective hrequired.1.2.2]
  | array items, other, h => by
    cases other <;> simp [literal] at h
    case array => exact congrArg array (literal_injective h)
  | reference name, other, h => by
    cases other <;> simp [literal] at h
    case reference => exact congrArg reference h

/-- The expressions of the properties tell the properties, in their order. -/
theorem propertyLiterals_injective : ∀ {properties others : List (String × Schema)},
    propertyLiterals properties = propertyLiterals others → properties = others
  | [], [], _ => rfl
  | [], _ :: _, h => by simp [propertyLiterals] at h
  | _ :: _, [], h => by simp [propertyLiterals] at h
  | (name, schema) :: rest, (name', schema') :: rest', h => by
    simp only [propertyLiterals, List.cons.injEq, Prod.mk.injEq] at h
    obtain ⟨⟨rfl, hschema⟩, hrest⟩ := h
    rw [literal_injective hschema, propertyLiterals_injective hrest]

end

/-! ## Losslessness -/

/-- A schema is always encoded, and to the same expression by both routes: its whole wire form.
The expression and the JSON value both tell the schema. -/
theorem encode_lossless (schema : Schema) :
    schema.toData.encode = .ok schema.literal ∧
    schema.toJson.toData.encode = .ok schema.literal ∧
    ∀ other : Schema, (schema.toData.encode = other.toData.encode ↔ schema = other) ∧
      (schema.toJson = other.toJson ↔ schema = other) := by
  refine ⟨encode_toData schema, by rw [toData_toJson, encode_toData], fun other => ⟨?_, ?_⟩⟩
  · rw [encode_toData, encode_toData, Except.ok.injEq]
    exact ⟨literal_injective, congrArg literal⟩
  · refine ⟨fun hjson => ?_, congrArg toJson⟩
    have hdata : schema.toData = other.toData := by
      rw [← toData_toJson, hjson, toData_toJson]
    have hencode : schema.toData.encode = other.toData.encode := by rw [hdata]
    rw [encode_toData, encode_toData, Except.ok.injEq] at hencode
    exact literal_injective hencode

end Schema

end GraphSchema
