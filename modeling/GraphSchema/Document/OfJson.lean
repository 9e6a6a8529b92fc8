import GraphSchema.Document.Content

/-!
# Documents from JSON values

A document is an object with the entry `types`, or an array of exactly one element, the value of
that entry.  A definition is an object with the tag `kind` somewhere among its entries, or an
array whose first element is the tag.
-/

namespace GraphSchema

/-- A mismatch at the value itself. -/
def mismatchHere {α : Type} (mismatch : Mismatch) : Except LoadFault α :=
  .error ⟨[], .mismatch mismatch, none⟩

/-- A reading of the value itself. -/
def readingHere {α : Type} (reading : Except Mismatch α) : Except LoadFault α :=
  reading.mapError fun mismatch => ⟨[], .mismatch mismatch, none⟩

/-- The key of the tag of a definition. -/
def tagKey : String := "kind"

/-- The key of the types of a document. -/
def typesKey : String := "types"

/-- The definition that a value spells. -/
def Definition.ofJson : Json → Except LoadFault (Definition String)
  | .object entries =>
    match Fields.get? entries tagKey with
    | none => mismatchHere (.missingField tagKey)
    | some tag => do
      let kind ← (readingHere tag.toKind).mapError (LoadFault.within (.key tagKey))
      readingHere (kind.readContent (.entries (entries.filter fun entry => entry.1 != tagKey)))
  | .array [] => mismatchHere (.missingField tagKey)
  | .array (tag :: values) => do
    let kind ← (readingHere tag.toKind).mapError (LoadFault.within (.index 0))
    readingHere (kind.readContent (.positions values))
  | other => mismatchHere (.wrongType other .definition)

namespace Document

/-- The definitions that a value spells, by id. -/
def typesOfJson : Json → Except LoadFault (Fields (Definition String))
  | .object entries => do
    let types ← entries.mapM fun entry => do
      let definition ←
        (Definition.ofJson entry.2).mapError (LoadFault.within (.key entry.1))
      return (entry.1, definition)
    return Fields.ofEntries types
  | other => mismatchHere (.wrongType other .map)

/-- The document that a value spells. -/
def ofJson : Json → Except LoadFault Document
  | .object entries =>
    match Fields.get? entries typesKey with
    | none => mismatchHere (.missingField typesKey)
    | some types => do
      return ⟨← (typesOfJson types).mapError (LoadFault.within (.key typesKey))⟩
  | .array [] => mismatchHere (.wrongLength 0 .document)
  | .array elements@(types :: rest) => do
    let types ← (typesOfJson types).mapError (LoadFault.within (.index 0))
    if rest.isEmpty then return ⟨types⟩
    else mismatchHere (.wrongLength elements.length .fewer)
  | other => mismatchHere (.wrongType other .document)

end Document

end GraphSchema
