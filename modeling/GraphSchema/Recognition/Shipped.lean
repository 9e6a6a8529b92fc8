import GraphSchema.Recognition.Inquiry
import GraphSchema.Recognition.Signature

/-!
# The shipped recognizers

`recognizeIntrinsic` claims primitive leaves, `recognizeContainer` arrays, dates and promises by
their signatures, and `recognizeObject` every record.  A record is looked at in this order: a
container is left to its own rule; a tuple is an array of anything; an instantiation is replaced
by its definition where the options ask for that; else the members inherited through base types
are overlaid by the type's own.
-/

namespace GraphSchema

variable {τ σ ν : Type}

open Inquiry (question schemaOf within)

/-- Claim a primitive leaf. -/
def recognizeIntrinsic (ty : τ) : Inquiry τ σ ν (Option Schema) := do
  return (← question (.intrinsic ty)).map Schema.intrinsic

/-! ## Containers -/

/-- The items of an array: its argument where it is an instantiation with exactly one. -/
def arrayItems (ty : τ) : Inquiry τ σ ν Schema := do
  match ← question (.arguments ty) with
  | some [item] =>
    if (← question (.flags ty)).reference then schemaOf item else return .any none
  | _ => return .any none

/-- Claim an array, a date or a promise. -/
def recognizeContainer (ty : τ) : Inquiry τ σ ν (Option Schema) := do
  if !(← question (.flags ty)).object then return none
  else
    match ← question (.symbol ty) with
    | none => return none
    | some symbol =>
      match ← question (.memberNames symbol) with
      | none => return none
      | some members =>
        let name ← question (.symbolName symbol)
        if Signature.array.accepts name members then return some (.array (← arrayItems ty))
        else if Signature.date.accepts name members then
          return some (.reference Schema.dateReference)
        else if Signature.promise.accepts name members then
          return some (.reference Schema.promiseReference)
        else return none

/-! ## Records -/

/-- The properties of a schema that is a record. -/
def Schema.recordProperties : Option Schema → Fields Schema
  | some (.object _ properties _) => properties
  | _ => []

/-- The properties inherited through base types, later ones over earlier ones.  A base that is
not a record contributes nothing. -/
def inheritFrom (recognize : τ → Inquiry τ σ ν (Option Schema)) :
    List τ → Fields Schema → Inquiry τ σ ν (Fields Schema)
  | [], inherited => return inherited
  | base :: rest, inherited => do
    let schema ← within base (recognize base)
    inheritFrom recognize rest (Fields.merge inherited (Schema.recordProperties schema))

/-- The members of a type, each with the schema of its type as seen from the location. -/
def resolveMembers (location : ν) : List σ → Fields Schema → Inquiry τ σ ν (Fields Schema)
  | [], members => return members
  | symbol :: rest, members => do
    let ty ← question (.memberType symbol location)
    let name ← question (.symbolName symbol)
    let schema ← schemaOf ty
    resolveMembers location rest (Fields.put members name schema)

/-- The name of the symbol of a type. -/
def symbolNameOf (ty : τ) : Inquiry τ σ ν (Option String) := do
  match ← question (.symbol ty) with
  | some symbol => return some (← question (.symbolName symbol))
  | none => return none

/-- The definition that stands for an instantiation, where the options ask for it and the type
is not that definition itself. -/
def redirectTarget [DecidableEq τ] (options : Options) (flags : Flags) (ty : τ) :
    Inquiry τ σ ν (Option τ) := do
  if flags.reference ∧ options.generics = .target then
    return (← question (.target ty)).filter (· ≠ ty)
  else return none

/-- A record made of inherited and own members. -/
def memberRecord (recognize : τ → Inquiry τ σ ν (Option Schema)) (location : ν) (flags : Flags)
    (ty : τ) : Inquiry τ σ ν (Option Schema) := do
  let bases ← if flags.interface then question (.bases ty) else pure none
  let inherited ← inheritFrom recognize (bases.getD []) []
  let own ← resolveMembers location (← question (.properties ty)) []
  let title ← symbolNameOf ty
  let properties := Fields.merge inherited own
  let required := Names.union (Names.union [] (Fields.keys inherited)) (Fields.keys own)
  return some (.object title properties required)

/-- Claim a record. -/
def recognizeObject [DecidableEq τ] : Nat → Context ν → τ → Inquiry τ σ ν (Option Schema)
  | 0, _, _ => .exhausted
  | steps + 1, context, ty => do
    let flags ← question (.flags ty)
    if !flags.object then return none
    else
      match ← recognizeContainer ty with
      | some container => return some container
      | none =>
        if flags.tuple then return some (.array (.any none))
        else
          let redirected ←
            match ← redirectTarget context.options flags ty with
            | some target => within target (recognizeObject steps context target)
            | none => pure none
          match redirected with
          | some schema => return some schema
          | none => memberRecord (recognizeObject steps context) context.location flags ty

/-! ## The registry -/

namespace Recognizer

/-- Primitive leaves. -/
def intrinsic : Recognizer τ σ ν where
  name := "intrinsic"
  recognize _ _ ty := recognizeIntrinsic ty

/-- Well-known containers. -/
def builtin : Recognizer τ σ ν where
  name := "builtin"
  recognize _ _ ty := recognizeContainer ty

/-- Records. -/
def object [DecidableEq τ] : Recognizer τ σ ν where
  name := "object"
  recognize steps context ty := recognizeObject steps context ty

end Recognizer

/-- The shipped recognizers.  Containers are records too, so they come before the general
rule. -/
def Registry.shipped [DecidableEq τ] : Registry τ σ ν :=
  [Recognizer.intrinsic, Recognizer.builtin, Recognizer.object]

end GraphSchema
