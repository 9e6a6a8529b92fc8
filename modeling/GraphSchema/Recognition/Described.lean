import GraphSchema.Recognition.Shipped
import GraphSchema.Text.Shown

/-!
# Registries described by rules

A rule describes a recognizer: one of the shipped ones, or one of five small ones that are of
use for putting a registry together by hand.
-/

namespace GraphSchema

/-- The description of a recognizer. -/
inductive Rule where
  | intrinsic
  | builtin
  | object
  /-- Claim every type with one schema. -/
  | const (schema : Schema)
  /-- Claim the types with a symbol of this name with one schema. -/
  | named (name : String) (schema : Schema)
  /-- Claim the types with arguments as records of their arguments, by place. -/
  | args
  /-- Claim the types with a property of this name with the schema of that property. -/
  | member (name : String)
  /-- Claim every type with one schema, marking the type as in progress meanwhile. -/
  | guard (schema : Schema)

namespace Rule

/-- The name of a rule. -/
def name : Rule → String
  | intrinsic => "intrinsic"
  | builtin => "builtin"
  | object => "object"
  | const _ => "const"
  | named _ _ => "named"
  | args => "args"
  | member _ => "member"
  | guard _ => "guard"

variable {τ σ ν : Type}

open Inquiry (question schemaOf within)

/-- Resolve types as the properties of a record, named by their places from `place` on. -/
def resolvePlaces : List τ → Nat → Inquiry τ σ ν (List (String × Schema))
  | [], _ => return []
  | ty :: rest, place => do
    let schema ← schemaOf ty
    return (toString place, schema) :: (← resolvePlaces rest (place + 1))

/-- The first symbol of a name. -/
def firstNamed (name : String) : List σ → Inquiry τ σ ν (Option σ)
  | [] => return none
  | symbol :: rest => do
    if (← question (.symbolName symbol)) = name then return some symbol
    else firstNamed name rest

/-- The inquiry that a rule describes. -/
def recognize [DecidableEq τ] (rule : Rule) (steps : Nat) (context : Context ν) (ty : τ) :
    Inquiry τ σ ν (Option Schema) :=
  match rule with
  | intrinsic => recognizeIntrinsic ty
  | builtin => recognizeContainer ty
  | object => recognizeObject steps context ty
  | const schema => return some schema
  | named name schema => do
    return if (← symbolNameOf ty) = some name then some schema else none
  | args => do
    match ← question (.arguments ty) with
    | none => return none
    | some arguments =>
      let properties ← resolvePlaces arguments 0
      return some (.object none properties (Fields.keys properties))
  | member name => do
    match ← firstNamed name (← question (.properties ty)) with
    | none => return none
    | some symbol => return some (← schemaOf (← question (.memberType symbol context.location)))
  | guard schema => within ty (return some schema)

/-- The recognizer that a rule describes. -/
def toRecognizer [DecidableEq τ] (rule : Rule) : Recognizer τ σ ν where
  name := rule.name
  recognize := rule.recognize

/-- The rules of the shipped registry. -/
def shipped : List Rule := [intrinsic, builtin, object]

theorem mem_shipped {rule : Rule} :
    rule ∈ shipped ↔ rule = intrinsic ∨ rule = builtin ∨ rule = object := by
  simp [shipped]

end Rule

/-- The registry that rules describe. -/
def Registry.ofRules {τ σ ν : Type} [DecidableEq τ] (rules : List Rule) : Registry τ σ ν :=
  rules.map Rule.toRecognizer

/-- The names of recognizers between brackets, each quoted. -/
def Registry.namesText {τ σ ν : Type} (registry : Registry τ σ ν) : String :=
  "[" ++ String.intercalate ", " (registry.names.map Text.Shown.quote) ++ "]"

end GraphSchema
