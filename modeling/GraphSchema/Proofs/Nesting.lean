import Mathlib
import GraphSchema.Proofs.Fields
import GraphSchema.Schema

/-!
# How schemas nest

A schema is a tree: the root is at level 0, and the properties of a record and the items of an array
are one level below it.  `Schema.Below` gives a node of the tree the nodes above it, as many as its
level is.  `Schema.truncate` cuts a tree at a level, and `Schema.Beneath` relates a change of the
trees to the change that it makes one level below the root.
-/

namespace GraphSchema.Schema

/-- A node of a schema with the nodes that it lies under, the outermost first. -/
inductive Below : Schema → List Schema → Schema → Prop where
  | here (schema : Schema) : Below schema [] schema
  | property {title : Option String} {properties : Fields Schema} {required : List String}
      {name : String} {schema node : Schema} {above : List Schema}
      (hproperty : (name, schema) ∈ properties) (h : Below schema above node) :
      Below (.object title properties required) (.object title properties required :: above) node
  | items {schema node : Schema} {above : List Schema} (h : Below schema above node) :
      Below (.array schema) (.array schema :: above) node

/-- A change of schemas leaves the root as it is and makes another change to what is one level
below it. -/
structure Beneath (change below : Schema → Schema) : Prop where
  any : ∀ title, change (.any title) = .any title
  intrinsic : ∀ kind, change (.intrinsic kind) = .intrinsic kind
  reference : ∀ name, change (.reference name) = .reference name
  array : ∀ items, change (.array items) = .array (below items)
  object : ∀ title properties required, change (.object title properties required) =
    .object title (Fields.mapValues below properties) required
  /-- Items of which nothing is known stay so. -/
  unknown : below (.any none) = .any none

/-- To change nothing is to change nothing below. -/
theorem beneath_id : Beneath id id where
  any _ := rfl
  intrinsic _ := rfl
  reference _ := rfl
  array _ := rfl
  object _ _ _ := by simp [Fields.mapValues]
  unknown := rfl

/-! ## Cutting at a level -/

/-- Every subschema at a level is replaced by an untitled schema of anything. -/
def truncate : Nat → Schema → Schema
  | 0, _ => .any none
  | level + 1, .object title properties required =>
    .object title (Fields.mapValues (truncate level) properties) required
  | level + 1, .array items => .array (truncate level items)
  | _ + 1, schema => schema

/-- To cut below the root is to cut what is below it, one level earlier. -/
theorem beneath_truncate (level : Nat) : Beneath (truncate (level + 1)) (truncate level) where
  any _ := rfl
  intrinsic _ := rfl
  reference _ := rfl
  array _ := rfl
  object _ _ _ := rfl
  unknown := by cases level <;> rfl

/-- What is cut at a level has no node below that level. -/
theorem length_le_of_below_truncate {level : Nat} {schema node : Schema} {above : List Schema}
    (h : (schema.truncate level).Below above node) : above.length ≤ level := by
  induction level generalizing schema node above with
  | zero =>
    cases h
    exact Nat.le_refl 0
  | succ level ih =>
    cases schema with
    | object title properties required =>
      cases h with
      | here => exact Nat.zero_le _
      | property hproperty h =>
        obtain ⟨entry, -, heq⟩ := List.mem_map.mp hproperty
        cases heq
        exact Nat.succ_le_succ (ih h)
    | array items =>
      cases h with
      | here => exact Nat.zero_le _
      | items h => exact Nat.succ_le_succ (ih h)
    | any title =>
      cases h
      exact Nat.zero_le _
    | intrinsic kind =>
      cases h
      exact Nat.zero_le _
    | reference name =>
      cases h
      exact Nat.zero_le _

end GraphSchema.Schema
