import Mathlib
import GraphSchema.Proofs.Resolution.Claims
import GraphSchema.Recognition.Described

/-!
# Kinds of schemas that the shipped recognizers make

The shipped recognizers put schemas together in a few ways: primitive leaves, arrays of a schema or
of anything, the two fragments for dates and promises, and records of inherited and own properties.
A kind of schemas that is closed under these (`Schema.Made`) is kept by all of them, in whatever
order they are registered (`Schema.Made.claims`).  Nothing is assumed of the checker.
-/

namespace GraphSchema

variable {τ σ ν : Type}

/-- A kind of schemas, with a kind of fields to make records of, that is closed under what the
shipped recognizers do. -/
structure Schema.Made (kind : Schema → Prop) (fieldsKind : Fields Schema → Prop) : Prop where
  intrinsic : ∀ intrinsic, kind (.intrinsic intrinsic)
  array : ∀ items, kind items → kind (.array items)
  /-- An array of unknown items is of the kind, also where the items are not. -/
  arrayOfAny : kind (.array (.any none))
  date : kind (.reference dateReference)
  promise : kind (.reference promiseReference)
  nil : fieldsKind []
  put : ∀ fields name schema, fieldsKind fields → kind schema →
    fieldsKind (Fields.put fields name schema)
  /-- What a base type hands on can be merged into fields. -/
  inherit : ∀ fields claimed, fieldsKind fields → (∀ schema ∈ claimed, kind schema) →
    fieldsKind (Fields.merge fields (recordProperties claimed))
  object : ∀ title inherited own, fieldsKind inherited → fieldsKind own →
    kind (.object title (Fields.merge inherited own)
      (Names.union (Names.union [] (Fields.keys inherited)) (Fields.keys own)))

namespace Schema.Made

open Inquiry (Claims claims_none claims_some claims_within question yields_ask yields_bind
  yields_pure yields_schemaOf)

variable {kind : Schema → Prop} {fieldsKind : Fields Schema → Prop}

theorem claims_recognizeIntrinsic (h : Made kind fieldsKind) (ty : τ) :
    (recognizeIntrinsic ty : Inquiry τ σ ν _).Claims kind := by
  refine yields_ask fun intrinsic => ?_
  cases intrinsic with
  | none => exact claims_none
  | some intrinsic => exact claims_some (h.intrinsic intrinsic)

/-- The items of an array may be unknown, and then they need not be of the kind. -/
theorem yields_arrayItems (h : Made kind fieldsKind) (ty : τ) :
    (arrayItems ty : Inquiry τ σ ν _).Yields kind fun items => kind (.array items) := by
  refine yields_ask fun arguments => ?_
  split
  · refine yields_ask fun flags => ?_
    split
    · exact fun items hitems => h.array items hitems
    · exact yields_pure h.arrayOfAny
  · exact yields_pure h.arrayOfAny

theorem claims_recognizeContainer (h : Made kind fieldsKind) (ty : τ) :
    (recognizeContainer ty : Inquiry τ σ ν _).Claims kind := by
  refine yields_ask fun flags => ?_
  split
  · exact claims_none
  refine yields_ask fun symbol => ?_
  cases symbol with
  | none => exact claims_none
  | some symbol =>
    refine yields_ask fun members => ?_
    cases members with
    | none => exact claims_none
    | some members =>
      refine yields_ask fun name => ?_
      split
      · exact yields_bind (h.yields_arrayItems ty) fun items hitems => claims_some hitems
      split
      · exact claims_some h.date
      split
      · exact claims_some h.promise
      · exact claims_none

theorem yields_inheritFrom (h : Made kind fieldsKind)
    {recognize : τ → Inquiry τ σ ν (Option Schema)} (hrecognize : ∀ ty, (recognize ty).Claims kind)
    (bases : List τ) {inherited : Fields Schema} (hinherited : fieldsKind inherited) :
    (inheritFrom recognize bases inherited).Yields kind fieldsKind := by
  induction bases generalizing inherited with
  | nil => exact yields_pure hinherited
  | cons base rest ih =>
    refine yields_bind (claims_within (hrecognize base)) fun claimed hclaimed => ?_
    exact ih (h.inherit inherited claimed hinherited hclaimed)

theorem yields_resolveMembers (h : Made kind fieldsKind) (location : ν) (symbols : List σ)
    {fields : Fields Schema} (hfields : fieldsKind fields) :
    (resolveMembers location symbols fields : Inquiry τ σ ν _).Yields kind fieldsKind := by
  induction symbols generalizing fields with
  | nil => exact yields_pure hfields
  | cons symbol rest ih =>
    refine yields_ask fun ty => yields_ask fun name => ?_
    refine yields_bind (yields_schemaOf ty) fun schema hschema => ?_
    exact ih (h.put fields name schema hfields hschema)

/-- Titles may be anything. -/
theorem yields_symbolNameOf (ty : τ) :
    (symbolNameOf ty : Inquiry τ σ ν _).Yields kind fun _ => True := by
  refine yields_ask fun symbol => ?_
  cases symbol with
  | none => trivial
  | some symbol => exact fun _ => trivial

theorem claims_memberRecord (h : Made kind fieldsKind)
    {recognize : τ → Inquiry τ σ ν (Option Schema)} (hrecognize : ∀ ty, (recognize ty).Claims kind)
    (location : ν) (flags : Flags) (ty : τ) :
    (memberRecord recognize location flags ty).Claims kind := by
  -- What follows the question for base types, which is asked in one branch only.
  have hrest : ∀ bases : List τ, Claims kind (do
      let inherited ← inheritFrom recognize bases []
      let own ← resolveMembers location (← question (.properties ty)) []
      let title ← symbolNameOf ty
      return some (.object title (Fields.merge inherited own)
        (Names.union (Names.union [] (Fields.keys inherited)) (Fields.keys own)))) := by
    intro bases
    refine yields_bind (h.yields_inheritFrom hrecognize bases h.nil) fun inherited hinherited => ?_
    refine yields_ask fun symbols => ?_
    refine yields_bind (h.yields_resolveMembers location symbols h.nil) fun own hown => ?_
    refine yields_bind (yields_symbolNameOf ty) fun title _ => ?_
    exact claims_some (h.object title inherited own hinherited hown)
  rw [memberRecord]
  split
  · exact yields_ask fun bases => hrest (bases.getD [])
  · exact hrest []

/-- Definitions may be anything. -/
theorem yields_redirectTarget [DecidableEq τ] (options : Options) (flags : Flags) (ty : τ) :
    (redirectTarget options flags ty : Inquiry τ σ ν _).Yields kind fun _ => True := by
  rw [redirectTarget]
  split
  · exact fun _ => trivial
  · trivial

theorem claims_recognizeObject [DecidableEq τ] (h : Made kind fieldsKind) (steps : Nat)
    (context : Context ν) (ty : τ) :
    (recognizeObject steps context ty : Inquiry τ σ ν _).Claims kind := by
  induction steps generalizing ty with
  | zero => trivial
  | succ steps ih =>
    refine yields_ask fun flags => ?_
    split
    · exact claims_none
    refine yields_bind (h.claims_recognizeContainer ty) fun container hcontainer => ?_
    cases container with
    | some container => exact claims_some (hcontainer container rfl)
    | none =>
      dsimp only
      split
      · exact claims_some h.arrayOfAny
      -- A definition is looked at like the type itself, so what it is claimed with is of the kind.
      have hrecord := h.claims_memberRecord ih context.location flags ty
      refine yields_bind (yields_redirectTarget context.options flags ty) fun target _ => ?_
      cases target with
      | none => exact hrecord
      | some target =>
        refine yields_bind (claims_within (ih target)) fun redirected hredirected => ?_
        cases redirected with
        | none => exact hrecord
        | some schema => exact claims_some (hredirected schema rfl)

/-- The shipped recognizers claim types with schemas of the kind. -/
theorem claims [DecidableEq τ] (h : Made kind fieldsKind) {rule : Rule}
    (hrule : rule ∈ Rule.shipped) : (rule.toRecognizer : Recognizer τ σ ν).Claims kind := by
  rcases Rule.mem_shipped.mp hrule with rfl | rfl | rfl
  · exact fun _ _ ty => h.claims_recognizeIntrinsic ty
  · exact fun _ _ ty => h.claims_recognizeContainer ty
  · exact h.claims_recognizeObject

/-- So does every registry of them. -/
theorem claims_ofRules [DecidableEq τ] (h : Made kind fieldsKind) {rules : List Rule}
    (hrules : rules ⊆ Rule.shipped) :
    ∀ recognizer ∈ (Registry.ofRules rules : Registry τ σ ν), recognizer.Claims kind := by
  intro recognizer hrecognizer
  obtain ⟨rule, hrule, rfl⟩ := List.mem_map.mp hrecognizer
  exact h.claims (hrules hrule)

end Schema.Made

end GraphSchema
