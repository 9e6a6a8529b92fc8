import Mathlib
import GraphSchema.Proofs.Nesting
import GraphSchema.Proofs.Resolution.Reach

/-!
# Two resolutions compared

Two resolutions over the same answers can differ in the nesting limit, in the bounds on the nesting
of calls and in what is in progress.  `Answers.Compared` gathers what has to hold of the two sides
for a call for a record to come to the same on both, up to a change of the schemas that are nested
in it (`Compared.value_recognizeObject`).  It is enough that nested types are resolved to schemas
that the change relates.

On one side more types may be in progress than on the other, as long as each of them is an
instantiation whose definition is in progress on both (`Answers.Covers`).  Such a type is answered
with a back-reference on one side and looked at on the other, which ends at its definition with the
same back-reference.

Three consequences are about whole resolutions: a larger bound on the nesting of calls keeps every
schema (`Answers.resolveValue_mono`), an instantiation has the schema of its definition
(`ReplacedBy.resolveValue_eq`), and a smaller nesting limit cuts the schema at the level of the
limit (`Answers.resolveValue_truncate`).
-/

namespace GraphSchema

variable {τ σ ν : Type} {answers : Answers τ σ ν} {change below : Schema → Schema}

namespace Schema.Beneath

theorem recordProperties (h : Beneath change below) (schema : Option Schema) :
    Schema.recordProperties (schema.map change) =
      Fields.mapValues below (Schema.recordProperties schema) := by
  rcases schema with _ | schema
  · rfl
  cases schema with
  | any title => rw [Option.map_some, h.any]; rfl
  | intrinsic kind => rw [Option.map_some, h.intrinsic]; rfl
  | object title properties required => rw [Option.map_some, h.object]; rfl
  | array items => rw [Option.map_some, h.array]; rfl
  | reference name => rw [Option.map_some, h.reference]; rfl

theorem backReference (h : Beneath change below) (ty : τ) :
    change (answers.backReference ty) = answers.backReference ty :=
  h.reference _

theorem containerSchema (h : Beneath change below) {items items' : τ → Option Schema} {ty : τ}
    {container : Container} {schema : Schema}
    (hitems : ∀ item schema, items item = some schema → items' item = some (below schema))
    (hschema : answers.containerSchema items ty container = some schema) :
    answers.containerSchema items' ty container = some (change schema) := by
  cases container with
  | date =>
    cases hschema
    rw [h.reference]
    rfl
  | promise =>
    cases hschema
    rw [h.reference]
    rfl
  | array =>
    obtain ⟨inside, hinside, rfl⟩ := Option.map_eq_some_iff.mp hschema
    rw [h.array, Answers.containerSchema]
    refine Option.map_eq_some_iff.mpr ⟨below inside, ?_, rfl⟩
    cases hitem : answers.item? ty with
    | none =>
      rw [hitem] at hinside
      cases hinside
      rw [h.unknown]
      rfl
    | some item =>
      rw [hitem] at hinside
      exact hitems item inside hinside

theorem inherit (h : Beneath change below) {record record' : τ → Option (Option Schema)}
    (hrecord : ∀ base claimed, record base = some claimed →
      record' base = some (claimed.map change))
    {bases : List τ} {fields result : Fields Schema}
    (hresult : Answers.inherit record bases fields = some result) :
    Answers.inherit record' bases (Fields.mapValues below fields) =
      some (Fields.mapValues below result) := by
  induction bases generalizing fields with
  | nil =>
    cases hresult
    rfl
  | cons base rest ih =>
    obtain ⟨next, hnext, hrest⟩ := Option.bind_eq_some_iff.mp hresult
    obtain ⟨claimed, hclaimed, rfl⟩ := Option.map_eq_some_iff.mp hnext
    rw [Answers.inherit, List.foldlM_cons, hrecord base claimed hclaimed, Option.map_some,
      h.recordProperties, ← Fields.mapValues_merge]
    exact ih hrest

theorem overlay {schemaOf schemaOf' : τ → Option Schema}
    (hschemaOf : ∀ member schema, schemaOf member = some schema →
      schemaOf' member = some (below schema))
    {members : List (String × τ)} {fields result : Fields Schema}
    (hresult : Answers.overlay schemaOf members fields = some result) :
    Answers.overlay schemaOf' members (Fields.mapValues below fields) =
      some (Fields.mapValues below result) := by
  induction members generalizing fields with
  | nil =>
    cases hresult
    rfl
  | cons member rest ih =>
    obtain ⟨next, hnext, hrest⟩ := Option.bind_eq_some_iff.mp hresult
    obtain ⟨schema, hschema, rfl⟩ := Option.map_eq_some_iff.mp hnext
    rw [Answers.overlay, List.foldlM_cons, hschemaOf member.2 schema hschema, Option.map_some,
      ← Fields.mapValues_put]
    exact ih hrest

theorem recordSchema (h : Beneath change below) {location location' : ν}
    (hmembers : answers.members location' = answers.members location)
    {record record' : τ → Option (Option Schema)} {schemaOf schemaOf' : τ → Option Schema}
    (hrecord : ∀ base claimed, record base = some claimed →
      record' base = some (claimed.map change))
    (hschemaOf : ∀ member schema, schemaOf member = some schema →
      schemaOf' member = some (below schema))
    {ty : τ} {schema : Schema}
    (hschema : answers.recordSchema location record schemaOf ty = some schema) :
    answers.recordSchema location' record' schemaOf' ty = some (change schema) := by
  obtain ⟨inherited, hinherited, hrest⟩ := Option.bind_eq_some_iff.mp hschema
  obtain ⟨own, hown, rfl⟩ := Option.map_eq_some_iff.mp hrest
  have hinherited' := h.inherit hrecord hinherited
  have hown' := Beneath.overlay hschemaOf hown
  rw [← hmembers] at hown'
  rw [Answers.recordSchema]
  refine Option.bind_eq_some_iff.mpr ⟨_, hinherited', ?_⟩
  refine Option.map_eq_some_iff.mpr ⟨_, hown', ?_⟩
  rw [h.object, Fields.mapValues_merge, Fields.keys_mapValues, Fields.keys_mapValues]

end Schema.Beneath

namespace Answers

open Inquiry (value_within)

variable [DecidableEq τ]

/-! ## Types in progress -/

variable (answers) in
/-- An instantiation that is resolved as its definition. -/
structure ReplacedBy (options : Options) (ty target : τ) : Prop where
  object : (answers (.flags ty)).object
  intrinsic : answers (.intrinsic ty) = none
  container : answers.container? ty = none
  tuple : (answers (.flags ty)).tuple = false
  redirect : answers.redirect? options ty = some target
  symbolName : answers.symbolName ty = answers.symbolName target

variable (answers) in
/-- All types of a list are in progress on the other side, and beyond them only instantiations of
definitions that are in the list. -/
structure Covers (options : Options) (active more : List τ) : Prop where
  subset : active ⊆ more
  replaced : ∀ ty ∈ more, ty ∉ active → ∃ target ∈ active, answers.ReplacedBy options ty target

variable {options options' : Options} {active more : List τ} {ty target : τ}

theorem Covers.refl (options : Options) (active : List τ) : answers.Covers options active active :=
  ⟨List.Subset.refl _, fun _ h hnew => absurd h hnew⟩

theorem Covers.cons (h : answers.Covers options active more) (ty : τ) :
    answers.Covers options (ty :: active) (ty :: more) := by
  refine ⟨List.cons_subset_cons ty h.subset, fun other hother hnew => ?_⟩
  obtain ⟨hne, hnew⟩ := not_or.mp (mt List.mem_cons.mpr hnew)
  obtain ⟨target, htarget, hreplaced⟩ := h.replaced other
    ((List.mem_cons.mp hother).resolve_left hne) hnew
  exact ⟨target, List.mem_cons_of_mem _ htarget, hreplaced⟩

theorem redirect?_congr (h : options'.generics = options.generics) (ty : τ) :
    answers.redirect? options' ty = answers.redirect? options ty := by
  rw [redirect?, redirect?, h]

variable {location : ν} {steps fuel : Nat} {nested : List τ → τ → Option Schema}

/-- A call for an instantiation comes to a back-reference while its definition is in progress. -/
theorem ReplacedBy.eq_backReference (h : answers.ReplacedBy options ty target)
    (htarget : target ∈ active) {claimed : Option Schema}
    (hvalue : (recognizeObject steps ⟨options, location⟩ ty).value answers nested active =
      some claimed) : claimed = some (answers.backReference ty) := by
  cases steps with
  | zero => cases hvalue
  | succ steps =>
    rw [value_recognizeObject, if_pos h.object, h.container, Option.elim_none, h.tuple,
      if_neg Bool.false_ne_true, h.redirect, Option.elim_some, value_within,
      if_pos htarget] at hvalue
    cases hvalue
    rw [backReference, backReference, h.symbolName]

theorem ReplacedBy.dispatchValue_eq (h : answers.ReplacedBy options ty target)
    (htarget : target ∈ active) {title : Option String} {schema : Schema}
    (hvalue : answers.dispatchValue options nested fuel location active ty title
      Registry.shipped = some schema) : schema = answers.backReference ty := by
  rw [dispatchValue_shipped, h.intrinsic, Option.map_none, Option.elim_none, h.container,
    Option.elim_none] at hvalue
  obtain ⟨claimed, hclaimed, hvalue⟩ := Option.bind_eq_some_iff.mp hvalue
  cases h.eq_backReference htarget hclaimed
  exact (Option.some.inj hvalue).symm

/-! ## Calls -/

variable (answers) in
/-- Two sides on which a call for a record comes to the same, up to a change of what is nested. -/
structure Compared (left right : Context ν) (change below : Schema → Schema)
    (nested nested' : List τ → τ → Option Schema) : Prop where
  beneath : Schema.Beneath change below
  mode : right.options.generics = left.options.generics
  members : answers.members right.location = answers.members left.location
  nested : ∀ {active more part schema}, answers.Covers left.options active more →
    nested active part = some schema → nested' more part = some (below schema)

variable {left right : Context ν} {nested' : List τ → τ → Option Schema}

/-- Under the guard a type may be in progress on the right side only. -/
theorem Compared.value_within (h : answers.Compared left right change below nested nested')
    {steps' : Nat} (hcovers : answers.Covers left.options active more)
    (hcall : ∀ {active more claimed}, answers.Covers left.options active more →
      (recognizeObject steps left ty).value answers nested active = some claimed →
      (recognizeObject steps' right ty).value answers nested' more = some (claimed.map change))
    {claimed : Option Schema}
    (hvalue : (Inquiry.within ty (recognizeObject steps left ty)).value answers nested active =
      some claimed) :
    (Inquiry.within ty (recognizeObject steps' right ty)).value answers nested' more =
      some (claimed.map change) := by
  rw [Inquiry.value_within] at hvalue ⊢
  have hback : some (answers.backReference ty) = (some (answers.backReference ty)).map change := by
    rw [Option.map_some, h.beneath.backReference]
  by_cases hactive : ty ∈ active
  · rw [if_pos hactive] at hvalue
    rw [if_pos (hcovers.subset hactive), ← Option.some.inj hvalue, ← hback]
  rw [if_neg hactive] at hvalue
  by_cases hmore : ty ∈ more
  · obtain ⟨target, htarget, hreplaced⟩ := hcovers.replaced ty hmore hactive
    rw [if_pos hmore,
      hreplaced.eq_backReference (List.mem_cons_of_mem _ htarget) hvalue, ← hback]
  · rw [if_neg hmore]
    exact hcall (hcovers.cons ty) hvalue

/-- A call for a record comes to the same on both sides, up to the change. -/
theorem Compared.value_recognizeObject (h : answers.Compared left right change below nested nested')
    {steps' : Nat} (hsteps : steps ≤ steps') (hcovers : answers.Covers left.options active more)
    {claimed : Option Schema}
    (hvalue : (recognizeObject steps left ty).value answers nested active = some claimed) :
    (recognizeObject steps' right ty).value answers nested' more = some (claimed.map change) := by
  induction steps generalizing steps' active more ty claimed with
  | zero => cases hvalue
  | succ steps ih =>
    obtain ⟨steps', rfl⟩ : ∃ rest, steps' = rest + 1 := ⟨steps' - 1, by omega⟩
    have hwithin : ∀ other claimed,
        (Inquiry.within other (recognizeObject steps left other)).value answers nested active =
          some claimed →
        (Inquiry.within other (recognizeObject steps' right other)).value answers nested' more =
          some (claimed.map change) :=
      fun other claimed => h.value_within hcovers fun hcovers => ih (by omega) hcovers
    have hnested : ∀ part schema, nested active part = some schema →
        nested' more part = some (below schema) := fun _ _ => h.nested hcovers
    -- Which rule decides is read off the answers and off what the definition comes to, and that is
    -- nothing on one side where it is nothing on the other.
    rw [GraphSchema.value_recognizeObject] at hvalue ⊢
    split at hvalue
    · rename_i hobject
      rw [if_pos hobject]
      cases hcontainer : answers.container? ty with
      | some container =>
        rw [hcontainer, Option.elim_some] at hvalue
        obtain ⟨schema, hschema, rfl⟩ := Option.map_eq_some_iff.mp hvalue
        rw [Option.elim_some, h.beneath.containerSchema hnested hschema]
        rfl
      | none =>
        rw [hcontainer, Option.elim_none] at hvalue
        rw [Option.elim_none]
        split at hvalue
        · rename_i htuple
          cases hvalue
          rw [if_pos htuple, Option.map_some, h.beneath.array, h.beneath.unknown]
        · rename_i htuple
          obtain ⟨redirected, hredirected, hvalue⟩ := Option.bind_eq_some_iff.mp hvalue
          rw [if_neg htuple, redirect?_congr h.mode]
          refine Option.bind_eq_some_iff.mpr ⟨redirected.map change, ?_, ?_⟩
          · cases htarget : answers.redirect? left.options ty with
            | none =>
              rw [htarget] at hredirected
              cases hredirected
              rfl
            | some target =>
              rw [htarget] at hredirected
              exact hwithin target redirected hredirected
          · cases redirected with
            | some schema =>
              cases hvalue
              rfl
            | none =>
              obtain ⟨schema, hschema, rfl⟩ := Option.map_eq_some_iff.mp hvalue
              have hrecord := h.beneath.recordSchema h.members hwithin hnested hschema
              rw [Option.map_none, Option.elim_none, hrecord]
              rfl
    · rename_i hobject
      cases hvalue
      rw [if_neg hobject]
      rfl

theorem Compared.dispatchValue {options options' : Options} {location location' : ν}
    (h : answers.Compared ⟨options, location⟩ ⟨options', location'⟩ change below nested nested')
    {fuel' : Nat} (hfuel : fuel ≤ fuel') (hcovers : answers.Covers options active more)
    {title : Option String} {schema : Schema}
    (hvalue : answers.dispatchValue options nested fuel location active ty title
      Registry.shipped = some schema) :
    answers.dispatchValue options' nested' fuel' location' more ty title Registry.shipped =
      some (change schema) := by
  rw [dispatchValue_shipped] at hvalue ⊢
  cases hintrinsic : answers (.intrinsic ty) with
  | some kind =>
    rw [hintrinsic] at hvalue
    cases hvalue
    rw [h.beneath.intrinsic]
    rfl
  | none =>
    rw [hintrinsic, Option.map_none, Option.elim_none] at hvalue
    rw [Option.map_none, Option.elim_none]
    cases hcontainer : answers.container? ty with
    | some container =>
      rw [hcontainer] at hvalue
      exact h.beneath.containerSchema (fun _ _ => h.nested hcovers) hvalue
    | none =>
      rw [hcontainer, Option.elim_none] at hvalue
      obtain ⟨claimed, hclaimed, hvalue⟩ := Option.bind_eq_some_iff.mp hvalue
      rw [Option.elim_none, h.value_recognizeObject hfuel hcovers hclaimed, Option.bind_some]
      cases claimed with
      | none =>
        cases hvalue
        rw [h.beneath.any]
        rfl
      | some schema =>
        cases hvalue
        rfl

/-! ## Larger bounds -/

/-- With a larger bound on the nesting of calls, and with instantiations in progress beside their
definitions, a resolution has the same schema. -/
theorem resolveValue_mono {location location' : ν}
    (hmembers : answers.members location' = answers.members location) {fuel' depth : Nat}
    (hfuel : fuel ≤ fuel') (hcovers : answers.Covers options active more) {title : Option String}
    {schema : Schema}
    (h : answers.resolveValue Registry.shipped options location fuel depth active ty title =
      some schema) :
    answers.resolveValue Registry.shipped options location' fuel' depth more ty title =
      some schema := by
  induction fuel generalizing fuel' depth active more ty title schema with
  | zero => cases h
  | succ fuel ih =>
    obtain ⟨fuel', rfl⟩ : ∃ rest, fuel' = rest + 1 := ⟨fuel' - 1, by omega⟩
    have hsides : answers.Compared ⟨options, location⟩ ⟨options, location'⟩ id id
        (fun active ty =>
          answers.resolveValue Registry.shipped options location fuel (depth + 1) active ty none)
        (fun active ty =>
          answers.resolveValue Registry.shipped options location' fuel' (depth + 1) active ty
            none) :=
      ⟨Schema.beneath_id, rfl, hmembers, fun hcovers h => ih (by omega) hcovers h⟩
    rw [resolveValue] at h ⊢
    split at h
    · rename_i hlimit
      rw [if_pos hlimit]
      exact h
    rename_i hlimit
    rw [if_neg hlimit]
    split at h
    · rename_i hactive
      rw [if_pos (hcovers.subset hactive)]
      exact h
    rename_i hactive
    by_cases hmore : ty ∈ more
    · -- The right side answers at once what the left side has found at the definition.
      obtain ⟨target, htarget, hreplaced⟩ := hcovers.replaced ty hmore hactive
      rw [if_pos hmore, hreplaced.dispatchValue_eq (List.mem_cons_of_mem _ htarget) h]
    · rw [if_neg hmore]
      exact hsides.dispatchValue (by omega) (hcovers.cons ty) h

/-! ## Definitions in place of instantiations -/

theorem ne_of_redirect? (h : answers.redirect? options ty = some target) : target ≠ ty := by
  unfold redirect? at h
  split at h
  · exact of_decide_eq_true (Option.filter_eq_some_iff.mp h).2
  · cases h

/-- An instantiation has the schema of the definition that stands for it.  The definition is entered
while the instantiation is in progress, which its own resolution does not see. -/
theorem ReplacedBy.resolveValue_eq {location location' : ν}
    (hmembers : answers.members location' = answers.members location)
    (h : answers.ReplacedBy options ty target) (hobject : (answers (.flags target)).object)
    (hintrinsic : answers (.intrinsic target) = none)
    (hcontainer : answers.container? target = none) {depth : Nat}
    (hdepth : depth < options.maxDepth) (hty : ty ∉ active) (htarget : target ∉ active)
    {title title' : Option String} {schema : Schema}
    (hvalue : answers.resolveValue Registry.shipped options location fuel depth active target
      title = some schema) :
    answers.resolveValue Registry.shipped options location' (fuel + 1) depth active ty title' =
      some schema := by
  cases fuel with
  | zero => cases hvalue
  | succ steps =>
    rw [resolveValue, if_neg (Nat.not_le.mpr hdepth), if_neg htarget, dispatchValue_shipped,
      hintrinsic, Option.map_none, Option.elim_none, hcontainer, Option.elim_none] at hvalue
    obtain ⟨claimed, hclaimed, hvalue⟩ := Option.bind_eq_some_iff.mp hvalue
    have hsides : answers.Compared ⟨options, location⟩ ⟨options, location'⟩ id id
        (fun active ty =>
          answers.resolveValue Registry.shipped options location steps (depth + 1) active ty none)
        (fun active ty =>
          answers.resolveValue Registry.shipped options location' (steps + 1) (depth + 1) active ty
            none) :=
      ⟨Schema.beneath_id, rfl, hmembers, fun hcovers h =>
        resolveValue_mono hmembers (Nat.le_succ _) hcovers h⟩
    have hcovers : answers.Covers options (target :: active) (target :: ty :: active) := by
      refine ⟨List.cons_subset_cons _ (List.subset_cons_self _ _), fun other hother hnew => ?_⟩
      rcases List.mem_cons.mp hother with rfl | hother
      · exact absurd List.mem_cons_self hnew
      rcases List.mem_cons.mp hother with rfl | hother
      · exact ⟨target, List.mem_cons_self, h⟩
      · exact absurd (List.mem_cons_of_mem _ hother) hnew
    have hcall := hsides.value_recognizeObject le_rfl hcovers hclaimed
    have hnew : target ∉ ty :: active := List.not_mem_cons_of_ne_of_not_mem
      (ne_of_redirect? h.redirect) htarget
    cases claimed with
    | none =>
      rw [object_eq_false_of_value hclaimed] at hobject
      cases hobject
    | some found =>
      cases hvalue
      rw [resolveValue, if_neg (Nat.not_le.mpr hdepth), if_neg hty, dispatchValue_shipped,
        h.intrinsic, Option.map_none, Option.elim_none, h.container, Option.elim_none,
        GraphSchema.value_recognizeObject, if_pos h.object, h.container, Option.elim_none,
        h.tuple, if_neg Bool.false_ne_true, h.redirect, Option.elim_some, Inquiry.value_within,
        if_neg hnew, hcall]
      rfl

/-! ## Smaller limits -/

/-- A smaller nesting limit cuts the schema at the level where it is reached. -/
theorem resolveValue_truncate {limit depth : Nat} (hlimit : limit ≤ options.maxDepth)
    (hdepth : depth ≤ limit) {title : Option String} (htitle : depth = limit → title = none)
    {schema : Schema}
    (h : answers.resolveValue Registry.shipped options location fuel depth active ty title =
      some schema) :
    answers.resolveValue Registry.shipped { options with maxDepth := limit } location fuel depth
      active ty title = some (schema.truncate (limit - depth)) := by
  induction fuel generalizing depth active ty title schema with
  | zero => cases h
  | succ fuel ih =>
    rcases Nat.eq_or_lt_of_le hdepth with rfl | hlt
    · rw [resolveValue, if_pos le_rfl, htitle rfl, Nat.sub_self]
      rfl
    -- Nested types are compared with the same types in progress before they are cut.
    have hsides : answers.Compared ⟨options, location⟩
        ⟨{ options with maxDepth := limit }, location⟩ (Schema.truncate (limit - (depth + 1) + 1))
        (Schema.truncate (limit - (depth + 1)))
        (fun active ty =>
          answers.resolveValue Registry.shipped options location fuel (depth + 1) active ty none)
        (fun active ty =>
          answers.resolveValue Registry.shipped { options with maxDepth := limit } location fuel
            (depth + 1) active ty none) := by
      refine ⟨Schema.beneath_truncate _, rfl, rfl, fun hcovers h => ?_⟩
      exact ih hlt (fun _ => rfl) (resolveValue_mono rfl le_rfl hcovers h)
    have hlevel : limit - depth = limit - (depth + 1) + 1 := by omega
    rw [resolveValue, if_neg (by omega)] at h
    rw [resolveValue, if_neg (by simpa using hlt), hlevel]
    split at h
    · rename_i hactive
      cases h
      rw [if_pos hactive, hsides.beneath.backReference]
    · rename_i hactive
      rw [if_neg hactive]
      exact hsides.dispatchValue le_rfl (.refl _ _) h

end Answers

end GraphSchema
