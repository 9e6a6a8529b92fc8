import Mathlib
import GraphSchema.Proofs.Resolution.Ways

/-!
# Schemas of types that are alike

Two types that differ in nothing but their identity need not have the same schema: where the one is
met again while it is in progress itself, a back-reference is all there is, and the other looks into
it once more.  `Schema.Unrolls` allows for this difference and for no other, apart from the order of
fields.  What the other has instead of the back-reference is not just anything of the right name: it
is the schema that this resolution makes of the type it meets, at that level and with what is in
progress there (`Answers.LooksInto`).

Resolutions under two lists of types in progress that are the same but for the two types come to
schemas that are so related (`Answers.unrolls_resolveValue`), and so do the resolutions of the two
types themselves (`Answers.Alike.unrolls`).

A type that is in progress hands on no fields as a base type.  So it has to be known that every
inherited field is written again, which is what `Answers.Rewrites` says of all types that a
resolution enters.
-/

namespace GraphSchema

namespace Schema

/-- An array, or a record with this title. -/
def Headed (title : Option String) : Schema → Prop
  | .array _ => True
  | .object other _ _ => other = title
  | _ => False

/-- Two schemas at a level are the same up to the order of fields, except that the one may have a
piece where the other has a back-reference of this name.  `left` and `right` say which schemas are
such pieces of the one and of the other at a level. -/
inductive Unrolls (title : Option String) (left right : Nat → Schema → Prop) :
    Nat → Schema → Schema → Prop where
  | any {level : Nat} (other : Option String) :
      Unrolls title left right level (.any other) (.any other)
  | intrinsic {level : Nat} (kind : Intrinsic) :
      Unrolls title left right level (.intrinsic kind) (.intrinsic kind)
  | reference {level : Nat} (name : String) :
      Unrolls title left right level (.reference name) (.reference name)
  | array {level : Nat} {items items' : Schema}
      (hitems : Unrolls title left right (level + 1) items items') :
      Unrolls title left right level (.array items) (.array items')
  | object {level : Nat} {other : Option String} {properties properties' : Fields Schema}
      {required required' : List String}
      (hkeys : ∀ name, name ∈ Fields.keys properties ↔ name ∈ Fields.keys properties')
      (hrequired : ∀ name, name ∈ required ↔ name ∈ required')
      (hproperties : ∀ name schema schema', Fields.get? properties name = some schema →
        Fields.get? properties' name = some schema' →
        Unrolls title left right (level + 1) schema schema') :
      Unrolls title left right level (.object other properties required)
        (.object other properties' required')
  | rolled {level : Nat} {piece : Schema} (h : right level piece) :
      Unrolls title left right level (.reference ("#" ++ title.getD "")) piece
  | unrolled {level : Nat} {piece : Schema} (h : left level piece) :
      Unrolls title left right level piece (.reference ("#" ++ title.getD ""))

variable {title : Option String} {left right : Nat → Schema → Prop}

theorem Unrolls.refl (level : Nat) :
    ∀ schema : Schema, Unrolls title left right level schema schema
  | .any other => .any other
  | .intrinsic kind => .intrinsic kind
  | .reference name => .reference name
  | .array items => .array (Unrolls.refl (level + 1) items)
  | .object _ properties _ =>
    .object (fun _ => Iff.rfl) (fun _ => Iff.rfl) fun name schema schema' h h' => by
      cases h.symm.trans h'
      have hlt := List.sizeOf_lt_of_mem (Fields.mem_of_get? h)
      exact Unrolls.refl (level + 1) schema
termination_by schema => sizeOf schema
decreasing_by
  · simp
  · simp only [Prod.mk.sizeOf_spec] at hlt
    simp only [object.sizeOf_spec]
    omega

end Schema

namespace Answers

open Inquiry (value_within)
open Schema (Unrolls)

variable {τ σ ν : Type} {answers : Answers τ σ ν} {title : Option String}
  {left right : Nat → Schema → Prop} {level : Nat} {location location' : ν} {ty ty' : τ}
  {options : Options}

/-! ## Parts of a record -/

theorem unrolls_overlay {schemaOf schemaOf' : τ → Option Schema} {members : List (String × τ)}
    (hschemaOf : ∀ member ∈ members.map Prod.snd, ∀ schema schema',
      schemaOf member = some schema → schemaOf' member = some schema' →
        Unrolls title left right level schema schema')
    {fields fields' own own' : Fields Schema}
    (hfields : ∀ name schema schema', Fields.get? fields name = some schema →
      Fields.get? fields' name = some schema' → Unrolls title left right level schema schema')
    (h : overlay schemaOf members fields = some own)
    (h' : overlay schemaOf' members fields' = some own') :
    ∀ name schema schema', Fields.get? own name = some schema →
      Fields.get? own' name = some schema' → Unrolls title left right level schema schema' := by
  induction members generalizing fields fields' with
  | nil =>
    cases h
    cases h'
    exact hfields
  | cons member rest ih =>
    obtain ⟨hmember, hrest⟩ := List.forall_mem_cons.mp hschemaOf
    obtain ⟨written, hwritten, h⟩ := Option.bind_eq_some_iff.mp h
    obtain ⟨written', hwritten', h'⟩ := Option.bind_eq_some_iff.mp h'
    obtain ⟨new, hnew, rfl⟩ := Option.map_eq_some_iff.mp hwritten
    obtain ⟨new', hnew', rfl⟩ := Option.map_eq_some_iff.mp hwritten'
    refine ih hrest (fun name schema schema' hget hget' => ?_) h h'
    rw [Fields.get?_put] at hget hget'
    split at hget
    · rename_i hname
      rw [if_pos hname] at hget'
      cases hget
      cases hget'
      exact hmember new new' hnew hnew'
    · rename_i hname
      rw [if_neg hname] at hget'
      exact hfields name schema schema' hget hget'

/-- The fields of a record that writes all inherited fields again are its own. -/
theorem exists_own_of_recordSchema {record : τ → Option (Option Schema)}
    {schemaOf : τ → Option Schema} {schema : Schema}
    (hbases : ∀ base ∈ answers.baseTypes ty, ∀ claimed, record base = some claimed →
      ∀ name ∈ Fields.keys (Schema.recordProperties claimed), name ∈ answers.memberNames ty)
    (h : answers.recordSchema location record schemaOf ty = some schema) :
    ∃ own properties required, schema = .object (answers.symbolName ty) properties required ∧
      overlay schemaOf (answers.members location ty) [] = some own ∧
      (∀ name, name ∈ Fields.keys properties ↔ name ∈ answers.memberNames ty) ∧
      (∀ name, name ∈ required ↔ name ∈ answers.memberNames ty) ∧
      ∀ name found, Fields.get? properties name = some found →
        Fields.get? own name = some found := by
  obtain ⟨inherited, own, hinherited, hown, rfl⟩ := exists_of_recordSchema h
  have hkeys : ∀ name, name ∈ Fields.keys own ↔ name ∈ answers.memberNames ty := by
    intro name
    rw [mem_keys_overlay hown, map_fst_members]
    simp
  have hsubset : Fields.keys inherited ⊆ Fields.keys own := by
    intro name hname
    rcases (mem_keys_inherit hinherited).mp hname with hnil | ⟨base, hbase, claimed, hclaimed, hmem⟩
    · cases hnil
    · exact (hkeys name).mpr (hbases base hbase claimed hclaimed name hmem)
  have hwritten : ∀ name, name ∈ Fields.keys inherited ∨ name ∈ Fields.keys own ↔
      name ∈ answers.memberNames ty := by
    intro name
    rw [← hkeys name]
    exact or_iff_right_of_imp fun hname => hsubset hname
  have hnodup : (Fields.keys ([] : Fields Schema)).Nodup := List.nodup_nil
  refine ⟨own, _, _, rfl, hown, fun name => ?_, fun name => ?_, fun name found hfound => ?_⟩
  · rw [Fields.mem_keys_merge, hwritten]
  · rw [Names.mem_union, Names.mem_union, or_iff_right List.not_mem_nil, hwritten]
  · exact Fields.get?_merge_of_subset (nodup_inherit hnodup hinherited) (nodup_overlay hnodup hown)
      hsubset hfound

/-- Two types that are alike have records that unroll to the same, where the members do and all
inherited fields are written again. -/
theorem unrolls_recordSchema [DecidableEq τ]
    (halike : answers.Alike options location location' ty ty')
    {record record' : τ → Option (Option Schema)} {schemaOf schemaOf' : τ → Option Schema}
    (hbases : ∀ base ∈ answers.baseTypes ty, ∀ claimed, record base = some claimed →
      ∀ name ∈ Fields.keys (Schema.recordProperties claimed), name ∈ answers.memberNames ty)
    (hbases' : ∀ base ∈ answers.baseTypes ty, ∀ claimed, record' base = some claimed →
      ∀ name ∈ Fields.keys (Schema.recordProperties claimed), name ∈ answers.memberNames ty)
    (hmembers : ∀ member ∈ (answers.members location ty).map Prod.snd, ∀ schema schema',
      schemaOf member = some schema → schemaOf' member = some schema' →
        Unrolls title left right (level + 1) schema schema')
    {schema schema' : Schema} (h : answers.recordSchema location record schemaOf ty = some schema)
    (h' : answers.recordSchema location' record' schemaOf' ty' = some schema') :
    Unrolls title left right level schema schema' := by
  have hnames := halike.memberNames
  rw [← halike.baseTypes, ← hnames] at hbases'
  obtain ⟨own, properties, required, rfl, hown, hkeys, hrequired, hfound⟩ :=
    exists_own_of_recordSchema hbases h
  obtain ⟨own', properties', required', rfl, hown', hkeys', hrequired', hfound'⟩ :=
    exists_own_of_recordSchema hbases' h'
  rw [halike.members] at hown'
  rw [hnames] at hkeys' hrequired'
  rw [halike.symbolName]
  refine .object (fun name => ?_) (fun name => ?_) fun name schema schema' hget hget' => ?_
  · rw [hkeys, hkeys']
  · rw [hrequired, hrequired']
  · have hempty : ∀ name schema schema', Fields.get? ([] : Fields Schema) name = some schema →
        Fields.get? ([] : Fields Schema) name = some schema' →
          Unrolls title left right (level + 1) schema schema' := by
      intro _ _ _ h
      cases h
    exact unrolls_overlay hmembers hempty hown hown' name schema schema' (hfound name schema hget)
      (hfound' name schema' hget')

/-! ## What is asked of the answers -/

variable [DecidableEq τ] {start start' : τ} {active more : List τ} {steps fuel : Nat}
  {nested nested' : List τ → τ → Option Schema} {claimed claimed' : Option Schema}

variable (answers) in
/-- A record that a resolution makes of a type it enters writes every field again that a base type
hands on. -/
def Rewrites (options : Options) (location : ν) (start : τ) : Prop :=
  ∀ ⦃level active ty⦄, answers.InProgress options location start level (ty :: active) →
    OwnRecord answers options [] ty → ∀ base ∈ answers.baseTypes ty, ∀ ⦃inside name⦄,
    Carries answers options inside base name → name ∈ answers.memberNames ty

variable (answers) in
/-- A type with this symbol name is an array, or makes a record of its own whatever is in
progress. -/
structure Heads (options : Options) (title : Option String) (ty : τ) : Prop where
  intrinsic : answers (.intrinsic ty) = none
  object : (answers (.flags ty)).object
  symbolName : answers.symbolName ty = title
  plain : answers.container? ty = some .array ∨
    answers.container? ty = none ∧ answers.redirect? options ty = none

variable (answers) in
/-- Two types of this symbol name are arrays or records of their own, and neither is one of the
definitions that stand for types in a resolution, which are records. -/
structure SetApart (options : Options) (location : ν) (title : Option String) (start start' : τ) :
    Prop where
  heads : answers.Heads options title start
  heads' : answers.Heads options title start'
  object_target : ∀ {level active ty target},
    answers.InProgress options location start level (ty :: active) →
    answers.redirect? options ty = some target → (answers (.flags target)).object
  target_ne : ∀ {level active ty target},
    answers.InProgress options location start level (ty :: active) →
    answers.redirect? options ty = some target → target ≠ start ∧ target ≠ start'

variable (answers) in
/-- The resolution of a type has looked into another one at a level, and has come to this array or
record. -/
def LooksInto (options : Options) (location : ν) (title : Option String) (start other : τ)
    (level : Nat) (piece : Schema) : Prop :=
  piece.Headed title ∧ answers.Makes options location start level other piece

theorem Heads.backReference (h : answers.Heads options title ty) :
    answers.backReference ty = .reference ("#" ++ title.getD "") := by
  rw [Answers.backReference, h.symbolName]

theorem Heads.of_alike (h : answers.Heads options title ty)
    (halike : answers.Alike options location location' ty ty') :
    answers.Heads options title ty' where
  intrinsic := halike.intrinsic.trans h.intrinsic
  object := halike.flags ▸ h.object
  symbolName := halike.symbolName.trans h.symbolName
  plain := by
    rw [halike.container, halike.redirect]
    exact h.plain

/-- A call for a record comes to a schema. -/
theorem exists_of_value {context : Context ν} (hobject : (answers (.flags ty)).object)
    (h : (recognizeObject steps context ty).value answers nested active = some claimed) :
    ∃ schema, claimed = some schema := by
  cases claimed with
  | some schema => exact ⟨schema, rfl⟩
  | none =>
    rw [object_eq_false_of_value h] at hobject
    cases hobject

theorem exists_of_within {context : Context ν} (hobject : (answers (.flags ty)).object)
    (h : (Inquiry.within ty (recognizeObject steps context ty)).value answers nested active =
      some claimed) : ∃ schema, claimed = some schema := by
  rw [value_within] at h
  split at h
  · cases h
    exact ⟨_, rfl⟩
  · exact exists_of_value hobject h

theorem Heads.headed_of_recognizeObject (h : answers.Heads options title ty)
    (hvalue : (recognizeObject steps ⟨options, location⟩ ty).value answers nested active =
      some (some schema)) : schema.Headed title := by
  cases steps with
  | zero => cases hvalue
  | succ steps =>
    cases recognized_of_value hvalue with
    | container hcontainer hschema =>
      rcases h.plain with harray | ⟨hnone, -⟩
      · cases hcontainer.symm.trans harray
        obtain ⟨items, -, rfl⟩ := Option.map_eq_some_iff.mp hschema
        trivial
      · cases hcontainer.symm.trans hnone
    | tuple htuple => trivial
    | redirected _ hcontainer _ htarget _ =>
      rcases h.plain with harray | ⟨-, hnone⟩
      · cases hcontainer.symm.trans harray
      · cases htarget.symm.trans hnone
    | record _ _ _ _ hschema =>
      obtain ⟨inherited, own, -, -, rfl⟩ := exists_of_recordSchema hschema
      exact h.symbolName

theorem Heads.headed_of_dispatchValue (h : answers.Heads options title ty) {other : Option String}
    {schema : Schema}
    (hvalue : answers.dispatchValue options nested fuel location active ty other
      Registry.shipped = some schema) : schema.Headed title := by
  rw [dispatchValue_shipped, h.intrinsic, Option.map_none, Option.elim_none] at hvalue
  rcases h.plain with harray | ⟨hnone, -⟩
  · rw [harray, Option.elim_some] at hvalue
    obtain ⟨items, -, rfl⟩ := Option.map_eq_some_iff.mp hvalue
    trivial
  · rw [hnone, Option.elim_none] at hvalue
    obtain ⟨claimed, hclaimed, hvalue⟩ := Option.bind_eq_some_iff.mp hvalue
    obtain ⟨found, rfl⟩ := exists_of_value h.object hclaimed
    cases hvalue
    exact h.headed_of_recognizeObject hclaimed

/-- What a base type hands on is written again. -/
theorem Rewrites.mem_memberNames (h : answers.Rewrites options location start)
    (hway : answers.InProgress options location start level (ty :: active))
    (hrecord : OwnRecord answers options [] ty) {base : τ} (hbase : base ∈ answers.baseTypes ty)
    {context : ν} {inside : List τ}
    (hvalue : (Inquiry.within base (recognizeObject steps ⟨options, context⟩ base)).value answers
      nested inside = some claimed) :
    ∀ name ∈ Fields.keys (Schema.recordProperties claimed), name ∈ answers.memberNames ty := by
  intro name hname
  rw [value_within] at hvalue
  split at hvalue
  · cases hvalue
    cases hname
  · exact h hway hrecord base hbase ((mem_keys_iff_carries hvalue).mp hname)

/-! ## Two resolutions side by side -/

variable (answers) in
/-- The resolutions of two types look at one type, at the same level and with the same types in
progress, but for the two types themselves. -/
structure Abreast (options : Options) (location location' : ν) (start start' : τ) (level : Nat)
    (active more : List τ) (ty : τ) : Prop where
  agree : AgreeOn (fun other => other ≠ start ∧ other ≠ start') active more
  start_mem : start ∈ active
  start_mem' : start' ∈ more
  comes : answers.ComesTo options location start level active ty
  comes' : answers.ComesTo options location' start' level more ty

variable (answers) in
/-- The resolutions of two types have entered types that are alike, at the same level and with the
same types in progress, but for the two types themselves. -/
structure InStep (options : Options) (location location' : ν) (start start' : τ) (level : Nat)
    (active more : List τ) (ty ty' : τ) : Prop where
  alike : answers.Alike options location location' ty ty'
  agree : AgreeOn (fun other => other ≠ start ∧ other ≠ start') (ty :: active) (ty' :: more)
  way : answers.InProgress options location start level (ty :: active)
  way' : answers.InProgress options location' start' level (ty' :: more)

/-- What the one type leads to the other leads to as well. -/
theorem InStep.abreast
    (h : answers.InStep options location location' start start' level active more ty ty')
    {levels : Nat} {next : τ} (hnext : answers.Onward options location levels ty next) :
    answers.Abreast options location location' start start' (level + levels) (ty :: active)
      (ty' :: more) next where
  agree := h.agree
  start_mem := h.way.start_mem
  start_mem' := h.way'.start_mem
  comes := h.way.comesTo hnext
  comes' := h.way'.comesTo (h.alike.onward hnext)

theorem Abreast.inStep
    (h : answers.Abreast options location location' start start' level active more ty)
    (hmembers : answers.members location' = answers.members location)
    (hlimit : level < options.maxDepth) (hnew : ty ∉ active) (hnew' : ty ∉ more) :
    answers.InStep options location location' start start' level active more ty ty where
  alike := .refl hmembers ty
  agree := h.agree.cons ty
  way := h.comes hlimit hnew
  way' := h.comes' hlimit hnew'

/-- A type is in progress on both sides or on neither, or it is one of the two, and in progress on
its own side only. -/
theorem Abreast.cases
    (h : answers.Abreast options location location' start start' level active more ty) :
    (ty ∈ active ∧ ty ∈ more) ∨ (ty ∉ active ∧ ty ∉ more) ∨
      (ty = start ∧ ty ∈ active ∧ ty ∉ more) ∨ (ty = start' ∧ ty ∉ active ∧ ty ∈ more) := by
  by_cases hstart : ty = start
  · have hmem : ty ∈ active := hstart ▸ h.start_mem
    tauto
  by_cases hstart' : ty = start'
  · have hmem : ty ∈ more := hstart' ▸ h.start_mem'
    tauto
  have hiff := h.agree ty ⟨hstart, hstart'⟩
  tauto

/-! ## Calls -/

theorem unrolls_containerSchema (halike : answers.Alike options location location' ty ty')
    {items items' : τ → Option Schema} {container : Container}
    (hitems : ∀ item, container = .array → answers.item? ty = some item → ∀ schema schema',
      items item = some schema → items' item = some schema' →
        Unrolls title left right (level + 1) schema schema')
    {schema schema' : Schema} (h : answers.containerSchema items ty container = some schema)
    (h' : answers.containerSchema items' ty' container = some schema') :
    Unrolls title left right level schema schema' := by
  cases container with
  | date =>
    cases h
    cases h'
    exact .refl _ _
  | promise =>
    cases h
    cases h'
    exact .refl _ _
  | array =>
    obtain ⟨inside, hinside, rfl⟩ := Option.map_eq_some_iff.mp h
    obtain ⟨inside', hinside', rfl⟩ := Option.map_eq_some_iff.mp h'
    refine .array ?_
    rw [halike.item] at hinside'
    cases hitem : answers.item? ty with
    | none =>
      rw [hitem] at hinside hinside'
      cases hinside
      cases hinside'
      exact .refl _ _
    | some item =>
      rw [hitem] at hinside hinside'
      exact hitems item rfl hitem inside inside' hinside hinside'

section Sides

variable (hmembers : answers.members location' = answers.members location)
  (hrewrites : answers.Rewrites options location start)
  (hrewrites' : answers.Rewrites options location' start')
  (happart : answers.SetApart options location title start start')

include hmembers hrewrites hrewrites' happart

/-- Calls for two types that are alike come to schemas that unroll to the same. -/
theorem unrolls_recognizeObject
    (hnested : ∀ {active more part schema schema'},
      answers.Abreast options location location' start start' (level + 1) active more part →
      nested active part = some schema → nested' more part = some schema' →
        Unrolls title left right (level + 1) schema schema')
    (hstep : answers.InStep options location location' start start' level active more ty ty')
    {schema schema' : Schema}
    (h : (recognizeObject steps ⟨options, location⟩ ty).value answers nested (ty :: active) =
      some (some schema))
    (h' : (recognizeObject steps ⟨options, location'⟩ ty').value answers nested' (ty' :: more) =
      some (some schema')) : Unrolls title left right level schema schema' := by
  induction steps generalizing ty ty' active more schema schema' with
  | zero => cases h
  | succ steps ih =>
    have halike := hstep.alike
    rw [value_recognizeObject] at h h'
    rw [halike.flags, halike.container, halike.redirect] at h'
    by_cases hobject : (answers (.flags ty)).object
    swap
    · rw [if_neg hobject] at h
      cases h
    rw [if_pos hobject] at h h'
    cases hcontainer : answers.container? ty with
    | some container =>
      rw [hcontainer, Option.elim_some] at h h'
      obtain ⟨found, hfound, heq⟩ := Option.map_eq_some_iff.mp h
      obtain ⟨found', hfound', heq'⟩ := Option.map_eq_some_iff.mp h'
      cases heq
      cases heq'
      refine unrolls_containerSchema halike (fun item harray hitem _ _ => ?_) hfound hfound'
      exact hnested (hstep.abreast (.item (harray ▸ hcontainer) hitem))
    | none =>
      rw [hcontainer, Option.elim_none] at h h'
      by_cases htuple : (answers (.flags ty)).tuple
      · rw [if_pos htuple] at h h'
        cases h
        cases h'
        exact .refl _ _
      rw [if_neg htuple] at h h'
      cases hredirect : answers.redirect? options ty with
      | none =>
        rw [hredirect, Option.elim_none, Option.bind_some, Option.elim_none] at h h'
        obtain ⟨found, hfound, heq⟩ := Option.map_eq_some_iff.mp h
        obtain ⟨found', hfound', heq'⟩ := Option.map_eq_some_iff.mp h'
        cases heq
        cases heq'
        have hrecord : OwnRecord answers options [] ty :=
          ⟨hobject, hcontainer, Bool.eq_false_iff.mpr htuple, by simp [hredirect]⟩
        refine unrolls_recordSchema halike (fun base hbase _ => ?_) (fun base hbase _ => ?_)
          (fun member hmember _ _ => ?_) hfound hfound'
        · exact hrewrites.mem_memberNames hstep.way hrecord hbase
        · rw [← halike.memberNames]
          exact hrewrites'.mem_memberNames hstep.way' (halike.ownRecord hrecord)
            (halike.baseTypes ▸ hbase)
        · exact hnested (hstep.abreast (.member hrecord hmember))
      | some target =>
        -- A definition is a record, so neither side goes on to a record of the type's own.
        rw [hredirect, Option.elim_some] at h h'
        obtain ⟨redirected, hvalue, h⟩ := Option.bind_eq_some_iff.mp h
        obtain ⟨redirected', hvalue', h'⟩ := Option.bind_eq_some_iff.mp h'
        have htarget := happart.object_target hstep.way hredirect
        obtain ⟨found, rfl⟩ := exists_of_within htarget hvalue
        obtain ⟨found', rfl⟩ := exists_of_within htarget hvalue'
        cases h
        cases h'
        rw [value_within] at hvalue hvalue'
        have hiff := hstep.agree target (happart.target_ne hstep.way hredirect)
        by_cases hmem : target ∈ ty :: active
        · rw [if_pos hmem] at hvalue
          rw [if_pos (hiff.mp hmem)] at hvalue'
          cases hvalue
          cases hvalue'
          exact .refl _ _
        · have hmem' := mt hiff.mpr hmem
          rw [if_neg hmem] at hvalue
          rw [if_neg hmem'] at hvalue'
          have hnext : answers.Onward options location 0 ty target := .target hcontainer hredirect
          have htargets : answers.InStep options location location' start start' level
              (ty :: active) (ty' :: more) target target :=
            (hstep.abreast hnext).inStep hmembers hstep.way.lt_maxDepth hmem hmem'
          exact ih htargets hvalue hvalue'

theorem unrolls_dispatchValue
    (hnested : ∀ {active more part schema schema'},
      answers.Abreast options location location' start start' (level + 1) active more part →
      nested active part = some schema → nested' more part = some schema' →
        Unrolls title left right (level + 1) schema schema')
    (hstep : answers.InStep options location location' start start' level active more ty ty')
    {other other' : Option String} (hother : other' = other ∨ (answers (.flags ty)).object)
    {schema schema' : Schema}
    (h : answers.dispatchValue options nested fuel location (ty :: active) ty other
      Registry.shipped = some schema)
    (h' : answers.dispatchValue options nested' fuel location' (ty' :: more) ty' other'
      Registry.shipped = some schema') : Unrolls title left right level schema schema' := by
  have halike := hstep.alike
  rw [dispatchValue_shipped] at h h'
  rw [halike.intrinsic, halike.container] at h'
  cases hintrinsic : answers (.intrinsic ty) with
  | some kind =>
    rw [hintrinsic] at h h'
    cases h
    cases h'
    exact .refl _ _
  | none =>
    rw [hintrinsic, Option.map_none, Option.elim_none] at h h'
    cases hcontainer : answers.container? ty with
    | some container =>
      rw [hcontainer, Option.elim_some] at h h'
      refine unrolls_containerSchema halike (fun item harray hitem _ _ => ?_) h h'
      exact hnested (hstep.abreast (.item (harray ▸ hcontainer) hitem))
    | none =>
      rw [hcontainer, Option.elim_none] at h h'
      obtain ⟨claimed, hclaimed, h⟩ := Option.bind_eq_some_iff.mp h
      obtain ⟨claimed', hclaimed', h'⟩ := Option.bind_eq_some_iff.mp h'
      by_cases hobject : (answers (.flags ty)).object
      · obtain ⟨found, rfl⟩ := exists_of_value hobject hclaimed
        obtain ⟨found', rfl⟩ := exists_of_value (halike.flags ▸ hobject) hclaimed'
        cases h
        cases h'
        exact unrolls_recognizeObject hmembers hrewrites hrewrites' happart hnested hstep hclaimed
          hclaimed'
      · obtain rfl := hother.resolve_right hobject
        have hflags := Bool.eq_false_iff.mpr hobject
        cases value_recognizeObject_of_object_eq_false hflags hclaimed
        rw [← halike.flags] at hflags
        cases value_recognizeObject_of_object_eq_false hflags hclaimed'
        cases h
        cases h'
        exact .refl _ _

/-! ## Whole resolutions -/

/-- What two resolutions make of one type unrolls to the same.  Where it is in progress on one side
only, it is the type that this side is the resolution of, and the other side looks into it. -/
theorem unrolls_resolveValue
    (habreast : answers.Abreast options location location' start start' level active more ty)
    {schema schema' : Schema}
    (h : answers.resolveValue Registry.shipped options location fuel level active ty none =
      some schema)
    (h' : answers.resolveValue Registry.shipped options location' fuel level more ty none =
      some schema') :
    Unrolls title (answers.LooksInto options location title start start')
      (answers.LooksInto options location' title start' start) level schema schema' := by
  induction fuel generalizing level active more ty schema schema' with
  | zero => cases h
  | succ fuel ih =>
    have hvalue := h
    have hvalue' := h'
    rw [resolveValue] at h h'
    split at h
    · rename_i hlimit
      rw [if_pos hlimit] at h'
      cases h
      cases h'
      exact .refl _ _
    rename_i hlimit
    rw [if_neg hlimit] at h'
    have hlt := Nat.lt_of_not_le hlimit
    rcases habreast.cases with ⟨hin, hin'⟩ | ⟨hout, hout'⟩ | ⟨rfl, hin, hout⟩ | ⟨rfl, hout, hin⟩
    · rw [if_pos hin] at h
      rw [if_pos hin'] at h'
      cases h
      cases h'
      exact .refl _ _
    · rw [if_neg hout] at h
      rw [if_neg hout'] at h'
      exact unrolls_dispatchValue hmembers hrewrites hrewrites' happart
        (fun hnext h h' => ih hnext h h') (habreast.inStep hmembers hlt hout hout') (.inl rfl) h h'
    · rw [if_pos hin, happart.heads.backReference] at h
      rw [if_neg hout] at h'
      cases h
      exact .rolled ⟨happart.heads.headed_of_dispatchValue h', more, fuel + 1, none,
        habreast.comes' hlt hout, hvalue'⟩
    · rw [if_neg hout] at h
      rw [if_pos hin, happart.heads'.backReference] at h'
      cases h'
      exact .unrolled ⟨happart.heads'.headed_of_dispatchValue h, active, fuel + 1, none,
        habreast.comes hlt hout, hvalue⟩

/-- Two types that are alike have schemas that unroll to the same. -/
theorem Alike.unrolls (halike : answers.Alike options location location' start start')
    (hdepth : 1 ≤ options.maxDepth) {other other' : Option String} {schema schema' : Schema}
    (h : answers.resolveValue Registry.shipped options location fuel 0 [] start other =
      some schema)
    (h' : answers.resolveValue Registry.shipped options location' fuel 0 [] start' other' =
      some schema') :
    Unrolls title (answers.LooksInto options location title start start')
      (answers.LooksInto options location' title start' start) 0 schema schema' := by
  cases fuel with
  | zero => cases h
  | succ fuel =>
    rw [resolveValue, if_neg (Nat.not_le.mpr hdepth), if_neg List.not_mem_nil] at h h'
    have hagree : AgreeOn (fun other => other ≠ start ∧ other ≠ start') [start] [start'] := by
      intro other hother
      rw [List.mem_singleton, List.mem_singleton]
      exact iff_of_false hother.1 hother.2
    have hstep : answers.InStep options location location' start start' 0 [] [] start start' :=
      ⟨halike, hagree, .start hdepth, .start hdepth⟩
    exact unrolls_dispatchValue hmembers hrewrites hrewrites' happart
      (fun hnext h h' => unrolls_resolveValue hmembers hrewrites hrewrites' happart hnext h h')
      hstep (.inr happart.heads.object) h h'

end Sides

end Answers

end GraphSchema
