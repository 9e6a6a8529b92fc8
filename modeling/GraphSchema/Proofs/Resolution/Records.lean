import Mathlib
import GraphSchema.Proofs.Fields
import GraphSchema.Proofs.Resolution.Value

/-!
# What a record comes to

A record carries the names of its own members and those of the records that its base types have
come to (`mem_keys_recordSchema_iff`).  `Answers.Recognized` lists the ways in which a call for a
record can come to something at all, and `recognized_of_value` says that there are no others.

Which names a record ends up with depends on the types in progress alone: `Answers.Carries`
follows the base types down and stops at those in progress, and `mem_keys_iff_carries` says that
a call that ends has exactly these names.
-/

namespace GraphSchema.Answers

open Inquiry (value_within)

variable {τ σ ν : Type} {answers : Answers τ σ ν} {location : ν} {ty : τ}

/-! ## Ends -/

/-- A fold has a result where each of its items has one. -/
theorem isSome_foldlM_iff {α β γ : Type} {result : α → Option β} {next : γ → α → β → γ}
    {items : List α} {start : γ} :
    (items.foldlM (fun so item => (result item).map (next so item)) start).isSome ↔
      ∀ item ∈ items, (result item).isSome := by
  induction items generalizing start with
  | nil => simp
  | cons item rest ih =>
    rw [List.foldlM_cons, List.forall_mem_cons]
    cases result item with
    | none => simp
    | some value => simpa using ih

theorem isSome_inherit_iff {record : τ → Option (Option Schema)} {bases : List τ}
    (inherited : Fields Schema) :
    (inherit record bases inherited).isSome ↔ ∀ base ∈ bases, (record base).isSome :=
  isSome_foldlM_iff

theorem isSome_overlay_iff {schemaOf : τ → Option Schema} {members : List (String × τ)}
    (fields : Fields Schema) :
    (overlay schemaOf members fields).isSome ↔
      ∀ member ∈ members.map Prod.snd, (schemaOf member).isSome := by
  rw [overlay, isSome_foldlM_iff, List.forall_mem_map]

/-- A record has a schema where all of its base types and members have one. -/
theorem isSome_recordSchema_iff {record : τ → Option (Option Schema)}
    {schemaOf : τ → Option Schema} {ty : τ} :
    (answers.recordSchema location record schemaOf ty).isSome ↔
      (∀ base ∈ answers.baseTypes ty, (record base).isSome) ∧
        ∀ member ∈ (answers.members location ty).map Prod.snd, (schemaOf member).isSome := by
  rw [recordSchema, ← isSome_inherit_iff [], ← isSome_overlay_iff []]
  cases inherit record (answers.baseTypes ty) [] with
  | none => simp
  | some inherited => simp

/-! ## Names -/

theorem mem_keys_overlay {schemaOf : τ → Option Schema} {members : List (String × τ)}
    {fields result : Fields Schema} (h : overlay schemaOf members fields = some result)
    {name : String} :
    name ∈ Fields.keys result ↔ name ∈ Fields.keys fields ∨ name ∈ members.map Prod.fst := by
  induction members generalizing fields with
  | nil =>
    cases h
    simp
  | cons member rest ih =>
    obtain ⟨key, type⟩ := member
    obtain ⟨fields', hfields', h⟩ := Option.bind_eq_some_iff.mp h
    obtain ⟨schema, -, rfl⟩ := Option.map_eq_some_iff.mp hfields'
    rw [ih h, Fields.mem_keys_put, List.map_cons, List.mem_cons, or_assoc]

theorem mem_keys_inherit {record : τ → Option (Option Schema)} {bases : List τ}
    {inherited result : Fields Schema} (h : inherit record bases inherited = some result)
    {name : String} :
    name ∈ Fields.keys result ↔ name ∈ Fields.keys inherited ∨ ∃ base ∈ bases, ∃ schema,
      record base = some schema ∧ name ∈ Fields.keys (Schema.recordProperties schema) := by
  induction bases generalizing inherited with
  | nil =>
    cases h
    simp
  | cons base rest ih =>
    obtain ⟨fields, hfields, h⟩ := Option.bind_eq_some_iff.mp h
    obtain ⟨schema, hschema, rfl⟩ := Option.map_eq_some_iff.mp hfields
    rw [ih h, Fields.mem_keys_merge, or_assoc]
    refine or_congr_right ?_
    simp only [List.mem_cons, exists_eq_or_imp, hschema, Option.some.injEq, exists_eq_left']

/-- What a record is made of. -/
theorem exists_of_recordSchema {record : τ → Option (Option Schema)}
    {schemaOf : τ → Option Schema} {schema : Schema}
    (h : answers.recordSchema location record schemaOf ty = some schema) :
    ∃ inherited own, inherit record (answers.baseTypes ty) [] = some inherited ∧
      overlay schemaOf (answers.members location ty) [] = some own ∧
      schema = .object (answers.symbolName ty) (Fields.merge inherited own)
        (Names.union (Names.union [] (Fields.keys inherited)) (Fields.keys own)) := by
  obtain ⟨inherited, hinherited, h⟩ := Option.bind_eq_some_iff.mp h
  obtain ⟨own, hown, rfl⟩ := Option.map_eq_some_iff.mp h
  exact ⟨inherited, own, hinherited, hown, rfl⟩

/-- The names of a record are its own and those of the records of its base types. -/
theorem mem_keys_recordSchema_iff {record : τ → Option (Option Schema)}
    {schemaOf : τ → Option Schema} {title : Option String} {properties : Fields Schema}
    {required : List String}
    (h : answers.recordSchema location record schemaOf ty =
      some (.object title properties required)) {name : String} :
    name ∈ Fields.keys properties ↔ name ∈ answers.memberNames ty ∨
      ∃ base ∈ answers.baseTypes ty, ∃ schema, record base = some schema ∧
        name ∈ Fields.keys (Schema.recordProperties schema) := by
  obtain ⟨inherited, own, hinherited, hown, heq⟩ := exists_of_recordSchema h
  cases heq
  rw [Fields.mem_keys_merge, mem_keys_inherit hinherited, mem_keys_overlay hown,
    map_fst_members, or_comm]
  simp

/-! ## Fields -/

theorem nodup_inherit {record : τ → Option (Option Schema)} {bases : List τ}
    {inherited result : Fields Schema} (hnodup : (Fields.keys inherited).Nodup)
    (h : inherit record bases inherited = some result) : (Fields.keys result).Nodup := by
  induction bases generalizing inherited with
  | nil =>
    cases h
    exact hnodup
  | cons base rest ih =>
    obtain ⟨fields, hfields, h⟩ := Option.bind_eq_some_iff.mp h
    obtain ⟨schema, -, rfl⟩ := Option.map_eq_some_iff.mp hfields
    exact ih (Fields.nodup_merge hnodup _) h

theorem nodup_overlay {schemaOf : τ → Option Schema} {members : List (String × τ)}
    {fields result : Fields Schema} (hnodup : (Fields.keys fields).Nodup)
    (h : overlay schemaOf members fields = some result) : (Fields.keys result).Nodup := by
  induction members generalizing fields with
  | nil =>
    cases h
    exact hnodup
  | cons member rest ih =>
    obtain ⟨written, hwritten, h⟩ := Option.bind_eq_some_iff.mp h
    obtain ⟨schema, -, rfl⟩ := Option.map_eq_some_iff.mp hwritten
    exact ih (Fields.nodup_put hnodup _ _) h

/-- An inherited field is a field of the record of a base type. -/
theorem mem_inherit {record : τ → Option (Option Schema)} {bases : List τ}
    {inherited result : Fields Schema} (hnodup : (Fields.keys inherited).Nodup)
    (h : inherit record bases inherited = some result) {entry : String × Schema}
    (hentry : entry ∈ result) :
    entry ∈ inherited ∨ ∃ base ∈ bases, ∃ schema, record base = some schema ∧
      entry ∈ Schema.recordProperties schema := by
  induction bases generalizing inherited with
  | nil =>
    cases h
    exact .inl hentry
  | cons base rest ih =>
    obtain ⟨fields, hfields, h⟩ := Option.bind_eq_some_iff.mp h
    obtain ⟨schema, hschema, rfl⟩ := Option.map_eq_some_iff.mp hfields
    rcases ih (Fields.nodup_merge hnodup _) h with hmerged | ⟨other, hother, hrest⟩
    · rcases Fields.mem_merge hnodup hmerged with hfields | ⟨hold, -⟩
      · exact .inr ⟨base, List.mem_cons_self, schema, hschema, hfields⟩
      · exact .inl hold
    · exact .inr ⟨other, List.mem_cons_of_mem _ hother, hrest⟩

/-- An own field is the schema of a member. -/
theorem mem_overlay {schemaOf : τ → Option Schema} {members : List (String × τ)}
    {fields result : Fields Schema} (hnodup : (Fields.keys fields).Nodup)
    (h : overlay schemaOf members fields = some result) {entry : String × Schema}
    (hentry : entry ∈ result) :
    entry ∈ fields ∨ ∃ member ∈ members.map Prod.snd, schemaOf member = some entry.2 := by
  induction members generalizing fields with
  | nil =>
    cases h
    exact .inl hentry
  | cons member rest ih =>
    obtain ⟨key, type⟩ := member
    obtain ⟨written, hwritten, h⟩ := Option.bind_eq_some_iff.mp h
    obtain ⟨schema, hschema, rfl⟩ := Option.map_eq_some_iff.mp hwritten
    rcases ih (Fields.nodup_put hnodup _ _) h with hput | ⟨other, hother, hrest⟩
    · rcases Fields.mem_put hnodup hput with rfl | ⟨hold, -⟩
      · exact .inr ⟨type, List.mem_cons_self, hschema⟩
      · exact .inl hold
    · exact .inr ⟨other, List.mem_cons_of_mem _ hother, hrest⟩

/-- What holds of the schemas of all members, and of every inherited field that is not written
again, holds of all fields of a record. -/
theorem forall_mem_recordSchema (good : String → Schema → Prop)
    {record : τ → Option (Option Schema)} {schemaOf : τ → Option Schema} {schema : Schema}
    (hbases : ∀ base ∈ answers.baseTypes ty, ∀ claimed, record base = some claimed →
      ∀ entry ∈ Schema.recordProperties claimed, entry.1 ∉ answers.memberNames ty →
        good entry.1 entry.2)
    (hmembers : ∀ member ∈ (answers.members location ty).map Prod.snd, ∀ schema,
      schemaOf member = some schema → ∀ name, good name schema)
    (h : answers.recordSchema location record schemaOf ty = some schema) :
    ∀ entry ∈ Schema.recordProperties (some schema), good entry.1 entry.2 := by
  obtain ⟨inherited, own, hinherited, hown, rfl⟩ := exists_of_recordSchema h
  have hnodup : (Fields.keys ([] : Fields Schema)).Nodup := List.nodup_nil
  intro entry hentry
  rcases Fields.mem_merge (nodup_inherit hnodup hinherited) hentry with hentry | ⟨hentry, hnew⟩
  · rcases mem_overlay hnodup hown hentry with hnil | ⟨member, hmember, hschema⟩
    · cases hnil
    · exact hmembers member hmember _ hschema _
  · rcases mem_inherit hnodup hinherited hentry with hnil | ⟨base, hbase, claimed, hclaimed, hentry⟩
    · cases hnil
    · refine hbases base hbase claimed hclaimed entry hentry fun hagain => hnew ?_
      rw [mem_keys_overlay hown, map_fst_members]
      exact .inr hagain

/-- A container comes to something other than a record. -/
theorem isObject_of_containerSchema {items : τ → Option Schema} {container : Container}
    {schema : Schema} (h : answers.containerSchema items ty container = some schema) :
    schema.isObject = false := by
  cases container with
  | array =>
    obtain ⟨_, -, rfl⟩ := Option.map_eq_some_iff.mp h
    rfl
  | date =>
    cases h
    rfl
  | promise =>
    cases h
    rfl

/-- What is no record has no names. -/
theorem recordProperties_of_isObject {schema : Schema} (h : schema.isObject = false) :
    Schema.recordProperties (some schema) = [] := by
  cases schema with
  | object => cases h
  | _ => rfl

/-! ## Calls -/

variable [DecidableEq τ] {options : Options} {steps : Nat} {nested : List τ → τ → Option Schema}
  {active : List τ}

/-- What a call for a record has come to, by the rule that has decided it. -/
inductive Recognized (answers : Answers τ σ ν) (options : Options) (location : ν) (steps : Nat)
    (nested : List τ → τ → Option Schema) (active : List τ) (ty : τ) : Option Schema → Prop where
  | other (hobject : (answers (.flags ty)).object = false) :
      Recognized answers options location steps nested active ty none
  | container {container : Container} {schema : Schema}
      (hcontainer : answers.container? ty = some container)
      (hschema : answers.containerSchema (nested active) ty container = some schema) :
      Recognized answers options location steps nested active ty (some schema)
  | tuple (htuple : (answers (.flags ty)).tuple) :
      Recognized answers options location steps nested active ty (some (.array (.any none)))
  | redirected {target : τ} {schema : Schema} (hobject : (answers (.flags ty)).object)
      (hcontainer : answers.container? ty = none) (htuple : (answers (.flags ty)).tuple = false)
      (htarget : answers.redirect? options ty = some target)
      (hschema : (Inquiry.within target (recognizeObject steps ⟨options, location⟩ target)).value
        answers nested active = some (some schema)) :
      Recognized answers options location steps nested active ty (some schema)
  | record {schema : Schema} (hobject : (answers (.flags ty)).object)
      (hcontainer : answers.container? ty = none) (htuple : (answers (.flags ty)).tuple = false)
      (hredirect : ∀ target, answers.redirect? options ty = some target →
        (Inquiry.within target (recognizeObject steps ⟨options, location⟩ target)).value answers
          nested active = some none)
      (hschema : answers.recordSchema location
        (fun base => (Inquiry.within base (recognizeObject steps ⟨options, location⟩ base)).value
          answers nested active) (nested active) ty = some schema) :
      Recognized answers options location steps nested active ty (some schema)

/-- A call that ends has come to what one of the rules says. -/
theorem recognized_of_value {claimed : Option Schema}
    (h : (recognizeObject (steps + 1) ⟨options, location⟩ ty).value answers nested active =
      some claimed) :
    Recognized answers options location steps nested active ty claimed := by
  rw [value_recognizeObject] at h
  split at h
  · rename_i hobject
    cases hcontainer : answers.container? ty with
    | some container =>
      rw [hcontainer, Option.elim_some, Option.map_eq_some_iff] at h
      obtain ⟨schema, hschema, rfl⟩ := h
      exact .container hcontainer hschema
    | none =>
      rw [hcontainer, Option.elim_none] at h
      split at h
      · rename_i htuple
        cases h
        exact .tuple htuple
      · rename_i htuple
        obtain ⟨redirected, hredirected, h⟩ := Option.bind_eq_some_iff.mp h
        cases redirected with
        | some schema =>
          cases h
          cases htarget : answers.redirect? options ty with
          | none =>
            rw [htarget] at hredirected
            cases hredirected
          | some target =>
            rw [htarget] at hredirected
            exact .redirected hobject hcontainer (Bool.eq_false_iff.mpr htuple) htarget hredirected
        | none =>
          obtain ⟨schema, hschema, rfl⟩ := Option.map_eq_some_iff.mp h
          refine .record hobject hcontainer (Bool.eq_false_iff.mpr htuple) ?_ hschema
          intro target htarget
          rwa [htarget] at hredirected
  · rename_i hobject
    cases h
    exact .other (Bool.eq_false_iff.mpr hobject)

/-- A call for a record comes to nothing for the other types only. -/
theorem object_eq_false_of_value
    (h : (recognizeObject steps ⟨options, location⟩ ty).value answers nested active =
      some none) : (answers (.flags ty)).object = false := by
  cases steps with
  | zero => cases h
  | succ steps =>
    cases recognized_of_value h with
    | other hobject => exact hobject

/-- A call for a type that is no record comes to nothing. -/
theorem value_recognizeObject_of_object_eq_false (hobject : (answers (.flags ty)).object = false)
    {claimed : Option Schema}
    (h : (recognizeObject steps ⟨options, location⟩ ty).value answers nested active =
      some claimed) : claimed = none := by
  cases steps with
  | zero => cases h
  | succ steps =>
    rw [value_recognizeObject, hobject, if_neg Bool.false_ne_true] at h
    exact (Option.some.inj h).symm

/-! ## Carried names -/

/-- While the types of a list are in progress, a call for a type makes a record of its own: no
other rule claims the type. -/
structure OwnRecord (answers : Answers τ σ ν) (options : Options) (active : List τ) (ty : τ) :
    Prop where
  object : (answers (.flags ty)).object
  container : answers.container? ty = none
  tuple : (answers (.flags ty)).tuple = false
  redirect : ∀ target, answers.redirect? options ty = some target →
    target ∉ active ∧ (answers (.flags target)).object = false

/-- While the types of a list are in progress, the record of a type has a name: as one of its
own, from a base type that is not in progress, or from the definition that stands for it. -/
inductive Carries (answers : Answers τ σ ν) (options : Options) : List τ → τ → String → Prop where
  | own {active : List τ} {ty : τ} {name : String} (hrecord : OwnRecord answers options active ty)
      (hname : name ∈ answers.memberNames ty) : Carries answers options active ty name
  | inherited {active : List τ} {ty base : τ} {name : String}
      (hrecord : OwnRecord answers options active ty) (hbase : base ∈ answers.baseTypes ty)
      (hactive : base ∉ active) (hcarries : Carries answers options (base :: active) base name) :
      Carries answers options active ty name
  | redirected {active : List τ} {ty target : τ} {name : String}
      (hobject : (answers (.flags ty)).object) (hcontainer : answers.container? ty = none)
      (htuple : (answers (.flags ty)).tuple = false)
      (htarget : answers.redirect? options ty = some target) (hactive : target ∉ active)
      (hcarries : Carries answers options (target :: active) target name) :
      Carries answers options active ty name

/-- A type that carries a name is a record. -/
theorem Carries.object {name : String} (h : Carries answers options active ty name) :
    (answers (.flags ty)).object := by
  cases h with
  | own hrecord => exact hrecord.object
  | inherited hrecord => exact hrecord.object
  | redirected hobject => exact hobject

theorem Carries.container {name : String} (h : Carries answers options active ty name) :
    answers.container? ty = none := by
  cases h with
  | own hrecord => exact hrecord.container
  | inherited hrecord => exact hrecord.container
  | redirected _ hcontainer => exact hcontainer

theorem Carries.tuple {name : String} (h : Carries answers options active ty name) :
    (answers (.flags ty)).tuple = false := by
  cases h with
  | own hrecord => exact hrecord.tuple
  | inherited hrecord => exact hrecord.tuple
  | redirected _ _ htuple => exact htuple

/-- The names of a type that is redirected to a record are those of that record, while it is not
in progress itself. -/
theorem Carries.of_redirect {name : String} {target : τ}
    (h : Carries answers options active ty name)
    (htarget : answers.redirect? options ty = some target) :
    target ∉ active ∧ ((answers (.flags target)).object →
      Carries answers options (target :: active) target name) := by
  have hown : OwnRecord answers options active ty → target ∉ active ∧
      ((answers (.flags target)).object →
        Carries answers options (target :: active) target name) := by
    intro hrecord
    obtain ⟨hactive, hother⟩ := hrecord.redirect target htarget
    exact ⟨hactive, fun hobject => absurd (hother.symm.trans hobject) Bool.false_ne_true⟩
  cases h with
  | own hrecord => exact hown hrecord
  | inherited hrecord => exact hown hrecord
  | redirected _ _ _ htarget' hactive hcarries =>
    cases htarget.symm.trans htarget'
    exact ⟨hactive, fun _ => hcarries⟩

/-- A type makes a record of its own where a call for its definition comes to nothing. -/
theorem OwnRecord.of_redirect (hobject : (answers (.flags ty)).object)
    (hcontainer : answers.container? ty = none) (htuple : (answers (.flags ty)).tuple = false)
    (hredirect : ∀ target, answers.redirect? options ty = some target →
      (Inquiry.within target (recognizeObject steps ⟨options, location⟩ target)).value answers
        nested active = some none) :
    OwnRecord answers options active ty := by
  refine ⟨hobject, hcontainer, htuple, fun target htarget => ?_⟩
  have hnone := hredirect target htarget
  rw [value_within] at hnone
  split at hnone
  · cases hnone
  · rename_i hactive
    exact ⟨hactive, object_eq_false_of_value hnone⟩

/-- A record of a type's own has its own names and those that its base types hand on. -/
theorem OwnRecord.carries_iff (hrecord : OwnRecord answers options active ty) {name : String} :
    Carries answers options active ty name ↔ name ∈ answers.memberNames ty ∨
      ∃ base ∈ answers.baseTypes ty, base ∉ active ∧
        Carries answers options (base :: active) base name := by
  constructor
  · intro h
    cases h with
    | own _ hname => exact .inl hname
    | inherited _ hbase hactive hcarries => exact .inr ⟨_, hbase, hactive, hcarries⟩
    | redirected _ _ _ htarget _ hcarries =>
      have hother := (hrecord.redirect _ htarget).2
      exact absurd (hother.symm.trans hcarries.object) Bool.false_ne_true
  · rintro (hname | ⟨base, hbase, hactive, hcarries⟩)
    · exact .own hrecord hname
    · exact .inherited hrecord hbase hactive hcarries

/-- The names that a call for a record has come to are the ones that the type carries. -/
theorem mem_keys_iff_carries {claimed : Option Schema}
    (h : (recognizeObject steps ⟨options, location⟩ ty).value answers nested active =
      some claimed) {name : String} :
    name ∈ Fields.keys (Schema.recordProperties claimed) ↔
      Carries answers options active ty name := by
  induction steps generalizing active ty claimed with
  | zero => cases h
  | succ steps ih =>
    cases recognized_of_value h with
    | other hobject =>
      refine iff_of_false List.not_mem_nil fun hcarries => ?_
      exact Bool.false_ne_true (hobject.symm.trans hcarries.object)
    | container hcontainer hschema =>
      rw [recordProperties_of_isObject (isObject_of_containerSchema hschema)]
      refine iff_of_false List.not_mem_nil fun hcarries => ?_
      rw [hcarries.container] at hcontainer
      cases hcontainer
    | tuple htuple =>
      refine iff_of_false List.not_mem_nil fun hcarries => ?_
      exact Bool.false_ne_true (hcarries.tuple.symm.trans htuple)
    | redirected hobject hcontainer htuple htarget hschema =>
      rw [value_within] at hschema
      split at hschema
      -- The definition is in progress itself, and a back-reference has no names.
      · rename_i hactive
        cases hschema
        refine iff_of_false List.not_mem_nil fun hcarries => ?_
        exact (hcarries.of_redirect htarget).1 hactive
      · rename_i hactive
        rw [ih hschema]
        constructor
        · exact .redirected hobject hcontainer htuple htarget hactive
        · intro hcarries
          refine (hcarries.of_redirect htarget).2 ?_
          by_contra hother
          cases value_recognizeObject_of_object_eq_false (Bool.eq_false_iff.mpr hother) hschema
    | record hobject hcontainer htuple hredirect hschema =>
      have hrecord := OwnRecord.of_redirect hobject hcontainer htuple hredirect
      obtain ⟨inherited, own, -, -, rfl⟩ := exists_of_recordSchema hschema
      have hbases := (isSome_recordSchema_iff.mp (Option.isSome_of_eq_some hschema)).1
      show name ∈ Fields.keys (Fields.merge inherited own) ↔ _
      rw [mem_keys_recordSchema_iff hschema, hrecord.carries_iff]
      refine or_congr_right (exists_congr fun base => and_congr_right fun hbase => ?_)
      constructor
      · rintro ⟨claimed, hclaimed, hname⟩
        rw [value_within] at hclaimed
        split at hclaimed
        · cases hclaimed
          cases hname
        · rename_i hactive
          exact ⟨hactive, (ih hclaimed).mp hname⟩
      · rintro ⟨hactive, hcarries⟩
        obtain ⟨claimed, hclaimed⟩ := Option.isSome_iff_exists.mp (hbases base hbase)
        refine ⟨claimed, hclaimed, ?_⟩
        rw [value_within, if_neg hactive] at hclaimed
        exact (ih hclaimed).mpr hcarries

/-- A call that has come to a record has made it itself, unless the definition that stands for
the type is a record. -/
theorem OwnRecord.of_value {title : Option String} {properties : Fields Schema}
    {required : List String}
    (hown : ∀ target, answers.redirect? options ty = some target →
      (answers (.flags target)).object = false)
    (h : (recognizeObject steps ⟨options, location⟩ ty).value answers nested active =
      some (some (.object title properties required))) :
    OwnRecord answers options active ty := by
  cases steps with
  | zero => cases h
  | succ steps =>
    cases recognized_of_value h with
    | container _ hschema => cases isObject_of_containerSchema hschema
    | redirected _ _ _ htarget hschema =>
      rw [value_within] at hschema
      split at hschema
      · cases hschema
      · cases value_recognizeObject_of_object_eq_false (hown _ htarget) hschema
    | record hobject hcontainer htuple hredirect =>
      exact .of_redirect hobject hcontainer htuple hredirect

end GraphSchema.Answers
