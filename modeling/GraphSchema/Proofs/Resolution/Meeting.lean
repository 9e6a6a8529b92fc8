import Mathlib
import GraphSchema.Proofs.Resolution.Closure

/-!
# Types that are met again

What a type comes to depends on the types in progress only as far as it meets them again.
`Answers.Onward` lists the steps that a resolution takes from a type to the next ones, and
`Answers.Meets` the types that it comes to by such steps within a number of levels.  Where two lists
of types in progress agree on these, a type has the same schema under both
(`Answers.resolveValue_congr`).

Two types may differ in nothing but their identity (`Answers.Alike`).  Each of them is in progress
in its own resolution and not in that of the other, and there is nothing else between them: as long
as neither is met again below them, they have the same schema (`Answers.Alike.resolveValue_eq`).
-/

namespace GraphSchema.Answers

open Inquiry (value_within)

variable {τ σ ν : Type}

/-! ## Ways of a resolution -/

section Ways

variable [DecidableEq τ] (answers : Answers τ σ ν) (options : Options) (location : ν)

/-- A step of a resolution from a type to another, and the levels of nesting that it goes down: none
to a definition and to base types, one to items and members. -/
inductive Onward : Nat → τ → τ → Prop where
  | item {ty item : τ} (hcontainer : answers.container? ty = some .array)
      (hitem : answers.item? ty = some item) : Onward 1 ty item
  | target {ty target : τ} (hcontainer : answers.container? ty = none)
      (htarget : answers.redirect? options ty = some target) : Onward 0 ty target
  | base {ty base : τ} (hrecord : OwnRecord answers options [] ty)
      (hbase : base ∈ answers.baseTypes ty) : Onward 0 ty base
  | member {ty member : τ} (hrecord : OwnRecord answers options [] ty)
      (hmember : member ∈ (answers.members location ty).map Prod.snd) : Onward 1 ty member

/-- A resolution of a type with so many levels left meets another type, or the type itself. -/
inductive Meets : Nat → τ → τ → Prop where
  | here {limit : Nat} {ty : τ} : Meets (limit + 1) ty ty
  | onward {levels limit : Nat} {ty next other : τ}
      (hnext : answers.Onward options location levels ty next) (h : Meets limit next other) :
      Meets (limit + levels) ty other

/-- A resolution of a type with so many levels left meets another type after at least one step. -/
inductive MeetsBelow (limit : Nat) (ty other : τ) : Prop where
  | onward {levels rest : Nat} {next : τ} (hlimit : rest + levels = limit)
      (hnext : answers.Onward options location levels ty next)
      (h : answers.Meets options location rest next other)

end Ways

/-- Two lists have the same types of a kind. -/
def AgreeOn (kind : τ → Prop) (active more : List τ) : Prop :=
  ∀ ty, kind ty → (ty ∈ active ↔ ty ∈ more)

theorem AgreeOn.mono {kind kind' : τ → Prop} {active more : List τ} (h : AgreeOn kind active more)
    (hkind : ∀ ty, kind' ty → kind ty) : AgreeOn kind' active more :=
  fun ty hty => h ty (hkind ty hty)

theorem AgreeOn.cons {kind : τ → Prop} {active more : List τ} (h : AgreeOn kind active more)
    (ty : τ) : AgreeOn kind (ty :: active) (ty :: more) := by
  intro other hother
  rw [List.mem_cons, List.mem_cons, h other hother]

variable {answers : Answers τ σ ν}

/-! ## Parts of a call -/

theorem inherit_congr {record record' : τ → Option (Option Schema)} {bases : List τ}
    (h : ∀ base ∈ bases, record base = record' base) (inherited : Fields Schema) :
    inherit record bases inherited = inherit record' bases inherited := by
  induction bases generalizing inherited with
  | nil => rfl
  | cons base rest ih =>
    obtain ⟨hbase, hrest⟩ := List.forall_mem_cons.mp h
    rw [inherit, inherit, List.foldlM_cons, List.foldlM_cons, hbase]
    exact Option.bind_congr fun inherited _ => ih hrest inherited

theorem overlay_congr {schemaOf schemaOf' : τ → Option Schema} {members : List (String × τ)}
    (h : ∀ member ∈ members.map Prod.snd, schemaOf member = schemaOf' member)
    (fields : Fields Schema) :
    overlay schemaOf members fields = overlay schemaOf' members fields := by
  induction members generalizing fields with
  | nil => rfl
  | cons member rest ih =>
    obtain ⟨hmember, hrest⟩ := List.forall_mem_cons.mp h
    rw [overlay, overlay, List.foldlM_cons, List.foldlM_cons, hmember]
    exact Option.bind_congr fun fields _ => ih hrest fields

/-! ## Types that are alike -/

variable [DecidableEq τ]

variable (answers) in
/-- The answers about two types are the same, as far as a resolution goes by them. -/
structure Alike (options : Options) (location location' : ν) (ty ty' : τ) : Prop where
  flags : answers (.flags ty') = answers (.flags ty)
  intrinsic : answers (.intrinsic ty') = answers (.intrinsic ty)
  symbolName : answers.symbolName ty' = answers.symbolName ty
  container : answers.container? ty' = answers.container? ty
  item : answers.item? ty' = answers.item? ty
  redirect : answers.redirect? options ty' = answers.redirect? options ty
  baseTypes : answers.baseTypes ty' = answers.baseTypes ty
  members : answers.members location' ty' = answers.members location ty

variable {options : Options} {location location' : ν} {ty ty' : τ} {limit steps fuel : Nat}
  {nested nested' : List τ → τ → Option Schema} {active more : List τ}

theorem Alike.refl (hmembers : answers.members location' = answers.members location) (ty : τ) :
    answers.Alike options location location' ty ty :=
  ⟨rfl, rfl, rfl, rfl, rfl, rfl, rfl, congrFun hmembers ty⟩

theorem Alike.symm (halike : answers.Alike options location location' ty ty') :
    answers.Alike options location' location ty' ty where
  flags := halike.flags.symm
  intrinsic := halike.intrinsic.symm
  symbolName := halike.symbolName.symm
  container := halike.container.symm
  item := halike.item.symm
  redirect := halike.redirect.symm
  baseTypes := halike.baseTypes.symm
  members := halike.members.symm

theorem Alike.parents_eq (halike : answers.Alike options location location' ty ty') :
    answers.parents ty' = answers.parents ty := by
  rw [parents, parents, halike.flags, halike.container, halike.baseTypes]

theorem Alike.parts_eq (halike : answers.Alike options location location' ty ty') :
    answers.parts location' ty' = answers.parts location ty := by
  rw [parts, parts, halike.flags, halike.container, halike.members, halike.item]

theorem Alike.containerSchema_eq (halike : answers.Alike options location location' ty ty')
    {items items' : τ → Option Schema} {container : Container}
    (hcontainer : answers.container? ty = some container)
    (hitems : ∀ item, answers.Onward options location 1 ty item → items item = items' item) :
    answers.containerSchema items ty container = answers.containerSchema items' ty' container := by
  cases container with
  | date => rfl
  | promise => rfl
  | array =>
    rw [containerSchema, containerSchema, halike.item]
    cases hitem : answers.item? ty with
    | none => rfl
    | some item => rw [Option.elim_some, Option.elim_some, hitems item (.item hcontainer hitem)]

theorem Alike.recordSchema_eq (halike : answers.Alike options location location' ty ty')
    (hrecord : OwnRecord answers options [] ty) {record record' : τ → Option (Option Schema)}
    {schemaOf schemaOf' : τ → Option Schema}
    (hbases : ∀ base, answers.Onward options location 0 ty base → record base = record' base)
    (hmembers : ∀ member, answers.Onward options location 1 ty member →
      schemaOf member = schemaOf' member) :
    answers.recordSchema location record schemaOf ty =
      answers.recordSchema location' record' schemaOf' ty' := by
  have hinherit := inherit_congr (fun base hbase => hbases base (.base hrecord hbase)) []
  have hoverlay := overlay_congr
    (fun member hmember => hmembers member (.member hrecord hmember)) []
  rw [recordSchema, recordSchema, halike.baseTypes, halike.members, halike.symbolName, hinherit,
    hoverlay]

/-! ## Calls -/

theorem MeetsBelow.of_call {next other : τ} (hnext : answers.Onward options location 0 ty next)
    (h : answers.Meets options location limit next other) :
    answers.MeetsBelow options location limit ty other :=
  ⟨Nat.add_zero limit, hnext, h⟩

theorem MeetsBelow.of_nested {next other : τ} (hnext : answers.Onward options location 1 ty next)
    (h : answers.Meets options location limit next other) :
    answers.MeetsBelow options location (limit + 1) ty other :=
  ⟨rfl, hnext, h⟩

theorem MeetsBelow.meets {other : τ} (h : answers.MeetsBelow options location limit ty other) :
    answers.Meets options location limit ty other := by
  obtain ⟨rfl, hnext, h⟩ := h
  exact .onward hnext h

/-- Under the guard it shows whether the type itself is in progress. -/
theorem value_within_congr {left right : Context ν}
    (hagree : AgreeOn (answers.Meets options location (limit + 1) ty) active more)
    (hcall : AgreeOn (answers.Meets options location (limit + 1) ty) (ty :: active) (ty :: more) →
      (recognizeObject steps left ty).value answers nested (ty :: active) =
        (recognizeObject steps right ty).value answers nested' (ty :: more)) :
    (Inquiry.within ty (recognizeObject steps left ty)).value answers nested active =
      (Inquiry.within ty (recognizeObject steps right ty)).value answers nested' more := by
  rw [value_within, value_within]
  by_cases hactive : ty ∈ active
  · rw [if_pos hactive, if_pos ((hagree ty .here).mp hactive)]
  · rw [if_neg hactive, if_neg (mt (hagree ty .here).mpr hactive), hcall (hagree.cons ty)]

/-- Calls for two types that are alike come to the same where the calls do that they make. -/
theorem Alike.value_recognizeObject_succ (halike : answers.Alike options location location' ty ty')
    (hcalled : ∀ next, answers.Onward options location 0 ty next →
      (Inquiry.within next (recognizeObject steps ⟨options, location⟩ next)).value answers
          nested active =
        (Inquiry.within next (recognizeObject steps ⟨options, location'⟩ next)).value answers
          nested' more)
    (hinside : ∀ next, answers.Onward options location 1 ty next →
      nested active next = nested' more next) :
    (recognizeObject (steps + 1) ⟨options, location⟩ ty).value answers nested active =
      (recognizeObject (steps + 1) ⟨options, location'⟩ ty').value answers nested' more := by
  rw [GraphSchema.value_recognizeObject, GraphSchema.value_recognizeObject, halike.flags,
    halike.container, halike.redirect]
  by_cases hobject : (answers (.flags ty)).object
  · rw [if_pos hobject, if_pos hobject]
    cases hcontainer : answers.container? ty with
    | some container =>
      rw [Option.elim_some, Option.elim_some, halike.containerSchema_eq hcontainer hinside]
    | none =>
      rw [Option.elim_none, Option.elim_none]
      by_cases htuple : (answers (.flags ty)).tuple
      · rw [if_pos htuple, if_pos htuple]
      rw [if_neg htuple, if_neg htuple]
      -- Base types and members are looked at only where no definition stands for the type.
      have hown : (∀ target, answers.redirect? options ty = some target →
          (Inquiry.within target (recognizeObject steps ⟨options, location⟩ target)).value answers
            nested active = some none) → OwnRecord answers options [] ty :=
        fun hredirect => (OwnRecord.of_redirect hobject hcontainer (Bool.eq_false_iff.mpr htuple)
          hredirect).mono (List.nil_subset active)
      cases hredirect : answers.redirect? options ty with
      | none =>
        have hrecord := hown fun target h => by simp [hredirect] at h
        rw [Option.elim_none, Option.elim_none, Option.bind_some, Option.bind_some,
          Option.elim_none, Option.elim_none, halike.recordSchema_eq hrecord hcalled hinside]
      | some target =>
        rw [Option.elim_some, Option.elim_some, ← hcalled target (.target hcontainer hredirect)]
        refine Option.bind_congr fun redirected hvalue => ?_
        cases redirected with
        | some schema => rfl
        | none =>
          have hrecord := hown fun other h => by
            cases hredirect.symm.trans h
            exact hvalue
          rw [Option.elim_none, Option.elim_none, halike.recordSchema_eq hrecord hcalled hinside]
  · rw [if_neg hobject, if_neg hobject]

/-- Calls for the records of two types that are alike come to the same, if the types in progress
agree on what is met below. -/
theorem Alike.value_recognizeObject
    (hmembers : answers.members location' = answers.members location)
    (hnested : ∀ {active more part},
      AgreeOn (answers.Meets options location limit part) active more →
        nested active part = nested' more part)
    (halike : answers.Alike options location location' ty ty')
    (hagree : AgreeOn (answers.MeetsBelow options location (limit + 1) ty) active more) :
    (recognizeObject steps ⟨options, location⟩ ty).value answers nested active =
      (recognizeObject steps ⟨options, location'⟩ ty').value answers nested' more := by
  induction steps generalizing ty ty' active more with
  | zero => rfl
  | succ steps ih =>
    refine halike.value_recognizeObject_succ (fun next hnext => ?_) fun next hnext =>
      hnested (hagree.mono fun other => .of_nested hnext)
    refine value_within_congr (hagree.mono fun other => .of_call hnext) fun hagree' => ?_
    exact ih (.refl hmembers next) (hagree'.mono fun other => MeetsBelow.meets)

theorem Alike.dispatchValue_eq (hmembers : answers.members location' = answers.members location)
    (hnested : ∀ {active more part},
      AgreeOn (answers.Meets options location limit part) active more →
        nested active part = nested' more part)
    (halike : answers.Alike options location location' ty ty')
    (hagree : AgreeOn (answers.MeetsBelow options location (limit + 1) ty) active more)
    {title title' : Option String} (htitle : title' = title ∨ (answers (.flags ty)).object) :
    answers.dispatchValue options nested fuel location active ty title Registry.shipped =
      answers.dispatchValue options nested' fuel location' more ty' title' Registry.shipped := by
  rw [dispatchValue_shipped, dispatchValue_shipped, halike.intrinsic, halike.container]
  cases answers (.intrinsic ty) with
  | some kind => rfl
  | none =>
    rw [Option.map_none, Option.elim_none, Option.elim_none]
    cases hcontainer : answers.container? ty with
    | some container =>
      exact halike.containerSchema_eq hcontainer fun item hitem =>
        hnested (hagree.mono fun other => .of_nested hitem)
    | none =>
      rw [Option.elim_none, Option.elim_none,
        ← halike.value_recognizeObject hmembers hnested hagree]
      refine Option.bind_congr fun claimed hclaimed => ?_
      cases claimed with
      | some schema => rfl
      | none =>
        rcases htitle with rfl | hobject
        · rfl
        · rw [object_eq_false_of_value hclaimed] at hobject
          cases hobject

/-! ## Sets of types that no resolution leaves -/

theorem Closed.mem_of_meets {types : Set τ} (hclosed : Closed answers options location types)
    {other : τ} (hty : ty ∈ types) (h : answers.Meets options location limit ty other) :
    other ∈ types := by
  induction h with
  | here => exact hty
  | onward hnext _ ih =>
    refine ih ?_
    cases hnext with
    | item hcontainer hitem => exact hclosed.item hty hcontainer hitem
    | target _ htarget => exact hclosed.target hty htarget
    | base hrecord hbase => exact hclosed.base hty hrecord hbase
    | member hrecord hmember => exact hclosed.member hty hrecord hmember

/-- What is met below a type is in every closed set that has what a step from it leads to. -/
theorem MeetsBelow.mem_of_closed {types : Set τ} (hclosed : Closed answers options location types)
    (hfirst : ∀ levels next, answers.Onward options location levels ty next → next ∈ types)
    {other : τ} (h : answers.MeetsBelow options location limit ty other) : other ∈ types := by
  obtain ⟨-, hnext, h⟩ := h
  exact hclosed.mem_of_meets (hfirst _ _ hnext) h

/-- Nothing is met below a container that has no items. -/
theorem not_meetsBelow_of_container {container : Container} {other : τ}
    (hcontainer : answers.container? ty = some container) (hne : container ≠ .array) :
    ¬ answers.MeetsBelow options location limit ty other := by
  rintro ⟨-, hnext, -⟩
  cases hnext with
  | item harray =>
    cases hcontainer.symm.trans harray
    exact hne rfl
  | target hnone => cases hcontainer.symm.trans hnone
  | base hrecord => cases hcontainer.symm.trans hrecord.container
  | member hrecord => cases hcontainer.symm.trans hrecord.container

/-! ## Whole resolutions -/

/-- A type has the same schema under two lists of types in progress that agree on what it meets. -/
theorem resolveValue_congr (hmembers : answers.members location' = answers.members location)
    {depth : Nat}
    (hagree : AgreeOn (answers.Meets options location (options.maxDepth - depth) ty) active more)
    {title : Option String} :
    answers.resolveValue Registry.shipped options location fuel depth active ty title =
      answers.resolveValue Registry.shipped options location' fuel depth more ty title := by
  induction fuel generalizing depth active more ty title with
  | zero => rfl
  | succ fuel ih =>
    rw [resolveValue, resolveValue]
    by_cases hlimit : options.maxDepth ≤ depth
    · rw [if_pos hlimit, if_pos hlimit]
    rw [if_neg hlimit, if_neg hlimit]
    have hlevel : options.maxDepth - depth = options.maxDepth - (depth + 1) + 1 := by omega
    rw [hlevel] at hagree
    by_cases hactive : ty ∈ active
    · rw [if_pos hactive, if_pos ((hagree ty .here).mp hactive)]
    · rw [if_neg hactive, if_neg (mt (hagree ty .here).mpr hactive)]
      exact Alike.dispatchValue_eq hmembers (fun h => ih h) (.refl hmembers ty)
        ((hagree.cons ty).mono fun other => MeetsBelow.meets) (.inl rfl)

/-- What two types reach that are alike is the same beyond them. -/
theorem Alike.finite_reaches (halike : answers.Alike options location location ty ty')
    (h : {other | answers.Reaches location [] limit ty' other}.Finite) :
    {other | answers.Reaches location [] limit ty other}.Finite := by
  refine ((Set.finite_singleton ty).union h).subset fun other hother => ?_
  cases hother with
  | here => exact .inl rfl
  | parent hty hparent h =>
    exact .inr (.parent List.not_mem_nil (halike.parents_eq ▸ hparent) h)
  | part hty hpart h => exact .inr (.part List.not_mem_nil (halike.parts_eq ▸ hpart) h)

/-- Where instantiations are resolved by their own members, the resolutions of two types that are
alike both come to an end or both do not. -/
theorem Alike.exists_isSome_iff (hmode : options.generics = .instantiated)
    (hleaf : ∀ ty, (answers (.flags ty)).object → answers (.intrinsic ty) = none)
    (hmembers : answers.members location' = answers.members location)
    (halike : answers.Alike options location location ty ty') {title title' : Option String} :
    (∃ fuel, (answers.resolveValue Registry.shipped options location fuel 0 [] ty title).isSome) ↔
      ∃ fuel, (answers.resolveValue Registry.shipped options location' fuel 0 [] ty'
        title').isSome := by
  have hlocation : ∀ fuel,
      answers.resolveValue Registry.shipped options location' fuel 0 [] ty' title' =
        answers.resolveValue Registry.shipped options location fuel 0 [] ty' title' :=
    fun fuel => (resolveValue_congr hmembers fun _ _ => Iff.rfl).symm
  simp only [hlocation]
  rw [exists_isSome_iff_finite hmode hleaf, exists_isSome_iff_finite hmode hleaf]
  exact ⟨halike.symm.finite_reaches, halike.finite_reaches⟩

/-- Two records that are alike have the same schema, as long as neither is met below them. -/
theorem Alike.resolveValue_eq (hmembers : answers.members location' = answers.members location)
    (halike : answers.Alike options location location' ty ty')
    (hobject : (answers (.flags ty)).object)
    (hty : ¬ answers.MeetsBelow options location options.maxDepth ty ty)
    (hty' : ¬ answers.MeetsBelow options location options.maxDepth ty ty')
    (hdepth : 1 ≤ options.maxDepth) {title title' : Option String} :
    answers.resolveValue Registry.shipped options location fuel 0 [] ty title =
      answers.resolveValue Registry.shipped options location' fuel 0 [] ty' title' := by
  cases fuel with
  | zero => rfl
  | succ fuel =>
    have hagree : AgreeOn (answers.MeetsBelow options location (options.maxDepth - 1 + 1) ty)
        [ty] [ty'] := by
      rw [Nat.sub_add_cancel hdepth]
      intro other hother
      rw [List.mem_singleton, List.mem_singleton]
      constructor
      · rintro rfl
        exact absurd hother hty
      · rintro rfl
        exact absurd hother hty'
    rw [resolveValue, resolveValue, if_neg (Nat.not_le.mpr hdepth), if_neg (Nat.not_le.mpr hdepth),
      if_neg List.not_mem_nil, if_neg List.not_mem_nil]
    exact halike.dispatchValue_eq hmembers (fun h => resolveValue_congr hmembers h) hagree
      (.inr hobject)

end GraphSchema.Answers
