import Mathlib
import GraphSchema.Proofs.Resolution.Closure
import GraphSchema.Proofs.Resolution.Comparison
import GraphSchema.Proofs.Resolution.Simulation
import GraphSchema.Recognition.Described

/-!
# Registries put together from the shipped recognizers

The first recognizer that claims a type wins, so a registry is more than the set of its
recognizers.  Of the shipped ones, however, the general rule for records looks at containers by the
rule for containers itself, and where no record is a primitive leaf, at most one answer can be given
about a type.  A registry then comes to the same in every order, with or without the rule for
containers, as long as the rules for leaves and for records are in it (`Rule.Arranged`).  At a
single type this is `Answers.dispatchValue_shipped_of_arranged` and its converse; nested types are
resolved through the whole registry again, and `Answers.resolveValue_of_arranged` carries it
through.

The rule for records uses the bound on the nesting of calls and the others do not, so two orders can
run out of it at different places.  With one more call allowed on the other side they agree.
-/

namespace GraphSchema

variable {W τ σ ν τ' σ' ν' : Type}

/-- Rules of shipped recognizers, put into any order, among them those for leaves and records. -/
structure Rule.Arranged (rules : List Rule) : Prop where
  shipped : rules ⊆ Rule.shipped
  intrinsic : Rule.intrinsic ∈ rules
  object : Rule.object ∈ rules

/-- All orders of the three rules are arranged, and all orders of the two without containers. -/
theorem Rule.Arranged.of_perm {rules : List Rule}
    (h : rules.Perm Rule.shipped ∨ rules.Perm [.intrinsic, .object]) : Rule.Arranged rules := by
  rcases h with h | h
  · refine ⟨h.subset, h.symm.subset ?_, h.symm.subset ?_⟩
    all_goals simp [Rule.shipped]
  · refine ⟨fun rule hrule => ?_, h.symm.subset (by simp), h.symm.subset (by simp)⟩
    rcases List.mem_pair.mp (h.subset hrule) with rfl | rfl
    all_goals simp [Rule.shipped]

theorem Rule.arranged_shipped : Rule.Arranged Rule.shipped := .of_perm (.inl (.refl _))

/-- Two registries of the same shipped rules ask alike. -/
theorem Models.askAlike_ofRules [DecidableEq τ] [DecidableEq τ'] {checker : Checker W τ σ ν}
    {answers : Answers τ' σ' ν'} {M : Models checker answers} {rules : List Rule}
    (hrules : rules ⊆ Rule.shipped) :
    List.Forall₂ M.AskAlike (Registry.ofRules rules) (Registry.ofRules rules) := by
  rw [Registry.ofRules, Registry.ofRules, List.forall₂_map_left_iff, List.forall₂_map_right_iff]
  refine List.forall₂_same.mpr fun rule hrule => ?_
  intro steps options location location' world ty ty' hlocation h
  rcases Rule.mem_shipped.mp (hrules hrule) with rfl | rfl | rfl
  · exact similar_recognizeIntrinsic h
  · exact similar_recognizeContainer h
  · exact similar_recognizeObject options hlocation steps h

/-- From any state, a resolution of a type has the outcome of its value in that state. -/
theorem Models.run'_resolveType_of_matches [DecidableEq τ] [DecidableEq τ']
    {checker : Checker W τ σ ν} {answers : Answers τ' σ' ν'} {M : Models checker answers}
    {registry : Registry τ σ ν} {registry' : Registry τ' σ' ν'} {location : ν} {location' : ν'}
    {run : Run W τ} {active : List τ'} {depth : Nat} {ty : τ} {ty' : τ'}
    (halike : List.Forall₂ M.AskAlike registry registry') (hlocation : M.site location location')
    (hrun : M.Matches run active depth) (h : M.type run.world ty ty') (options : Options)
    (fuel : Nat) (title : Option String) :
    (Resolver.resolveType ⟨checker, registry, options⟩ fuel location ty title).run' run =
      Outcome.ofValue
        (answers.resolveValue registry' options location' fuel depth active ty' title) :=
  Ends.run'_eq (follows_resolveType halike hlocation fuel title h run active (M.later_refl _) hrun)

namespace Answers

variable [DecidableEq τ] {answers : Answers τ σ ν} {options : Options} {location location' : ν}
  {nested nested' : List τ → τ → Option Schema} {active more : List τ} {fuel fuel' depth : Nat}
  {ty : τ} {title : Option String} {schema : Schema} {rules rules' : List Rule}

/-! ## The first that claims a type -/

/-- What a rule comes to. -/
def ruleValue (answers : Answers τ σ ν) (options : Options)
    (nested : List τ → τ → Option Schema) (fuel : Nat) (location : ν) (active : List τ) (ty : τ)
    (rule : Rule) : Option (Option Schema) :=
  (rule.recognize fuel ⟨options, location⟩ ty).value answers nested active

theorem dispatchValue_cons (rule : Rule) (rest : List Rule) :
    answers.dispatchValue options nested fuel location active ty title
        (Registry.ofRules (rule :: rest)) =
      (answers.ruleValue options nested fuel location active ty rule).bind fun claimed =>
        claimed.elim (answers.dispatchValue options nested fuel location active ty title
          (Registry.ofRules rest)) some := rfl

/-- Where every rule comes to something, a type is resolved. -/
theorem isSome_dispatchValue
    (h : ∀ rule ∈ rules,
      (answers.ruleValue options nested fuel location active ty rule).isSome) :
    (answers.dispatchValue options nested fuel location active ty title
      (Registry.ofRules rules)).isSome := by
  induction rules with
  | nil => rfl
  | cons rule rest ih =>
    obtain ⟨hfirst, hrest⟩ := List.forall_mem_cons.mp h
    obtain ⟨claimed, hclaimed⟩ := Option.isSome_iff_exists.mp hfirst
    rw [dispatchValue_cons, hclaimed, Option.bind_some]
    cases claimed with
    | none => exact ih hrest
    | some schema => rfl

/-- Where all rules that do not leave a type to others claim it with the same, the type is resolved
to that, as far as it is resolved. -/
theorem map_getD_of_dispatchValue {claimed : Option (Option Schema)}
    (h : ∀ rule ∈ rules,
      answers.ruleValue options nested fuel location active ty rule = some none ∨
      ∀ value, answers.ruleValue options nested fuel location active ty rule = some value →
        claimed = some value)
    (hclaimed : claimed = some none ∨ ∃ rule ∈ rules, ∀ value,
      answers.ruleValue options nested fuel location active ty rule = some value →
        claimed = some value)
    (hdispatch : answers.dispatchValue options nested fuel location active ty title
      (Registry.ofRules rules) = some schema) :
    claimed.map (fun value => value.getD (.any title)) = some schema := by
  induction rules with
  | nil =>
    rcases hclaimed with rfl | ⟨_, hmem, -⟩
    · exact hdispatch
    · cases hmem
  | cons rule rest ih =>
    obtain ⟨hfirst, hrest⟩ := List.forall_mem_cons.mp h
    rw [dispatchValue_cons] at hdispatch
    obtain ⟨value, hvalue, hdispatch⟩ := Option.bind_eq_some_iff.mp hdispatch
    cases value with
    | some found =>
      rcases hfirst with hnone | hsame
      · cases hvalue.symm.trans hnone
      · rw [hsame _ hvalue]
        exact hdispatch
    | none =>
      refine ih hrest ?_ hdispatch
      rcases hclaimed with hnone | ⟨other, hmem, hsame⟩
      · exact .inl hnone
      · rcases List.mem_cons.mp hmem with rfl | hmem
        · exact .inl (hsame none hvalue)
        · exact .inr ⟨other, hmem, hsame⟩

/-! ## One type -/

theorem ruleValue_intrinsic :
    answers.ruleValue options nested fuel location active ty .intrinsic =
      some ((answers (.intrinsic ty)).map Schema.intrinsic) :=
  value_recognizeIntrinsic answers nested active ty

theorem ruleValue_builtin :
    answers.ruleValue options nested fuel location active ty .builtin =
      (answers.container? ty).elim (some none) fun container =>
        (answers.containerSchema (nested active) ty container).map some :=
  value_recognizeContainer answers nested active ty

/-- What a type can be claimed with: a leaf by its kind, a container by its signature, and
everything else as the record that it is. -/
def claimValue (answers : Answers τ σ ν) (options : Options)
    (nested : List τ → τ → Option Schema) (fuel : Nat) (location : ν) (active : List τ) (ty : τ) :
    Option (Option Schema) :=
  (answers (.intrinsic ty)).elim
    ((answers.container? ty).elim
      (answers.ruleValue options nested fuel location active ty .object)
      fun container => (answers.containerSchema (nested active) ty container).map some)
    fun kind => some (some (.intrinsic kind))

theorem dispatchValue_shipped_eq_claimValue :
    answers.dispatchValue options nested fuel location active ty title Registry.shipped =
      (answers.claimValue options nested fuel location active ty).map
        fun claimed => claimed.getD (.any title) := by
  rw [dispatchValue_shipped, claimValue]
  cases answers (.intrinsic ty) with
  | some kind => rfl
  | none =>
    rw [Option.map_none, Option.elim_none, Option.elim_none]
    cases answers.container? ty with
    | some container =>
      rw [Option.elim_some, Option.elim_some, Option.map_map]
      exact Option.map_id'.symm
    | none =>
      rw [Option.elim_none, Option.elim_none, Option.map_eq_bind]
      refine Option.bind_congr fun claimed _ => ?_
      cases claimed <;> rfl

/-- Every shipped rule leaves a type to others or claims it with what can be claimed, where no
record is a leaf.  Only the rule for records can have run out before it looks. -/
theorem ruleValue_cases (hleaf : (answers (.flags ty)).object → answers (.intrinsic ty) = none)
    {rule : Rule} (hrule : rule ∈ Rule.shipped) :
    answers.ruleValue options nested fuel location active ty rule = some none ∨
    answers.ruleValue options nested fuel location active ty rule =
      answers.claimValue options nested fuel location active ty ∨
    fuel = 0 ∧ answers.ruleValue options nested fuel location active ty rule = none := by
  rcases Rule.mem_shipped.mp hrule with rfl | rfl | rfl
  · rw [ruleValue_intrinsic, claimValue]
    cases answers (.intrinsic ty) with
    | none => exact .inl rfl
    | some kind => exact .inr (.inl rfl)
  · rw [ruleValue_builtin, claimValue]
    cases hcontainer : answers.container? ty with
    | none => exact .inl rfl
    | some container =>
      rw [hleaf (answers.object_of_container hcontainer)]
      exact .inr (.inl rfl)
  · cases fuel with
    | zero => exact .inr (.inr ⟨rfl, rfl⟩)
    | succ fuel =>
      have hvalue : answers.ruleValue options nested (fuel + 1) location active ty .object = _ :=
        value_recognizeObject answers nested active fuel ⟨options, location⟩ ty
      by_cases hobject : (answers (.flags ty)).object
      · right
        left
        rw [claimValue, hleaf hobject, Option.elim_none]
        cases hcontainer : answers.container? ty with
        | none => rfl
        | some container =>
          rw [hvalue, if_pos hobject, hcontainer]
          rfl
      · left
        rw [hvalue, if_neg hobject]

/-- Among arranged rules is one that claims what can be claimed. -/
theorem exists_ruleValue_eq (hrules : Rule.Arranged rules) :
    ∃ rule ∈ rules, answers.ruleValue options nested fuel location active ty rule =
        answers.claimValue options nested fuel location active ty ∨
      fuel = 0 ∧ answers.ruleValue options nested fuel location active ty rule = none := by
  cases hintrinsic : answers (.intrinsic ty) with
  | some kind =>
    refine ⟨.intrinsic, hrules.intrinsic, .inl ?_⟩
    rw [ruleValue_intrinsic, claimValue, hintrinsic]
    rfl
  | none =>
    refine ⟨.object, hrules.object, ?_⟩
    have hleaf : (answers (.flags ty)).object → answers (.intrinsic ty) = none :=
      fun _ => hintrinsic
    rw [claimValue, hintrinsic, Option.elim_none]
    cases hcontainer : answers.container? ty with
    | none => exact .inl rfl
    | some container =>
      cases fuel with
      | zero => exact .inr ⟨rfl, rfl⟩
      | succ fuel =>
        left
        show (recognizeObject (fuel + 1) ⟨options, location⟩ ty).value answers nested active = _
        rw [value_recognizeObject, if_pos (answers.object_of_container hcontainer), hcontainer]
        rfl

/-- What arranged rules resolve a type to, the shipped registry does. -/
theorem dispatchValue_shipped_of_arranged (hrules : Rule.Arranged rules)
    (hleaf : (answers (.flags ty)).object → answers (.intrinsic ty) = none)
    (h : answers.dispatchValue options nested fuel location active ty title
      (Registry.ofRules rules) = some schema) :
    answers.dispatchValue options nested fuel location active ty title Registry.shipped =
      some schema := by
  rw [dispatchValue_shipped_eq_claimValue]
  have hsame : ∀ {rule : Rule}, answers.ruleValue options nested fuel location active ty rule =
        answers.claimValue options nested fuel location active ty ∨
      fuel = 0 ∧ answers.ruleValue options nested fuel location active ty rule = none →
      ∀ value, answers.ruleValue options nested fuel location active ty rule = some value →
        answers.claimValue options nested fuel location active ty = some value := by
    rintro rule (heq | ⟨-, hnone⟩) value hvalue
    · exact heq.symm.trans hvalue
    · cases hnone.symm.trans hvalue
  refine map_getD_of_dispatchValue (fun rule hrule => ?_) ?_ h
  · exact (ruleValue_cases hleaf (hrules.shipped hrule)).imp_right hsame
  · have hone : ∃ rule ∈ rules, answers.ruleValue options nested fuel location active ty rule =
          answers.claimValue options nested fuel location active ty ∨
        fuel = 0 ∧ answers.ruleValue options nested fuel location active ty rule = none :=
      exists_ruleValue_eq hrules
    obtain ⟨rule, hrule, hclaim⟩ := hone
    exact .inr ⟨rule, hrule, hsame hclaim⟩

/-- What the shipped registry resolves a type to, arranged rules do, given a call for its record. -/
theorem dispatchValue_arranged_of_shipped (hrules : Rule.Arranged rules)
    (hleaf : (answers (.flags ty)).object → answers (.intrinsic ty) = none)
    (h : answers.dispatchValue options nested (fuel + 1) location active ty title
      Registry.shipped = some schema) :
    answers.dispatchValue options nested (fuel + 1) location active ty title
      (Registry.ofRules rules) = some schema := by
  have hends : (answers.dispatchValue options nested (fuel + 1) location active ty title
      (Registry.ofRules rules)).isSome := by
    rw [dispatchValue_shipped_eq_claimValue] at h
    obtain ⟨claimed, hclaimed, -⟩ := Option.map_eq_some_iff.mp h
    refine isSome_dispatchValue fun rule hrule => ?_
    rcases ruleValue_cases hleaf (hrules.shipped hrule) with hvalue | hvalue | ⟨hzero, -⟩
    · exact Option.isSome_iff_exists.mpr ⟨_, hvalue⟩
    · exact Option.isSome_iff_exists.mpr ⟨_, hvalue.trans hclaimed⟩
    · cases hzero
  obtain ⟨schema', hschema'⟩ := Option.isSome_iff_exists.mp hends
  have hsame := dispatchValue_shipped_of_arranged hrules hleaf hschema'
  rw [hschema', ← h, hsame]

/-! ## Whole resolutions -/

/-- With one more call allowed, other arranged rules give a type the same schema, also with more
instantiations in progress beside their definitions. -/
theorem resolveValue_of_arranged
    (hleaf : ∀ ty, (answers (.flags ty)).object → answers (.intrinsic ty) = none)
    (hmembers : answers.members location' = answers.members location)
    (hrules : Rule.Arranged rules) (hrules' : Rule.Arranged rules') (hfuel : fuel < fuel')
    (hcovers : answers.Covers options active more)
    (h : answers.resolveValue (Registry.ofRules rules) options location fuel depth active ty title =
      some schema) :
    answers.resolveValue (Registry.ofRules rules') options location' fuel' depth more ty title =
      some schema := by
  induction fuel generalizing fuel' depth active more ty title schema with
  | zero => cases h
  | succ fuel ih =>
    obtain ⟨fuel', rfl⟩ : ∃ rest, fuel' = rest + 2 := ⟨fuel' - 2, by omega⟩
    have hsides : answers.Compared ⟨options, location⟩ ⟨options, location'⟩ id id
        (fun active ty => answers.resolveValue (Registry.ofRules rules) options location fuel
          (depth + 1) active ty none)
        (fun active ty => answers.resolveValue (Registry.ofRules rules') options location'
          (fuel' + 1) (depth + 1) active ty none) :=
      ⟨Schema.beneath_id, rfl, hmembers, fun hcovers h => ih (by omega) hcovers h⟩
    rw [resolveValue] at h ⊢
    by_cases hlimit : options.maxDepth ≤ depth
    · rwa [if_pos hlimit] at h ⊢
    rw [if_neg hlimit] at h ⊢
    by_cases hactive : ty ∈ active
    · rw [if_pos hactive] at h
      rwa [if_pos (hcovers.subset hactive)]
    rw [if_neg hactive] at h
    have hshipped := dispatchValue_shipped_of_arranged hrules (hleaf ty) h
    by_cases hmore : ty ∈ more
    · -- The other side answers at once what this side has found at the definition.
      obtain ⟨target, htarget, hreplaced⟩ := hcovers.replaced ty hmore hactive
      rw [if_pos hmore, hreplaced.dispatchValue_eq (List.mem_cons_of_mem _ htarget) hshipped]
    · rw [if_neg hmore]
      have hsteps : fuel ≤ fuel' + 1 := by omega
      have hother := hsides.dispatchValue hsteps (hcovers.cons ty) hshipped
      exact dispatchValue_arranged_of_shipped hrules' (hleaf ty) hother

/-- Among finitely many types, a resolution by shipped rules of any kind and order comes to an
end. -/
theorem isSome_resolveValue_of_shipped {types : Finset τ} (hrules : rules ⊆ Rule.shipped)
    (hclosed : Closed answers options location (types : Set τ)) (hty : ty ∈ types)
    (hroom : room types active < fuel) :
    (answers.resolveValue (Registry.ofRules rules) options location fuel depth active ty
      title).isSome := by
  induction fuel generalizing depth active ty title with
  | zero => cases hroom
  | succ fuel ih =>
    rw [resolveValue]
    split
    · rfl
    split
    · rfl
    rename_i hnew
    have hlt := room_cons_lt hty hnew
    have hnested : ∀ more part, ty :: active ⊆ more → part ∈ types →
        (answers.resolveValue (Registry.ofRules rules) options location fuel (depth + 1) more part
          none).isSome := by
      intro more part hmore hpart
      have hle : room types more ≤ room types (ty :: active) := room_le hmore
      exact ih hpart (by omega)
    refine isSome_dispatchValue fun rule hrule => ?_
    rcases Rule.mem_shipped.mp (hrules hrule) with rfl | rfl | rfl
    · rw [ruleValue_intrinsic]
      rfl
    · rw [ruleValue_builtin]
      cases hcontainer : answers.container? ty with
      | none => rfl
      | some container =>
        rw [Option.elim_some, Option.isSome_map, isSome_containerSchema_iff]
        intro item hitem
        split at hitem
        · rename_i harray
          exact hnested _ item (List.Subset.refl _)
            (hclosed.item hty (harray ▸ hcontainer) (Option.mem_toList.mp hitem))
        · cases hitem
    · exact isSome_recognizeObject_of_closed hclosed hty hnested (by omega)

/-! ## Sites -/

theorem value_recognizeObject_location
    (hmembers : answers.members location' = answers.members location) (steps : Nat) :
    (recognizeObject steps ⟨options, location'⟩ ty).value answers nested active =
      (recognizeObject steps ⟨options, location⟩ ty).value answers nested active := by
  induction steps generalizing ty active with
  | zero => rfl
  | succ steps ih =>
    rw [value_recognizeObject, value_recognizeObject]
    simp only [Inquiry.value_within, ih, recordSchema, hmembers]

theorem dispatchValue_location (hrules : rules ⊆ Rule.shipped)
    (hmembers : answers.members location' = answers.members location) :
    answers.dispatchValue options nested fuel location' active ty title (Registry.ofRules rules) =
      answers.dispatchValue options nested fuel location active ty title
        (Registry.ofRules rules) := by
  induction rules with
  | nil => rfl
  | cons rule rest ih =>
    obtain ⟨hrule, hrest⟩ := List.cons_subset.mp hrules
    have hvalue : answers.ruleValue options nested fuel location' active ty rule =
        answers.ruleValue options nested fuel location active ty rule := by
      rcases Rule.mem_shipped.mp hrule with rfl | rfl | rfl
      · rfl
      · rfl
      · exact value_recognizeObject_location hmembers fuel
    rw [dispatchValue_cons, dispatchValue_cons, hvalue, ih hrest]

/-- The schema of a type does not depend on the site that it is seen from, where its members do
not. -/
theorem resolveValue_location (hrules : rules ⊆ Rule.shipped)
    (hmembers : answers.members location' = answers.members location) :
    answers.resolveValue (Registry.ofRules rules) options location' fuel depth active ty title =
      answers.resolveValue (Registry.ofRules rules) options location fuel depth active ty
        title := by
  induction fuel generalizing depth active ty title with
  | zero => rfl
  | succ fuel ih =>
    rw [resolveValue, resolveValue]
    simp only [ih, dispatchValue_location hrules hmembers]

end Answers

end GraphSchema
