import Mathlib
import GraphSchema.Proofs.Resolution.Records

/-!
# When resolutions come to an end

Where instantiations are resolved by their own members, a resolution goes from a type to its
`parents`, the base types that it inherits from, and to its `parts`, the types of its members or
items.  Going to a part is bounded by the nesting limit and going to a parent is not, and neither
happens for a type in progress.  `Answers.Reaches` holds of the types on such ways.

The resolution of a type comes to an end exactly when it reaches finitely many types
(`Answers.exists_isSome_iff_finite`).  If these are finitely many, a bound on the nesting of
calls that exceeds their number is enough, since every call marks one more of them as in
progress.  Conversely every type that is reached is reached on a way that enters no type twice,
and a resolution that ends has followed all of these.
-/

namespace GraphSchema.Answers

variable {τ σ ν : Type} (answers : Answers τ σ ν) (location : ν)

/-- The base types that a type is looked up in for its members. -/
def parents (ty : τ) : List τ :=
  if (answers (.flags ty)).object then
    (answers.container? ty).elim
      (if (answers (.flags ty)).tuple then [] else answers.baseTypes ty) fun _ => []
  else []

/-- The types that are nested in a type: those of its own members, or its items. -/
def parts (ty : τ) : List τ :=
  if (answers (.flags ty)).object then
    (answers.container? ty).elim
      (if (answers (.flags ty)).tuple then [] else (answers.members location ty).map Prod.snd)
      fun container => if container = .array then (answers.item? ty).toList else []
  else []

theorem object_of_container {ty : τ} {container : Container}
    (h : answers.container? ty = some container) : (answers (.flags ty)).object := by
  by_contra hobject
  rw [container?, if_neg hobject] at h
  cases h

theorem parents_of_container {ty : τ} {container : Container}
    (h : answers.container? ty = some container) : answers.parents ty = [] := by
  rw [parents, if_pos (answers.object_of_container h), h]
  rfl

theorem parts_of_container {ty : τ} {container : Container}
    (h : answers.container? ty = some container) :
    answers.parts location ty =
      if container = .array then (answers.item? ty).toList else [] := by
  rw [parts, if_pos (answers.object_of_container h), h]
  rfl

theorem parents_subset_baseTypes (ty : τ) : answers.parents ty ⊆ answers.baseTypes ty := by
  intro parent h
  unfold parents at h
  split at h
  · cases hcontainer : answers.container? ty with
    | some container =>
      rw [hcontainer] at h
      cases h
    | none =>
      rw [hcontainer, Option.elim_none] at h
      split at h
      · cases h
      · exact h
  · cases h

/-- A type is reached with at most so many nestings and without entering a type to avoid. -/
inductive Reaches (avoid : List τ) : Nat → τ → τ → Prop where
  | here {limit : Nat} {ty : τ} (hty : ty ∉ avoid) : Reaches avoid (limit + 1) ty ty
  | parent {limit : Nat} {ty parent other : τ} (hty : ty ∉ avoid)
      (hparent : parent ∈ answers.parents ty) (h : Reaches avoid (limit + 1) parent other) :
      Reaches avoid (limit + 1) ty other
  | part {limit : Nat} {ty part other : τ} (hty : ty ∉ avoid)
      (hpart : part ∈ answers.parts location ty) (h : Reaches avoid limit part other) :
      Reaches avoid (limit + 1) ty other

variable {answers location}

/-! ## Ways -/

theorem Reaches.not_mem {avoid : List τ} {limit : Nat} {ty other : τ}
    (h : answers.Reaches location avoid limit ty other) : ty ∉ avoid := by
  cases h <;> assumption

theorem Reaches.mono {avoid : List τ} {limit more : Nat} {ty other : τ}
    (h : answers.Reaches location avoid limit ty other) (hle : limit ≤ more) :
    answers.Reaches location avoid more ty other := by
  induction h generalizing more with
  | here hty =>
    obtain ⟨more, rfl⟩ : ∃ rest, more = rest + 1 := ⟨more - 1, by omega⟩
    exact .here hty
  | parent hty hparent _ ih =>
    obtain ⟨more, rfl⟩ : ∃ rest, more = rest + 1 := ⟨more - 1, by omega⟩
    exact .parent hty hparent (ih hle)
  | part hty hpart _ ih =>
    obtain ⟨more, rfl⟩ : ∃ rest, more = rest + 1 := ⟨more - 1, by omega⟩
    exact .part hty hpart (ih (Nat.le_of_succ_le_succ hle))

/-- A way can be cut where it enters a type for the last time. -/
theorem Reaches.cut [DecidableEq τ] {avoid : List τ} {limit more : Nat} {ty other : τ}
    (h : answers.Reaches location avoid limit ty other) (start : τ) (hle : limit ≤ more + 1) :
    answers.Reaches location (start :: avoid) limit ty other ∨ other = start ∨
      (∃ parent ∈ answers.parents start,
        answers.Reaches location (start :: avoid) (more + 1) parent other) ∨
      ∃ part ∈ answers.parts location start,
        answers.Reaches location (start :: avoid) more part other := by
  induction h with
  | @here limit ty hty =>
    by_cases hstart : ty = start
    · exact .inr (.inl hstart)
    · exact .inl (.here (by simp [hstart, hty]))
  | @parent limit ty parent other hty hparent _ ih =>
    rcases ih hle with h | h
    · by_cases hstart : ty = start
      · subst hstart
        exact .inr (.inr (.inl ⟨parent, hparent, h.mono hle⟩))
      · exact .inl (.parent (by simp [hstart, hty]) hparent h)
    · exact .inr h
  | @part limit ty part other hty hpart _ ih =>
    rcases ih (by omega) with h | h
    · by_cases hstart : ty = start
      · subst hstart
        exact .inr (.inr (.inr ⟨part, hpart, h.mono (by omega)⟩))
      · exact .inl (.part (by simp [hstart, hty]) hpart h)
    · exact .inr h

/-- What a type reaches is finite where what its parents and parts reach beyond it is. -/
theorem finite_reaches [DecidableEq τ] {avoid : List τ} {limit : Nat} {ty : τ}
    (hparents : ∀ parent ∈ answers.parents ty,
      {other | answers.Reaches location (ty :: avoid) (limit + 1) parent other}.Finite)
    (hparts : ∀ part ∈ answers.parts location ty,
      {other | answers.Reaches location (ty :: avoid) limit part other}.Finite) :
    {other | answers.Reaches location avoid (limit + 1) ty other}.Finite := by
  have hcover : {other | answers.Reaches location avoid (limit + 1) ty other} ⊆
      {ty} ∪ ((⋃ parent ∈ answers.parents ty,
          {other | answers.Reaches location (ty :: avoid) (limit + 1) parent other}) ∪
        ⋃ part ∈ answers.parts location ty,
          {other | answers.Reaches location (ty :: avoid) limit part other}) := by
    intro other h
    rcases Reaches.cut h ty le_rfl with h | h | ⟨parent, hparent, h⟩ | ⟨part, hpart, h⟩
    · exact absurd List.mem_cons_self h.not_mem
    · exact .inl h
    · exact .inr (.inl (Set.mem_biUnion (x := parent) hparent h))
    · exact .inr (.inr (Set.mem_biUnion (x := part) hpart h))
  refine Set.Finite.subset ?_ hcover
  exact (Set.finite_singleton ty).union
    ((Set.Finite.biUnion (List.finite_toSet _) hparents).union
      (Set.Finite.biUnion (List.finite_toSet _) hparts))

/-! ## One call -/

section Call

/-- A container has a schema where its items have one. -/
theorem isSome_containerSchema_iff {items : τ → Option Schema} {ty : τ} {container : Container} :
    (answers.containerSchema items ty container).isSome ↔
      ∀ item ∈ (if container = .array then (answers.item? ty).toList else []),
        (items item).isSome := by
  cases container with
  | array =>
    rw [containerSchema]
    cases answers.item? ty <;> simp
  | date => simp [containerSchema]
  | promise => simp [containerSchema]

variable [DecidableEq τ] {nested : List τ → τ → Option Schema} {active : List τ}

/-- A call for a record ends where the calls for its parents and parts do. -/
theorem isSome_recognizeObject_succ_iff {options : Options}
    (hmode : options.generics = .instantiated) {steps : Nat} {ty : τ} :
    ((recognizeObject (steps + 1) ⟨options, location⟩ ty).value answers nested active).isSome ↔
      (∀ parent ∈ answers.parents ty, parent ∈ active ∨
        ((recognizeObject steps ⟨options, location⟩ parent).value answers nested
          (parent :: active)).isSome) ∧
      ∀ part ∈ answers.parts location ty, (nested active part).isSome := by
  have hredirect : answers.redirect? options ty = none := by simp [redirect?, hmode]
  rw [value_recognizeObject, parents, parts, hredirect]
  by_cases hobject : (answers (.flags ty)).object
  · simp only [hobject, if_true]
    cases answers.container? ty with
    | some container => simpa using isSome_containerSchema_iff
    | none =>
      by_cases htuple : (answers (.flags ty)).tuple
      · simp [htuple]
      · simp only [htuple, Bool.false_eq_true, if_false, Option.elim_none, Option.bind_some,
          Option.isSome_map, isSome_recordSchema_iff, Inquiry.value_within]
        refine and_congr_left fun _ => forall₂_congr fun parent _ => ?_
        by_cases hactive : parent ∈ active <;> simp [hactive]
  · simp [hobject]

theorem dispatchValue_shipped (options : Options) (fuel : Nat) (ty : τ) (title : Option String) :
    answers.dispatchValue options nested fuel location active ty title Registry.shipped =
      ((answers (.intrinsic ty)).map Schema.intrinsic).elim
        ((answers.container? ty).elim
          (((recognizeObject fuel ⟨options, location⟩ ty).value answers nested active).bind
            fun claimed => claimed.elim (some (.any title)) some)
          (answers.containerSchema (nested active) ty)) some := by
  simp only [Registry.shipped, dispatchValue, Recognizer.intrinsic, Recognizer.builtin,
    Recognizer.object, value_recognizeIntrinsic, value_recognizeContainer, Option.bind_some]
  refine congrArg (Option.elim _ · _) ?_
  cases answers.container? ty with
  | none => rfl
  | some container =>
    simp only [Option.elim_some]
    cases answers.containerSchema (nested active) ty container <;> rfl

/-- A type is resolved where a call for its record ends. -/
theorem isSome_dispatchValue_of_recognizeObject {options : Options} {fuel : Nat} {ty : τ}
    {title : Option String}
    (h : ((recognizeObject fuel ⟨options, location⟩ ty).value answers nested active).isSome) :
    (answers.dispatchValue options nested fuel location active ty title
      Registry.shipped).isSome := by
  rw [dispatchValue_shipped]
  cases answers (.intrinsic ty) with
  | some kind => rfl
  | none =>
    cases hcontainer : answers.container? ty with
    | none =>
      obtain ⟨claimed, hclaimed⟩ := Option.isSome_iff_exists.mp h
      rw [hclaimed]
      cases claimed <;> rfl
    | some container =>
      cases fuel with
      | zero => cases h
      | succ steps =>
        rw [value_recognizeObject, if_pos (answers.object_of_container hcontainer), hcontainer,
          Option.elim_some, Option.isSome_map] at h
        exact h

/-- Where a type is resolved, its record was looked at as far as it is one. -/
theorem isSome_of_dispatchValue {options : Options} {fuel : Nat} {ty : τ} {title : Option String}
    (hleaf : (answers (.flags ty)).object → answers (.intrinsic ty) = none)
    (h : (answers.dispatchValue options nested fuel location active ty title
      Registry.shipped).isSome) :
    (answers.parents ty = [] ∧ ∀ part ∈ answers.parts location ty, (nested active part).isSome) ∨
      ((recognizeObject fuel ⟨options, location⟩ ty).value answers nested active).isSome := by
  rw [dispatchValue_shipped] at h
  by_cases hobject : (answers (.flags ty)).object
  · rw [hleaf hobject] at h
    cases hcontainer : answers.container? ty with
    | none =>
      rw [hcontainer] at h
      exact .inr (Option.isSome_of_isSome_bind h)
    | some container =>
      rw [hcontainer] at h
      refine .inl ⟨answers.parents_of_container hcontainer, ?_⟩
      rw [answers.parts_of_container location hcontainer]
      exact isSome_containerSchema_iff.mp h
  · left
    simp [parents, parts, hobject]

end Call

/-! ## Whole resolutions -/

section Whole

variable [DecidableEq τ] {options : Options}

/-- A call that ends has followed all ways from its type. -/
theorem finite_reaches_of_recognizeObject (hmode : options.generics = .instantiated)
    {nested : List τ → τ → Option Schema} {limit steps : Nat} {active : List τ} {ty : τ}
    (hnested : ∀ active part, (nested active part).isSome →
      {other | answers.Reaches location active limit part other}.Finite)
    (h : ((recognizeObject steps ⟨options, location⟩ ty).value answers nested
      (ty :: active)).isSome) :
    {other | answers.Reaches location active (limit + 1) ty other}.Finite := by
  induction steps generalizing active ty with
  | zero => cases h
  | succ steps ih =>
    obtain ⟨hparents, hparts⟩ := (isSome_recognizeObject_succ_iff hmode).mp h
    refine finite_reaches (fun parent hparent => ?_) fun part hpart => ?_
    · rcases hparents parent hparent with hseen | hcall
      · refine Set.Finite.subset Set.finite_empty fun other hother => ?_
        exact absurd hseen (Reaches.not_mem hother)
      · exact ih hcall
    · exact hnested _ _ (hparts part hpart)

theorem finite_reaches_of_resolveValue (hmode : options.generics = .instantiated)
    (hleaf : ∀ ty, (answers (.flags ty)).object → answers (.intrinsic ty) = none)
    {fuel depth : Nat} {active : List τ} {ty : τ} {title : Option String}
    (h : (answers.resolveValue Registry.shipped options location fuel depth active ty
      title).isSome) :
    {other | answers.Reaches location active (options.maxDepth - depth) ty other}.Finite := by
  induction fuel generalizing depth active ty title with
  | zero => cases h
  | succ fuel ih =>
    rw [resolveValue] at h
    split at h
    · rename_i hlimit
      rw [Nat.sub_eq_zero_of_le hlimit]
      refine Set.Finite.subset Set.finite_empty fun other hother => ?_
      cases hother
    · rename_i hlimit
      split at h
      · rename_i hseen
        refine Set.Finite.subset Set.finite_empty fun other hother => ?_
        exact absurd hseen (Reaches.not_mem hother)
      · have hdepth : options.maxDepth - depth = options.maxDepth - (depth + 1) + 1 := by omega
        rw [hdepth]
        rcases isSome_of_dispatchValue (hleaf ty) h with ⟨hparents, hparts⟩ | hcall
        · refine finite_reaches (fun parent hparent => ?_) fun part hpart => ih (hparts part hpart)
          rw [hparents] at hparent
          cases hparent
        · exact finite_reaches_of_recognizeObject hmode (fun _ _ h => ih h) hcall

/-- How many types of a list are not in progress. -/
def room (types : Finset τ) (active : List τ) : Nat := (types.filter (· ∉ active)).card

theorem room_le {types : Finset τ} {active more : List τ} (h : active ⊆ more) :
    room types more ≤ room types active := by
  refine Finset.card_le_card fun ty hty => ?_
  obtain ⟨hmem, hnew⟩ := Finset.mem_filter.mp hty
  exact Finset.mem_filter.mpr ⟨hmem, fun hactive => hnew (h hactive)⟩

theorem room_cons_lt {types : Finset τ} {active : List τ} {ty : τ} (hmem : ty ∈ types)
    (hnew : ty ∉ active) : room types (ty :: active) < room types active := by
  refine Finset.card_lt_card (Finset.ssubset_iff_of_subset ?_ |>.mpr ⟨ty, ?_, ?_⟩)
  · intro other hother
    obtain ⟨hmem, hnew⟩ := Finset.mem_filter.mp hother
    exact Finset.mem_filter.mpr ⟨hmem, fun hactive => hnew (List.mem_cons_of_mem _ hactive)⟩
  · exact Finset.mem_filter.mpr ⟨hmem, hnew⟩
  · simp

/-- A call has steps enough where they exceed the number of types that are left to enter. -/
theorem isSome_recognizeObject_of_room (hmode : options.generics = .instantiated)
    {nested : List τ → τ → Option Schema} {types : Finset τ} {avoid active : List τ}
    {limit steps : Nat} {ty : τ} (hty : ty ∉ avoid) (havoid : avoid ⊆ active)
    (hreach : ∀ other, answers.Reaches location avoid (limit + 1) ty other → other ∈ types)
    (hnested : ∀ more part, active ⊆ more →
      (∀ other, answers.Reaches location avoid limit part other → other ∈ types) →
      (nested more part).isSome)
    (hroom : room types active < steps) :
    ((recognizeObject steps ⟨options, location⟩ ty).value answers nested active).isSome := by
  induction steps generalizing active ty with
  | zero => cases hroom
  | succ steps ih =>
    refine (isSome_recognizeObject_succ_iff hmode).mpr ⟨fun parent hparent => ?_, fun part hpart =>
      hnested active part (List.Subset.refl _) fun other h => hreach other (.part hty hpart h)⟩
    by_cases hseen : parent ∈ active
    · exact .inl hseen
    · have hnew : parent ∉ avoid := fun hmem => hseen (havoid hmem)
      have hreach' : ∀ other, answers.Reaches location avoid (limit + 1) parent other →
          other ∈ types := fun other h => hreach other (.parent hty hparent h)
      have hlt := room_cons_lt (hreach' parent (.here hnew)) hseen
      refine .inr (ih hnew (List.subset_cons_of_subset _ havoid) hreach' ?_ (by omega))
      intro more part hmore
      exact hnested more part (List.Subset.trans (List.subset_cons_self _ _) hmore)

theorem isSome_resolveValue_of_room (hmode : options.generics = .instantiated)
    {types : Finset τ} {avoid active : List τ} {fuel depth : Nat} {ty : τ}
    {title : Option String} (havoid : avoid ⊆ active)
    (hreach : ∀ other, answers.Reaches location avoid (options.maxDepth - depth) ty other →
      other ∈ types)
    (hroom : room types active < fuel) :
    (answers.resolveValue Registry.shipped options location fuel depth active ty title).isSome := by
  induction fuel generalizing depth active ty title with
  | zero => cases hroom
  | succ fuel ih =>
    rw [resolveValue]
    split
    · rfl
    · rename_i hlimit
      split
      · rfl
      · rename_i hseen
        have hnew : ty ∉ avoid := fun hmem => hseen (havoid hmem)
        have hdepth : options.maxDepth - depth = options.maxDepth - (depth + 1) + 1 := by omega
        rw [hdepth] at hreach
        have hlt := room_cons_lt (hreach ty (.here hnew)) hseen
        refine isSome_dispatchValue_of_recognizeObject ?_
        refine isSome_recognizeObject_of_room hmode hnew (List.subset_cons_of_subset _ havoid)
          hreach ?_ (by omega)
        intro more part hmore hreach'
        have hle : room types more ≤ _ := room_le hmore
        exact ih (List.Subset.trans (List.subset_cons_of_subset _ havoid) hmore) hreach' (by omega)

/-- A resolution comes to an end exactly where its type reaches finitely many types. -/
theorem exists_isSome_iff_finite (hmode : options.generics = .instantiated)
    (hleaf : ∀ ty, (answers (.flags ty)).object → answers (.intrinsic ty) = none)
    {depth : Nat} {active : List τ} {ty : τ} {title : Option String} :
    (∃ fuel, (answers.resolveValue Registry.shipped options location fuel depth active ty
        title).isSome) ↔
      {other | answers.Reaches location active (options.maxDepth - depth) ty other}.Finite := by
  constructor
  · rintro ⟨fuel, h⟩
    exact finite_reaches_of_resolveValue hmode hleaf h
  · intro hfinite
    refine ⟨room hfinite.toFinset active + 1, isSome_resolveValue_of_room hmode
      (List.Subset.refl _) (fun other h => hfinite.mem_toFinset.mpr h) (Nat.lt_succ_self _)⟩

end Whole

end GraphSchema.Answers
