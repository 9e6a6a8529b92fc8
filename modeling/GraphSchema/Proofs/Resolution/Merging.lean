import Mathlib
import GraphSchema.Proofs.Fields
import GraphSchema.Proofs.Inheritance
import GraphSchema.Proofs.Resolution.Required
import GraphSchema.Proofs.Resolution.Simulation

/-!
# How members are merged

A record that is not a container, not a tuple and not replaced by its definition is made of what its
base types resolve to and of its own members.  A name keeps the place of its first writing, and the
last writing gives the value, so own members win over inherited ones and later base types over
earlier ones, while the order of the names is that of the base types, then of the members.

**Main statement.**  `recognizeObject_merges`: a call that gets as far as the members returns what
`MemberParts.Makes` says of the parts, for every checker and from every state, and it returns
whenever the parts are read to the end.

The parts are what is read: `memberParts` asks the same questions as `memberRecord`, in the same
order, and keeps all the answers, so that the law of merging is a statement about two lists.
-/

namespace GraphSchema

variable {W τ σ ν α β γ : Type}

/-! ## Sequences of inquiries -/

theorem Inquiry.andThen_assoc (first : Inquiry τ σ ν α) (rest : α → Inquiry τ σ ν β)
    (last : β → Inquiry τ σ ν γ) :
    (first.andThen rest).andThen last = first.andThen fun result => (rest result).andThen last := by
  induction first with
  | done result => rfl
  | ask question next ih => exact congrArg _ (funext fun answer => ih answer rest)
  | resolve ty next ih => exact congrArg _ (funext fun schema => ih schema rest)
  | guarded ty body next _ ih => exact congrArg _ (funext fun claimed => ih claimed rest)
  | exhausted => rfl

theorem Inquiry.andThen_done (first : Inquiry τ σ ν α) : first.andThen done = first := by
  induction first with
  | done result => rfl
  | ask question next ih => exact congrArg _ (funext ih)
  | resolve ty next ih => exact congrArg _ (funext ih)
  | guarded ty body next _ ih => exact congrArg _ (funext ih)
  | exhausted => rfl

instance : LawfulMonad (Inquiry τ σ ν) :=
  LawfulMonad.mk' _ Inquiry.andThen_done (fun _ _ => rfl) Inquiry.andThen_assoc

open Inquiry (question schemaOf within)

/-! ## The parts of a record -/

/-- What a record is made of, as it is read. -/
structure MemberParts where
  /-- What the base types resolve to, in their order. -/
  bases : List (Option Schema)
  /-- The own members as they are listed, repetitions included. -/
  own : List (String × Schema)
  /-- The name of the type's symbol. -/
  title : Option String

/-- Resolve base types one after the other. -/
def resolveBases (recognize : τ → Inquiry τ σ ν (Option Schema)) :
    List τ → Inquiry τ σ ν (List (Option Schema))
  | [] => return []
  | base :: rest => do
    let claimed ← within base (recognize base)
    return claimed :: (← resolveBases recognize rest)

/-- Resolve the members that are listed. -/
def listMembers (location : ν) : List σ → Inquiry τ σ ν (List (String × Schema))
  | [] => return []
  | symbol :: rest => do
    let ty ← question (.memberType symbol location)
    let name ← question (.symbolName symbol)
    let schema ← schemaOf ty
    return (name, schema) :: (← listMembers location rest)

/-- The base types that a record is looked for in: none where it cannot have any. -/
def consultedBases (flags : Flags) (ty : τ) : Inquiry τ σ ν (List τ) := do
  if flags.interface then return (← question (.bases ty)).getD [] else return []

/-- Read the parts of a record. -/
def memberParts (recognize : τ → Inquiry τ σ ν (Option Schema)) (location : ν) (flags : Flags)
    (ty : τ) : Inquiry τ σ ν MemberParts := do
  let resolved ← resolveBases recognize (← consultedBases flags ty)
  let own ← listMembers location (← question (.properties ty))
  let title ← symbolNameOf ty
  return { bases := resolved, own, title }

namespace MemberParts

/-- The law of merging: which properties a record of these parts has. -/
structure Makes (parts : MemberParts) (properties : Fields Schema) : Prop where
  /-- The names of the base types that are records, in their order, and then the own ones, each at
  its first appearance. -/
  keys : Fields.keys properties =
    ((parts.bases.flatMap fun claimed => Fields.keys (Schema.recordProperties claimed)) ++
      parts.own.map Prod.fst).eraseDups
  /-- The last own member of a name gives the value, else the last base type that is a record with
  such a property. -/
  value : ∀ name, Fields.get? properties name =
    (parts.own.reverse.lookup name).or
      (parts.bases.reverse.findSome? fun claimed =>
        Fields.get? (Schema.recordProperties claimed) name)

/-- The properties that base types hand on. -/
def inherited (parts : MemberParts) : Fields Schema :=
  parts.bases.foldl (fun fields claimed => Fields.merge fields (Schema.recordProperties claimed)) []

/-- All properties of a record of these parts. -/
def properties (parts : MemberParts) : Fields Schema :=
  Fields.merge parts.inherited (Fields.ofEntries parts.own)

end MemberParts

/-- Inherited properties are merged as soon as they are read, which could as well be done
afterwards. -/
theorem inheritFrom_eq (recognize : τ → Inquiry τ σ ν (Option Schema)) (bases : List τ)
    (inherited : Fields Schema) :
    inheritFrom recognize bases inherited = do
      let resolved ← resolveBases recognize bases
      return resolved.foldl
        (fun fields claimed => Fields.merge fields (Schema.recordProperties claimed)) inherited := by
  induction bases generalizing inherited with
  | nil => rfl
  | cons base rest ih => simp [inheritFrom, resolveBases, ih]

theorem resolveMembers_eq (location : ν) (symbols : List σ) (members : Fields Schema) :
    (resolveMembers location symbols members : Inquiry τ σ ν (Fields Schema)) = do
      let own ← listMembers location symbols
      return Fields.merge members own := by
  induction symbols generalizing members with
  | nil => rfl
  | cons symbol rest ih => simp [resolveMembers, listMembers, ih]

namespace MemberParts

theorem nodup_inherited (parts : MemberParts) : (Fields.keys parts.inherited).Nodup := by
  unfold inherited
  refine List.foldlRecOn (motive := fun fields => (Fields.keys fields).Nodup) parts.bases _
    List.nodup_nil ?_
  intro fields h claimed _
  exact Fields.nodup_merge h _

end MemberParts

/-- The record is made of its parts. -/
theorem memberRecord_eq (recognize : τ → Inquiry τ σ ν (Option Schema)) (location : ν)
    (flags : Flags) (ty : τ) :
    memberRecord recognize location flags ty = do
      let parts ← memberParts recognize location flags ty
      return some (.object parts.title parts.properties (Fields.keys parts.properties)) := by
  have hparts : ∀ parts : MemberParts, Schema.object parts.title parts.properties
      (Names.union (Names.union [] (Fields.keys parts.inherited))
        (Fields.keys (Fields.ofEntries parts.own))) =
      .object parts.title parts.properties (Fields.keys parts.properties) := by
    intro parts
    rw [Names.union_keys parts.nodup_inherited]
    rfl
  simp only [← hparts]
  by_cases hinterface : flags.interface <;>
    simp [memberRecord, memberParts, consultedBases, inheritFrom_eq, resolveMembers_eq, hinterface,
      MemberParts.properties, MemberParts.inherited, Fields.ofEntries]

/-! ## The law of merging -/

namespace MemberParts

variable {parts : MemberParts}

theorem keys_inherited (parts : MemberParts) :
    Fields.keys parts.inherited = Names.union []
      (parts.bases.flatMap fun claimed => Fields.keys (Schema.recordProperties claimed)) := by
  unfold inherited
  induction parts.bases using List.reverseRecOn with
  | nil => rfl
  | append_singleton bases claimed ih =>
    rw [List.foldl_concat, Fields.keys_merge, ih, List.flatMap_append, List.flatMap_singleton]
    exact (List.foldl_append ..).symm

/-- What is found under a name is what the last base type with such a property handed on. -/
theorem get?_inherited
    (h : ∀ claimed ∈ parts.bases, (Fields.keys (Schema.recordProperties claimed)).Nodup)
    (name : String) :
    Fields.get? parts.inherited name = parts.bases.reverse.findSome? fun claimed =>
      Fields.get? (Schema.recordProperties claimed) name := by
  obtain ⟨bases, own, title⟩ := parts
  unfold inherited
  induction bases using List.reverseRecOn with
  | nil => rfl
  | append_singleton bases claimed ih =>
    have hbases := ih fun other hother => h other (List.mem_append_left _ hother)
    have hclaimed := h claimed (List.mem_append_right _ (List.mem_singleton.mpr rfl))
    rw [List.foldl_concat, Fields.get?_merge, Fields.lookup_reverse hclaimed, hbases,
      List.reverse_concat, List.findSome?_cons]
    cases Fields.get? (Schema.recordProperties claimed) name <;> rfl

theorem makes_properties
    (h : ∀ claimed ∈ parts.bases, (Fields.keys (Schema.recordProperties claimed)).Nodup) :
    parts.Makes parts.properties where
  keys := by
    have hown : Fields.keys (Fields.ofEntries parts.own) =
        Names.union [] (parts.own.map Prod.fst) := Fields.keys_merge [] parts.own
    rw [properties, Fields.keys_merge, keys_inherited, hown, Names.union_union_nil,
      ← Names.union_nil_left]
    exact (List.foldl_append ..).symm
  value name := by
    have hown : Fields.get? (Fields.ofEntries parts.own) name = parts.own.reverse.lookup name := by
      rw [Fields.ofEntries, Fields.get?_merge, Fields.get?, Option.or_none]
    rw [properties, Fields.get?_merge, Fields.lookup_reverse (Fields.nodup_ofEntries parts.own),
      hown, get?_inherited h]

theorem nodup_properties (parts : MemberParts) : (Fields.keys parts.properties).Nodup :=
  Fields.nodup_merge parts.nodup_inherited _

/-- The law leaves no choice. -/
theorem Makes.eq_properties {properties : Fields Schema} (hmakes : parts.Makes properties)
    (h : ∀ claimed ∈ parts.bases, (Fields.keys (Schema.recordProperties claimed)).Nodup) :
    properties = parts.properties := by
  have hkeys : Fields.keys parts.properties = Fields.keys properties :=
    (makes_properties h).keys.trans hmakes.keys.symm
  have hvalue : ∀ name, Fields.get? parts.properties name = Fields.get? properties name :=
    fun name => ((makes_properties h).value name).trans (hmakes.value name).symm
  exact (Fields.ext_of_get? parts.nodup_properties hkeys hvalue).symm

end MemberParts

/-! ## Calls for a record -/

/-- What is known about a type before its members are looked at. -/
inductive Verdict where
  /-- The call ends here: the type is no record, or a container, or a tuple, or its definition has
  been claimed in its place. -/
  | settled (claimed : Option Schema)
  /-- The members have to be read. -/
  | members (flags : Flags)

/-- A call for a record as far as it gets without looking at members. -/
def verdict [DecidableEq τ] (steps : Nat) (context : Context ν) (ty : τ) :
    Inquiry τ σ ν Verdict := do
  let flags ← question (.flags ty)
  if !flags.object then return .settled none
  else
    match ← recognizeContainer ty with
    | some container => return .settled (some container)
    | none =>
      if flags.tuple then return .settled (some (.array (.any none)))
      else
        let redirected ←
          match ← redirectTarget context.options flags ty with
          | some target => within target (recognizeObject steps context target)
          | none => pure none
        match redirected with
        | some schema => return .settled (some schema)
        | none => return .members flags

theorem recognizeObject_succ [DecidableEq τ] (steps : Nat) (context : Context ν) (ty : τ) :
    (recognizeObject (steps + 1) context ty : Inquiry τ σ ν (Option Schema)) =
      verdict steps context ty >>= fun
        | .settled claimed => pure claimed
        | .members flags =>
          memberRecord (recognizeObject steps context) context.location flags ty := by
  rw [recognizeObject, verdict, bind_assoc]
  refine bind_congr fun flags => ?_
  by_cases hobject : flags.object
  · rw [hobject, Bool.not_true, if_neg Bool.false_ne_true, if_neg Bool.false_ne_true, bind_assoc]
    refine bind_congr fun container => ?_
    cases container with
    | some container => rfl
    | none =>
      by_cases htuple : flags.tuple
      · simp [htuple]
      · simp only [htuple, Bool.false_eq_true, if_false, bind_assoc]
        refine bind_congr fun target => ?_
        cases target with
        | none => rfl
        | some target =>
          dsimp only
          rw [bind_assoc]
          refine bind_congr fun redirected => ?_
          cases redirected <;> rfl
  · simp [hobject]

namespace Resolution

variable {checker : Checker W τ σ ν} {property : α → Prop}

theorem Yields.pure {result : α} (h : property result) :
    (Pure.pure result : Resolution W τ α).Yields property := by
  intro run _ _ hrun
  cases hrun
  exact h

theorem Yields.bind {step : Resolution W τ α} {rest : α → Resolution W τ β} {property' : β → Prop}
    (h : step.Yields property)
    (hrest : ∀ result, property result → (rest result).Yields property') :
    (step >>= rest).Yields property' := by
  intro run result after hrun
  obtain ⟨value, hstep, hlast⟩ := exists_of_bind_eq_ok hrun
  exact hrest value.1 (h _ _ _ hstep) _ _ _ hlast

/-- Only the last step matters for what is not known to depend on the others. -/
theorem Yields.last {step : Resolution W τ α} {rest : α → Resolution W τ β} {property' : β → Prop}
    (hrest : ∀ result, (rest result).Yields property') : (step >>= rest).Yields property' := by
  have hfirst : step.Yields fun _ => True := fun _ _ _ _ => trivial
  exact hfirst.bind fun result _ => hrest result

/-- What a guarded step returns is a back-reference, or what the step returns while the type is in
progress. -/
theorem exists_of_guarded [DecidableEq τ] {ty : τ} {step : Resolution W τ (Option Schema)}
    {run after : Run W τ} {claimed : Option Schema}
    (h : guarded checker ty step run = .ok (claimed, after)) :
    (∃ name, claimed = some (.reference name)) ∨
      ∃ inside, step { run with active := ty :: run.active } = .ok (claimed, inside) := by
  rw [guarded_apply] at h
  split at h
  · have hback : (some <$> backReference checker ty).Yields fun claimed =>
        ∃ name, claimed = some (.reference name) := by
      rw [backReference, map_bind]
      refine Yields.last fun name => ?_
      rw [map_bind]
      exact Yields.last fun _ => .pure ⟨_, rfl⟩
    exact .inl (hback _ _ _ h)
  · obtain ⟨⟨_, inside⟩, hstep, hleft⟩ := exists_of_bind_eq_ok h
    cases hleft
    exact .inr ⟨inside, hstep⟩

theorem Yields.guarded [DecidableEq τ] {ty : τ} {step : Resolution W τ (Option Schema)}
    {property : Option Schema → Prop} (h : step.Yields property)
    (hback : ∀ name, property (some (.reference name))) :
    (guarded checker ty step).Yields property := by
  intro run claimed after hrun
  rcases exists_of_guarded hrun with ⟨name, rfl⟩ | ⟨inside, hstep⟩
  · exact hback name
  · exact h _ _ _ hstep

end Resolution

/-- What a base type hands on has no name twice. -/
def Schema.Handed (claimed : Option Schema) : Prop :=
  (Fields.keys (recordProperties claimed)).Nodup

open Resolution (Yields)
open Models (carryOut_bind)

variable {checker : Checker W τ σ ν} {nested : τ → Resolution W τ Schema} [DecidableEq τ]

/-- What a container comes to is no record. -/
theorem yields_recognizeContainer (ty : τ) :
    ((recognizeContainer ty).carryOut checker nested).Yields fun claimed =>
      ∀ schema ∈ claimed, schema.isObject = false := by
  have hnone : ∀ other ∈ (none : Option Schema), other.isObject = false :=
    fun other hother => absurd hother (Option.not_mem_none other)
  have hsome : ∀ schema : Schema, schema.isObject = false →
      ∀ other ∈ some schema, other.isObject = false := by
    rintro schema hschema _ ⟨⟩
    exact hschema
  rw [recognizeContainer, carryOut_bind]
  refine Yields.last fun flags => ?_
  split
  · exact .pure hnone
  rw [carryOut_bind]
  refine Yields.last fun symbol => ?_
  cases symbol with
  | none => exact .pure hnone
  | some symbol =>
    dsimp only
    rw [carryOut_bind]
    refine Yields.last fun members => ?_
    cases members with
    | none => exact .pure hnone
    | some members =>
      dsimp only
      rw [carryOut_bind]
      refine Yields.last fun name => ?_
      split
      · rw [carryOut_bind]
        exact Yields.last fun items => .pure (hsome _ rfl)
      split
      · exact .pure (hsome _ rfl)
      split
      · exact .pure (hsome _ rfl)
      · exact .pure hnone

theorem handed_within {ty : τ} {body : Inquiry τ σ ν (Option Schema)}
    (h : (body.carryOut checker nested).Yields Schema.Handed) :
    ((within ty body).carryOut checker nested).Yields Schema.Handed :=
  (h.guarded fun _ => List.nodup_nil).bind fun _ hclaimed => .pure hclaimed

/-- Where a call ends before the members, what it has come to has no name twice. -/
theorem handed_verdict {steps : Nat} {context : Context ν}
    (h : ∀ target : τ,
      ((recognizeObject steps context target).carryOut checker nested).Yields Schema.Handed)
    (ty : τ) :
    ((verdict steps context ty).carryOut checker nested).Yields fun found =>
      ∀ claimed, found = .settled claimed → Schema.Handed claimed := by
  have hsettled : ∀ claimed, Schema.Handed claimed →
      ∀ other, Verdict.settled claimed = .settled other → Schema.Handed other := by
    rintro claimed hclaimed _ ⟨⟩
    exact hclaimed
  rw [verdict, carryOut_bind]
  refine Yields.last fun flags => ?_
  split
  · exact .pure (hsettled none List.nodup_nil)
  rw [carryOut_bind]
  refine (yields_recognizeContainer ty).bind fun container hcontainer => ?_
  cases container with
  | some container =>
    refine .pure (hsettled _ ?_)
    rw [Schema.Handed, Answers.recordProperties_of_isObject (hcontainer container rfl)]
    exact List.nodup_nil
  | none =>
    dsimp only
    split
    · exact .pure (hsettled _ List.nodup_nil)
    rw [carryOut_bind]
    refine Yields.last fun target => ?_
    cases target with
    | none =>
      refine .pure fun claimed hfound => ?_
      cases hfound
    | some target =>
      dsimp only
      rw [carryOut_bind]
      refine (handed_within (h target)).bind fun redirected hredirected => ?_
      cases redirected with
      | some schema => exact .pure (hsettled _ hredirected)
      | none =>
        refine .pure fun claimed hfound => ?_
        cases hfound

/-- Whatever a call for a record comes to has no name twice. -/
theorem handed_recognizeObject (steps : Nat) (context : Context ν) (ty : τ) :
    ((recognizeObject steps context ty).carryOut checker nested).Yields Schema.Handed := by
  induction steps generalizing ty with
  | zero =>
    intro run _ _ hrun
    cases hrun
  | succ steps ih =>
    rw [recognizeObject_succ, carryOut_bind]
    refine (handed_verdict ih ty).bind fun found hfound => ?_
    cases found with
    | settled claimed => exact .pure (hfound claimed rfl)
    | members flags =>
      dsimp only
      rw [memberRecord_eq, carryOut_bind]
      exact Yields.last fun parts => .pure parts.nodup_properties

theorem handed_resolveBases {recognize : τ → Inquiry τ σ ν (Option Schema)}
    (h : ∀ base, ((recognize base).carryOut checker nested).Yields Schema.Handed)
    (bases : List τ) :
    ((resolveBases recognize bases).carryOut checker nested).Yields fun resolved =>
      ∀ claimed ∈ resolved, Schema.Handed claimed := by
  induction bases with
  | nil => exact .pure (by simp)
  | cons base rest ih =>
    rw [resolveBases, carryOut_bind]
    refine (handed_within (h base)).bind fun claimed hclaimed => ?_
    rw [carryOut_bind]
    exact ih.bind fun resolved hresolved =>
      .pure (List.forall_mem_cons.mpr ⟨hclaimed, hresolved⟩)

theorem handed_memberParts {recognize : τ → Inquiry τ σ ν (Option Schema)}
    (h : ∀ base, ((recognize base).carryOut checker nested).Yields Schema.Handed)
    (location : ν) (flags : Flags) (ty : τ) :
    ((memberParts recognize location flags ty).carryOut checker nested).Yields fun parts =>
      ∀ claimed ∈ parts.bases, Schema.Handed claimed := by
  rw [memberParts, carryOut_bind]
  refine Yields.last fun bases => ?_
  rw [carryOut_bind]
  refine (handed_resolveBases h _).bind fun resolved hresolved => ?_
  rw [carryOut_bind]
  refine Yields.last fun symbols => ?_
  rw [carryOut_bind]
  refine Yields.last fun own => ?_
  rw [carryOut_bind]
  exact Yields.last fun title => .pure hresolved

/-- **The law of merging.**  A call for a record that gets as far as the members returns a record
whose properties are merged from the parts, all of them required and under the name of the type
itself, and it returns wherever the parts are read to the end.  This holds of every checker, from
every state of a run, and however the members' types are resolved. -/
theorem recognizeObject_merges (checker : Checker W τ σ ν) (nested : τ → Resolution W τ Schema)
    (steps : Nat) (context : Context ν) (ty : τ) {run before : Run W τ} {flags : Flags}
    (hmembers : (verdict steps context ty).carryOut checker nested run =
      .ok (.members flags, before)) (claimed : Option Schema) (after : Run W τ) :
    (recognizeObject (steps + 1) context ty).carryOut checker nested run = .ok (claimed, after) ↔
      ∃ parts properties,
        (memberParts (recognizeObject steps context) context.location flags ty).carryOut checker
          nested before = .ok (parts, after) ∧
        claimed = some (.object parts.title properties (Fields.keys properties)) ∧
        parts.Makes properties := by
  have hrun : (recognizeObject (steps + 1) context ty).carryOut checker nested run =
      ((memberParts (recognizeObject steps context) context.location flags ty).carryOut checker
        nested before).map fun value => (some (.object value.1.title value.1.properties
          (Fields.keys value.1.properties)), value.2) := by
    rw [recognizeObject_succ, carryOut_bind]
    show ((verdict steps context ty).carryOut checker nested run).bind _ = _
    rw [hmembers]
    dsimp only [Except.bind]
    rw [memberRecord_eq, carryOut_bind]
    rfl
  have hhanded : ((memberParts (recognizeObject steps context) context.location flags ty).carryOut
      checker nested).Yields fun parts => ∀ claimed ∈ parts.bases, Schema.Handed claimed :=
    handed_memberParts (handed_recognizeObject steps context) context.location flags ty
  rw [hrun]
  constructor
  · intro h
    cases hparts : (memberParts (recognizeObject steps context) context.location flags
        ty).carryOut checker nested before with
    | error stop =>
      rw [hparts] at h
      cases h
    | ok value =>
      rw [hparts] at h
      cases h
      exact ⟨value.1, value.1.properties, rfl, rfl,
        MemberParts.makes_properties (hhanded before _ _ hparts)⟩
  · rintro ⟨parts, properties, hparts, rfl, hmakes⟩
    have hbases := hhanded before parts after hparts
    rw [hparts, hmakes.eq_properties hbases]
    rfl

/-! ## Names that are written more than once -/

namespace Table

/-- A `Blend` lists a name twice.  It has two base types that share names with each other and with
it, and in between one that is a tuple. -/
def blended : Table 7 := ![
  { flags := { object := true, interface := true }, symbol := some "Blend",
    properties := [("own", 3), ("b", 4), ("own", 5)], bases := some [1, 6, 2] },
  { flags := { object := true }, symbol := some "First",
    properties := [("a", 3), ("b", 3), ("c", 3)] },
  { flags := { object := true }, symbol := some "Second", properties := [("d", 3), ("a", 4)] },
  { intrinsic := some .string },
  { intrinsic := some .number },
  { intrinsic := some .boolean },
  { flags := { object := true, tuple := true }, symbol := some "Pair", properties := [("a", 3)] }]

/-- The properties of a `Blend`. -/
def blend : Fields Schema :=
  [("a", .intrinsic .number), ("b", .intrinsic .number), ("c", .intrinsic .string),
    ("d", .intrinsic .string), ("own", .intrinsic .boolean)]

theorem recognize_blended :
    ∃ after, blended.recognize {} ⟨0, none⟩ 1 2 0 (.fresh ()) =
      .ok (some (.object (some "Blend") blend ["a", "b", "c", "d", "own"]), after) := by
  have hvalue : blended.recognizeValue {} ⟨0, none⟩ 1 2 0 (.fresh ()) =
      some (some (.object (some "Blend") blend ["a", "b", "c", "d", "own"])) := rfl
  have hends : blended.models.Ends _ _ _ (blended.recognizeValue {} ⟨0, none⟩ 1 2 0 (.fresh ())) :=
    ends_recognize
  rw [hvalue] at hends
  obtain ⟨_, after, hcall, -, -, -, -, rfl⟩ := hends
  exact ⟨after, hcall⟩

/-- A `Blend` has the names of its base types in their order, and the last value under each. -/
theorem recognizeObject_merges_blended :
    ∃ after parts, blended.recognize {} ⟨0, none⟩ 1 2 0 (.fresh ()) =
        .ok (some (.object (some "Blend") blend ["a", "b", "c", "d", "own"]), after) ∧
      (memberParts (recognizeObject 1 ⟨{}, ⟨0, none⟩⟩) ⟨0, none⟩
        { object := true, interface := true } 0).carryOut blended.checker
          (fun ty => (Resolver.shipped blended.checker {}).resolveType 1 ⟨0, none⟩ ty none)
          (.fresh ()) = .ok (parts, after) ∧
      parts.title = some "Blend" ∧ parts.Makes blend := by
  obtain ⟨after, hcall⟩ := recognize_blended
  have hmembers : (verdict 1 ⟨{}, ⟨0, none⟩⟩ 0).carryOut blended.checker
      (fun ty => (Resolver.shipped blended.checker {}).resolveType 1 ⟨0, none⟩ ty none)
      (.fresh ()) = .ok (.members { object := true, interface := true }, .fresh ()) := rfl
  obtain ⟨parts, properties, hparts, hclaimed, hmakes⟩ :=
    (recognizeObject_merges _ _ 1 _ 0 hmembers _ after).mp hcall
  obtain ⟨htitle, rfl, -⟩ := Schema.object.inj (Option.some.inj hclaimed)
  exact ⟨after, parts, hcall, hparts, htitle.symm, hmakes⟩

end Table

end GraphSchema
