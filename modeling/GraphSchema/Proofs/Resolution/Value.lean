import Mathlib
import GraphSchema.Resolution.Resolver

/-!
# What a resolution comes to over fixed answers

A checker whose answers never change leaves a resolution nothing to thread through its state but
the types in progress and the nesting depth.  Both are put back at the end of every step, so
what an inquiry comes to is a function of them: `Inquiry.value`, and `Answers.resolveValue` for
a whole resolution.  `none` stands for a bound on the nesting of calls that was too small.

Every shipped recognizer has one equation here that says what it comes to.  The equations are in
terms of five readings of the answers: `Answers.container?`, `Answers.item?`,
`Answers.redirect?`, `Answers.baseTypes` and `Answers.members`.  That a run of a resolution
follows its value is the subject of `Proofs/Resolution/Simulation.lean`.
-/

namespace GraphSchema

/-- An answer to every question, the same at all times. -/
abbrev Answers (τ σ ν : Type) := (question : Question τ σ ν) → question.Answer

variable {τ σ ν α β : Type}

namespace Answers

/-- The name of the symbol of a type. -/
def symbolName (answers : Answers τ σ ν) (ty : τ) : Option String :=
  (answers (.symbol ty)).map fun symbol => answers (.symbolName symbol)

/-- The title of a site: the name of its type's symbol, else its identifier. -/
def siteTitle (answers : Answers τ σ ν) (node : ν) (ty : τ) : Option String :=
  (answers.symbolName ty).or (answers (.siteName node))

/-- The schema of a type that is met again. -/
def backReference (answers : Answers τ σ ν) (ty : τ) : Schema :=
  .reference ("#" ++ (answers.symbolName ty).getD "")

end Answers

/-! ## Inquiries -/

namespace Inquiry

variable [DecidableEq τ]

/-- What an inquiry comes to while the types of a list are in progress; `nested` gives the
schemas of nested types. -/
def value (answers : Answers τ σ ν) (nested : List τ → τ → Option Schema) {α : Type} :
    Inquiry τ σ ν α → List τ → Option α
  | done result, _ => some result
  | ask question next, active => (next (answers question)).value answers nested active
  | resolve ty next, active =>
    (nested active ty).bind fun schema => (next schema).value answers nested active
  | guarded ty body next, active =>
    (if ty ∈ active then some (some (answers.backReference ty))
      else body.value answers nested (ty :: active)).bind
      fun schema => (next schema).value answers nested active
  | exhausted, _ => none

variable (answers : Answers τ σ ν) (nested : List τ → τ → Option Schema) (active : List τ)

@[simp] theorem value_pure (result : α) :
    (pure result : Inquiry τ σ ν α).value answers nested active = some result := rfl

@[simp] theorem value_exhausted :
    (exhausted : Inquiry τ σ ν α).value answers nested active = none := rfl

-- The result type of a question is an expression that reduces, which the index must not see.
@[simp] theorem value_question (q : Question τ σ ν) :
    value (α := no_index q.Answer) answers nested (question q) active = some (answers q) := rfl

@[simp] theorem value_schemaOf (ty : τ) :
    (schemaOf ty : Inquiry τ σ ν Schema).value answers nested active = nested active ty := by
  simp [schemaOf, value]

@[simp] theorem value_within (ty : τ) (body : Inquiry τ σ ν (Option Schema)) :
    (within ty body).value answers nested active =
      if ty ∈ active then some (some (answers.backReference ty))
      else body.value answers nested (ty :: active) := by
  simp [within, value]

/-- The value of a sequence is the sequence of the values. -/
@[simp] theorem value_bind (first : Inquiry τ σ ν α) (rest : α → Inquiry τ σ ν β) :
    (first >>= rest).value answers nested active =
      (first.value answers nested active).bind
        fun result => (rest result).value answers nested active := by
  show (first.andThen rest).value answers nested active = _
  induction first with
  | done result => rfl
  | ask question next ih => exact ih _ rest
  | resolve ty next ih =>
    rw [andThen, value, value, Option.bind_assoc]
    exact Option.bind_congr fun schema _ => ih schema rest
  | guarded ty body next _ ih =>
    rw [andThen, value, value, Option.bind_assoc]
    exact Option.bind_congr fun schema _ => ih schema rest
  | exhausted => rfl

end Inquiry

/-! ## Readings of the answers -/

/-- The well-known containers. -/
inductive Container where
  | array
  | date
  | promise
  deriving DecidableEq

namespace Answers

variable (answers : Answers τ σ ν)

/-- The container that a type is, by the signature of its symbol. -/
def container? (ty : τ) : Option Container :=
  if (answers (.flags ty)).object then
    (answers (.symbol ty)).bind fun symbol =>
      (answers (.memberNames symbol)).bind fun members =>
        if Signature.array.accepts (answers (.symbolName symbol)) members then some .array
        else if Signature.date.accepts (answers (.symbolName symbol)) members then some .date
        else if Signature.promise.accepts (answers (.symbolName symbol)) members then
          some .promise
        else none
  else none

/-- The item type of an array: its argument where it is an instantiation with exactly one. -/
def item? (ty : τ) : Option τ :=
  match answers (.arguments ty) with
  | some [item] => if (answers (.flags ty)).reference then some item else none
  | _ => none

theorem arguments_of_item {answers : Answers τ σ ν} {ty item : τ}
    (h : answers.item? ty = some item) : answers (.arguments ty) = some [item] := by
  unfold item? at h
  split at h
  · rename_i argument harguments
    split at h
    · cases h
      exact harguments
    · cases h
  · cases h

/-- The definition that stands for an instantiation, where the options ask for it and the type
is not that definition itself. -/
def redirect? [DecidableEq τ] (options : Options) (ty : τ) : Option τ :=
  if (answers (.flags ty)).reference ∧ options.generics = .target then
    (answers (.target ty)).filter (· ≠ ty)
  else none

/-- The base types that members are inherited from. -/
def baseTypes (ty : τ) : List τ :=
  if (answers (.flags ty)).interface then (answers (.bases ty)).getD [] else []

/-- The own members of a type with their types as seen from a location. -/
def members (location : ν) (ty : τ) : List (String × τ) :=
  (answers (.properties ty)).map fun symbol =>
    (answers (.symbolName symbol), answers (.memberType symbol location))

/-- The names of the own members of a type. -/
def memberNames (ty : τ) : List String :=
  (answers (.properties ty)).map fun symbol => answers (.symbolName symbol)

theorem map_fst_members (location : ν) (ty : τ) :
    (answers.members location ty).map Prod.fst = answers.memberNames ty := by
  simp [members, memberNames]

/-- The schema of a container; `items` gives the schema of an item type. -/
def containerSchema (items : τ → Option Schema) (ty : τ) : Container → Option Schema
  | .array =>
    ((answers.item? ty).elim (some (.any none)) items).map .array
  | .date => some (.reference Schema.dateReference)
  | .promise => some (.reference Schema.promiseReference)

/-- The properties inherited from base types, later ones over earlier ones. -/
def inherit (record : τ → Option (Option Schema)) (bases : List τ) (inherited : Fields Schema) :
    Option (Fields Schema) :=
  bases.foldlM (fun inherited base =>
    (record base).map fun schema => Fields.merge inherited (Schema.recordProperties schema))
    inherited

/-- The schemas of members. -/
def overlay (schemaOf : τ → Option Schema) (members : List (String × τ)) (fields : Fields Schema) :
    Option (Fields Schema) :=
  members.foldlM (fun fields member =>
    (schemaOf member.2).map fun schema => Fields.put fields member.1 schema) fields

/-- The record of a type: its own members over those of its base types. -/
def recordSchema (location : ν) (record : τ → Option (Option Schema))
    (schemaOf : τ → Option Schema) (ty : τ) : Option Schema :=
  (inherit record (answers.baseTypes ty) []).bind fun inherited =>
    (overlay schemaOf (answers.members location ty) []).map fun own =>
      .object (answers.symbolName ty) (Fields.merge inherited own)
        (Names.union (Names.union [] (Fields.keys inherited)) (Fields.keys own))

end Answers

/-! ## The shipped recognizers -/

section Shipped

open Inquiry (question schemaOf within)

variable [DecidableEq τ] (answers : Answers τ σ ν) (nested : List τ → τ → Option Schema)
  (active : List τ)

@[simp] theorem value_recognizeIntrinsic (ty : τ) :
    (recognizeIntrinsic ty).value answers nested active =
      some ((answers (.intrinsic ty)).map Schema.intrinsic) := by
  simp [recognizeIntrinsic]

theorem value_arrayItems (ty : τ) :
    (arrayItems ty).value answers nested active =
      (answers.item? ty).elim (some (.any none)) (nested active) := by
  rw [arrayItems, Inquiry.value_bind, Inquiry.value_question, Option.bind_some, Answers.item?]
  rcases answers (.arguments ty) with _ | _ | ⟨item, _ | ⟨other, rest⟩⟩
  · simp
  · simp
  · by_cases hreference : (answers (.flags ty)).reference
    · simp [hreference]
    · simp [hreference]
  · simp

/-- A container is claimed by its signature; the items of an array are resolved. -/
theorem value_recognizeContainer (ty : τ) :
    (recognizeContainer ty).value answers nested active =
      (answers.container? ty).elim (some none) fun container =>
        (answers.containerSchema (nested active) ty container).map some := by
  rw [recognizeContainer, Inquiry.value_bind, Inquiry.value_question, Option.bind_some,
    Answers.container?]
  by_cases hobject : (answers (.flags ty)).object
  · simp only [hobject, Bool.not_true, Bool.false_eq_true, if_false, if_true, Inquiry.value_bind,
      Inquiry.value_question, Option.bind_some]
    cases answers (.symbol ty) with
    | none => simp
    | some symbol =>
      simp only [Inquiry.value_bind, Inquiry.value_question, Option.bind_some]
      cases answers (.memberNames symbol) with
      | none => simp
      | some members =>
        simp only [Inquiry.value_bind, Inquiry.value_question, Option.bind_some]
        by_cases harray : Signature.array.accepts (answers (.symbolName symbol)) members
        · simp only [harray, if_true, Inquiry.value_bind, value_arrayItems, Option.elim_some,
            Answers.containerSchema]
          rw [Option.map_map, Option.map_eq_bind]
          rfl
        · by_cases hdate : Signature.date.accepts (answers (.symbolName symbol)) members
          · simp [harray, hdate, Answers.containerSchema]
          · by_cases hpromise : Signature.promise.accepts (answers (.symbolName symbol)) members
            · simp [harray, hdate, hpromise, Answers.containerSchema]
            · simp [harray, hdate, hpromise]
  · simp [hobject]

theorem value_symbolNameOf (ty : τ) :
    (symbolNameOf ty).value answers nested active = some (answers.symbolName ty) := by
  rw [symbolNameOf, Inquiry.value_bind, Inquiry.value_question, Option.bind_some,
    Answers.symbolName]
  cases answers (.symbol ty) <;> simp

theorem value_redirectTarget (options : Options) (ty : τ) :
    (redirectTarget options (answers (.flags ty)) ty).value answers nested active =
      some (answers.redirect? options ty) := by
  rw [redirectTarget, Answers.redirect?]
  split <;> simp

theorem value_inheritFrom (recognize : τ → Inquiry τ σ ν (Option Schema)) (bases : List τ)
    (inherited : Fields Schema) :
    (inheritFrom recognize bases inherited).value answers nested active =
      Answers.inherit (fun base => (within base (recognize base)).value answers nested active)
        bases inherited := by
  induction bases generalizing inherited with
  | nil => rfl
  | cons base rest ih =>
    rw [inheritFrom, Inquiry.value_bind, Answers.inherit, List.foldlM_cons, Option.bind_eq_bind,
      Option.bind_map]
    exact Option.bind_congr fun schema _ => ih _

theorem value_resolveMembers (location : ν) (symbols : List σ) (fields : Fields Schema) :
    (resolveMembers location symbols fields).value answers nested active =
      Answers.overlay (nested active)
        (symbols.map fun symbol =>
          (answers (.symbolName symbol), answers (.memberType symbol location))) fields := by
  induction symbols generalizing fields with
  | nil => rfl
  | cons symbol rest ih =>
    rw [resolveMembers, List.map_cons, Answers.overlay, List.foldlM_cons, Option.bind_eq_bind,
      Option.bind_map]
    simp only [Inquiry.value_bind, Inquiry.value_question, Option.bind_some,
      Inquiry.value_schemaOf]
    exact Option.bind_congr fun schema _ => ih _

theorem value_memberRecord (recognize : τ → Inquiry τ σ ν (Option Schema)) (location : ν)
    (ty : τ) :
    (memberRecord recognize location (answers (.flags ty)) ty).value answers nested active =
      (answers.recordSchema location
        (fun base => (within base (recognize base)).value answers nested active)
        (nested active) ty).map some := by
  rw [Answers.recordSchema, Answers.baseTypes, Answers.members, Option.map_bind]
  by_cases hinterface : (answers (.flags ty)).interface
  · simp only [memberRecord, hinterface, if_true, Inquiry.value_bind, Inquiry.value_question,
      Option.bind_some, value_inheritFrom, value_resolveMembers, value_symbolNameOf,
      Inquiry.value_pure, Option.map_eq_bind, Function.comp_def, Option.bind_assoc]
  · simp only [memberRecord, hinterface, Bool.false_eq_true, if_false, Inquiry.value_bind,
      Inquiry.value_question, Option.bind_some, value_inheritFrom, value_resolveMembers,
      value_symbolNameOf, Inquiry.value_pure, Option.map_eq_bind, Function.comp_def,
      Option.bind_assoc, Option.getD_none]

@[simp] theorem value_recognizeObject_zero (context : Context ν) (ty : τ) :
    (recognizeObject 0 context ty).value answers nested active = none := rfl

/-- A record is a container, a tuple, what its definition is, or made of members, whichever
comes first. -/
theorem value_recognizeObject (steps : Nat) (context : Context ν) (ty : τ) :
    (recognizeObject (steps + 1) context ty).value answers nested active =
      if (answers (.flags ty)).object then
        (answers.container? ty).elim
          (if (answers (.flags ty)).tuple then some (some (.array (.any none)))
          else
            ((answers.redirect? context.options ty).elim (some none) fun target =>
              (within target (recognizeObject steps context target)).value answers nested
                active).bind fun redirected =>
            redirected.elim
              ((answers.recordSchema context.location
                (fun base =>
                  (within base (recognizeObject steps context base)).value answers nested active)
                (nested active) ty).map some)
              fun schema => some (some schema))
          fun container => (answers.containerSchema (nested active) ty container).map some
      else some none := by
  rw [recognizeObject, Inquiry.value_bind, Inquiry.value_question, Option.bind_some]
  by_cases hobject : (answers (.flags ty)).object
  · simp only [hobject, Bool.not_true, Bool.false_eq_true, if_false, if_true, Inquiry.value_bind,
      value_recognizeContainer]
    cases answers.container? ty with
    | some container =>
      simp only [Option.elim_some]
      cases answers.containerSchema (nested active) ty container <;> simp
    | none =>
      simp only [Option.elim_none, Option.bind_some]
      by_cases htuple : (answers (.flags ty)).tuple
      · simp [htuple]
      · simp only [htuple, Bool.false_eq_true, if_false, Inquiry.value_bind,
          value_redirectTarget, Option.bind_some]
        cases answers.redirect? context.options ty with
        | none => simp [value_memberRecord]
        | some target =>
          simp only [Inquiry.value_bind, Option.elim_some]
          refine Option.bind_congr fun redirected _ => ?_
          cases redirected with
          | none => simp only [value_memberRecord, Option.elim_none]
          | some schema => rfl
  · simp [hobject]

end Shipped

/-! ## Resolutions -/

namespace Answers

variable [DecidableEq τ] (answers : Answers τ σ ν)

/-- The schema of the first recognizer that claims a type. -/
def dispatchValue (options : Options) (nested : List τ → τ → Option Schema) (fuel : Nat)
    (location : ν) (active : List τ) (ty : τ) (title : Option String) :
    Registry τ σ ν → Option Schema
  | [] => some (.any title)
  | recognizer :: rest =>
    ((recognizer.recognize fuel ⟨options, location⟩ ty).value answers nested active).bind
      fun claimed => claimed.elim
        (dispatchValue options nested fuel location active ty title rest) some

/-- The schema of a type, at a nesting depth and while the types of a list are in progress. -/
def resolveValue (registry : Registry τ σ ν) (options : Options) (location : ν) :
    Nat → Nat → List τ → τ → Option String → Option Schema
  | 0, _, _, _, _ => none
  | fuel + 1, depth, active, ty, title =>
    if options.maxDepth ≤ depth then some (.any title)
    else if ty ∈ active then some (answers.backReference ty)
    else
      answers.dispatchValue options
        (fun active ty => resolveValue registry options location fuel (depth + 1) active ty none)
        fuel location (ty :: active) ty title registry

/-- The schema of a site. -/
def siteValue (registry : Registry τ σ ν) (options : Options) (fuel : Nat) (node : ν) :
    Option Schema :=
  answers.resolveValue registry options node fuel 0 [] (answers (.siteType node))
    (answers.siteTitle node (answers (.siteType node)))

end Answers

end GraphSchema
