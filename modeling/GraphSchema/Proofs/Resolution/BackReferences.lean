import Mathlib
import GraphSchema.Proofs.Nesting
import GraphSchema.Proofs.Resolution.Ways

/-!
# Where back-references lead

A type that is met again is answered with a back-reference, which carries the name of the type
and is meant for the place where the type was entered.  What was entered is a stack of types and
what is left of it is a tree, so the two have to be compared: `Schema.Below` gives a node of a
schema the nodes above it, `Answers.Anchored` says that one of them is there for a name, and
`Answers.Tied` that each back-reference in a schema is anchored or names a type of the stack.

Not every type that is entered leaves a node.  A definition that stands for an instantiation
leaves the record of that instantiation, under the same name.  A base type leaves no node, only
the fields that it hands on.  Back-references in those are lost, unless the record above *covers*
them or writes the fields again.  `Answers.Anchors` gathers what is asked of the answers for this,
`kept_recognizeObject` says what one call for a record keeps, and `tied_resolveValue` what a whole
resolution does.  A node that a back-reference is anchored in is what the resolution has made of a
type at that place, so the anchor is the schema of a type and not only a record of its name.
-/

namespace GraphSchema

namespace Answers

open Inquiry (value_within)

variable {τ σ ν : Type} (answers : Answers τ σ ν)

/-- The name that a back-reference to a type carries. -/
def nameOf (ty : τ) : String := (answers.symbolName ty).getD ""

/-- One of the nodes above a place is there for a name: the record of a type, where the place lies
in a property that covers the name, or an array, where the name is that of arrays.  `made` says
what the schema of a type is at a level, and `covers` for which names the record of a type is there
in which property. -/
inductive Anchored (made : Nat → τ → Schema → Prop) (covers : τ → String → String → Prop)
    (level : Nat) (above : List Schema) (name : String) : Prop where
  | record {ty : τ} {outer inner : List Schema} {properties : Fields Schema}
      {required : List String} {property : String} {field : Schema}
      (hmade : made (level + outer.length) ty
        (.object (answers.symbolName ty) properties required))
      (habove : above = outer ++ .object (answers.symbolName ty) properties required :: inner)
      (hproperty : (property, field) ∈ properties)
      (hbelow : field.Below inner (.reference ("#" ++ name)))
      (hcovers : covers ty property name)
  | array {ty : τ} {outer inner : List Schema} {items : Schema}
      (hmade : made (level + outer.length) ty (.array items))
      (habove : above = outer ++ .array items :: inner)
      (hcontainer : answers.container? ty = some .array)
      (hname : name = Signature.array.symbol)

/-- Each back-reference in a schema is anchored in the schema or has a pending name. -/
def Tied (made : Nat → τ → Schema → Prop) (covers : τ → String → String → Prop) (level : Nat)
    (pending : String → Prop) (schema : Schema) : Prop :=
  ∀ above name, schema.Below above (.reference ("#" ++ name)) →
    answers.Anchored made covers level above name ∨ pending name

/-- The names of the types in progress. -/
def Pending (active : List τ) (name : String) : Prop := ∃ ty ∈ active, answers.nameOf ty = name

variable {answers} {made : Nat → τ → Schema → Prop} {covers : τ → String → String → Prop}
  {level : Nat} {pending : String → Prop}

/-! ## Nodes -/

theorem Anchored.cons {above : List Schema} {name : String}
    (h : answers.Anchored made covers (level + 1) above name) (node : Schema) :
    answers.Anchored made covers level (node :: above) name := by
  have hlevel : ∀ outer : List Schema,
      level + 1 + outer.length = level + (node :: outer).length := by
    intro outer
    rw [List.length_cons]
    omega
  cases h with
  | record hmade habove hproperty hbelow hcovers =>
    rw [hlevel] at hmade
    exact .record hmade (congrArg (node :: ·) habove) hproperty hbelow hcovers
  | array hmade habove hcontainer hname =>
    rw [hlevel] at hmade
    exact .array hmade (congrArg (node :: ·) habove) hcontainer hname

theorem Tied.imp {others : String → Prop} {schema : Schema}
    (h : answers.Tied made covers level pending schema)
    (himp : ∀ name, pending name → others name) :
    answers.Tied made covers level others schema :=
  fun above name hbelow => (h above name hbelow).imp_right (himp name)

theorem tied_any (title : Option String) : answers.Tied made covers level pending (.any title) := by
  intro above name hbelow
  cases hbelow

theorem tied_intrinsic (kind : Intrinsic) :
    answers.Tied made covers level pending (.intrinsic kind) := by
  intro above name hbelow
  cases hbelow

theorem tied_backReference {ty : τ} (h : pending (answers.nameOf ty)) :
    answers.Tied made covers level pending (answers.backReference ty) := by
  intro above name hbelow
  rw [backReference] at hbelow
  generalize heq : "#" ++ (answers.symbolName ty).getD "" = text at hbelow
  generalize heq' : "#" ++ name = text' at hbelow
  cases hbelow
  rw [← heq', String.append_right_inj] at heq
  exact .inr (heq ▸ h)

/-- The fragments of the runtime are no back-references. -/
theorem tied_reference {text : String} (h : ∀ name, text ≠ "#" ++ name) :
    answers.Tied made covers level pending (.reference text) := by
  intro above name hbelow
  generalize heq : "#" ++ name = text' at hbelow
  cases hbelow
  exact absurd heq.symm (h name)

theorem ne_of_head_ne {text : String} (h : text.toList.head? ≠ some '#') (name : String) :
    text ≠ "#" ++ name := by
  rintro rfl
  exact h (by simp)

/-- What no back-reference lies under is tied. -/
theorem tied_array_any (title : Option String) :
    answers.Tied made covers level pending (.array (.any title)) := by
  intro above name hbelow
  cases hbelow with
  | items hbelow => cases hbelow

/-- The array of a type is there for the name of arrays. -/
theorem tied_array {ty : τ} {items : Schema} (hmade : made level ty (.array items))
    (hcontainer : answers.container? ty = some .array)
    (h : answers.Tied made covers (level + 1)
      (fun name => pending name ∨ name = Signature.array.symbol) items) :
    answers.Tied made covers level pending (.array items) := by
  have hhere : made (level + ([] : List Schema).length) ty (.array items) := hmade
  intro above name hbelow
  cases hbelow with
  | items hbelow =>
    rcases h _ _ hbelow with hanchored | hpending | hname
    · exact .inl (hanchored.cons _)
    · exact .inr hpending
    · exact .inl (.array hhere rfl hcontainer hname)

/-- The record of a type is there for the names that it covers. -/
theorem tied_object {ty : τ} {properties : Fields Schema} {required : List String}
    (hmade : made level ty (.object (answers.symbolName ty) properties required))
    (h : ∀ entry ∈ properties, answers.Tied made covers (level + 1)
      (fun name => pending name ∨ covers ty entry.1 name) entry.2) :
    answers.Tied made covers level pending
      (.object (answers.symbolName ty) properties required) := by
  have hhere : made (level + ([] : List Schema).length) ty
      (.object (answers.symbolName ty) properties required) := hmade
  intro above name hbelow
  generalize htitle : answers.symbolName ty = title at hbelow
  cases hbelow with
  | property hproperty hbelow =>
    rcases h _ hproperty _ _ hbelow with hanchored | hpending | hcovers
    · exact .inl (hanchored.cons _)
    · exact .inr hpending
    · exact .inl (.record hhere (htitle ▸ rfl) hproperty hbelow hcovers)

/-- What a call for a type comes to is tied, or a record whose fields are, to the names that the
record covers in them. -/
structure Kept (answers : Answers τ σ ν) (made : Nat → τ → Schema → Prop)
    (covers : τ → String → String → Prop) (level : Nat) (pending : String → Prop) (ty : τ)
    (schema : Schema) : Prop where
  tied : answers.container? ty = none → schema.isObject = false →
    answers.Tied made covers level pending schema
  title : ∀ {title properties required}, schema = .object title properties required →
    title = answers.symbolName ty
  fields : ∀ entry ∈ Schema.recordProperties (some schema),
    answers.Tied made covers (level + 1) (fun name => pending name ∨ covers ty entry.1 name)
      entry.2

theorem Kept.of_isObject {ty : τ} {schema : Schema} (hobject : schema.isObject = false)
    (h : answers.container? ty = none → answers.Tied made covers level pending schema) :
    Kept answers made covers level pending ty schema where
  tied hcontainer _ := h hcontainer
  title heq := by
    subst heq
    cases hobject
  fields := by
    rw [recordProperties_of_isObject hobject]
    exact nofun

/-- What is kept is tied, as soon as it is the schema that the type comes to. -/
theorem Kept.tied_of_made {ty : τ} {schema : Schema}
    (h : Kept answers made covers level pending ty schema)
    (hcontainer : answers.container? ty = none) (hmade : made level ty schema) :
    answers.Tied made covers level pending schema := by
  cases hobject : schema.isObject with
  | false => exact h.tied hcontainer hobject
  | true =>
    cases schema with
    | object title properties required =>
      cases h.title rfl
      exact tied_object hmade h.fields
    | _ => cases hobject

/-! ## Containers -/

variable {ty : τ}

/-- The symbol of an array has the name and the members of arrays. -/
theorem exists_accepts_of_array (h : answers.container? ty = some .array) :
    ∃ symbol members, answers (.symbol ty) = some symbol ∧
      answers (.memberNames symbol) = some members ∧
      Signature.array.accepts (answers (.symbolName symbol)) members := by
  unfold container? at h
  split at h
  · obtain ⟨symbol, hsymbol, h⟩ := Option.bind_eq_some_iff.mp h
    obtain ⟨members, hmembers, h⟩ := Option.bind_eq_some_iff.mp h
    split at h
    · rename_i haccepts
      exact ⟨symbol, members, hsymbol, hmembers, haccepts⟩
    · split at h
      · cases h
      · split at h <;> cases h
  · cases h

theorem symbolName_of_array (h : answers.container? ty = some .array) :
    answers.symbolName ty = some Signature.array.symbol := by
  obtain ⟨symbol, members, hsymbol, -, haccepts⟩ := exists_accepts_of_array h
  rw [Signature.accepts, Bool.and_eq_true, beq_iff_eq] at haccepts
  rw [symbolName, hsymbol, Option.map_some, haccepts.1]

/-- A container is tied where its items are: the array itself is there for its name. -/
theorem tied_containerSchema {items : τ → Option Schema} {container : Container}
    {schema : Schema} (hcontainer : answers.container? ty = some container)
    (hitems : ∀ item schema, container = .array → answers.item? ty = some item →
      items item = some schema → answers.Tied made covers (level + 1)
        (fun name => pending name ∨ name = answers.nameOf ty) schema)
    (hmade : made level ty schema)
    (h : answers.containerSchema items ty container = some schema) :
    answers.Tied made covers level pending schema := by
  cases container with
  | array =>
    obtain ⟨item, hitem, rfl⟩ := Option.map_eq_some_iff.mp h
    refine tied_array hmade hcontainer ?_
    have hname : answers.nameOf ty = Signature.array.symbol := by
      rw [nameOf, symbolName_of_array hcontainer, Option.getD_some]
    rw [← hname]
    cases hsome : answers.item? ty with
    | none =>
      rw [hsome] at hitem
      cases hitem
      exact tied_any none
    | some item =>
      rw [hsome] at hitem
      exact hitems item _ rfl hsome hitem
  | date =>
    cases h
    exact tied_reference (ne_of_head_ne (by decide))
  | promise =>
    cases h
    exact tied_reference (ne_of_head_ne (by decide))

/-! ## Calls -/

section Calls

variable [DecidableEq τ] {options : Options} {location : ν} {start : τ}
  {nested : List τ → τ → Option Schema} {active : List τ} {steps : Nat}

/-- What is asked of the answers about the types that a resolution enters.  The record of a type is
there for the type's own name, a definition leaves the record of its instantiation, and what a base
type hands on is covered or written again. -/
structure Anchors (answers : Answers τ σ ν) (options : Options) (location : ν) (start : τ)
    (covers : τ → String → String → Prop) : Prop where
  covers_nameOf : ∀ ty property, covers ty property (answers.nameOf ty)
  symbolName_target : ∀ {level active ty target},
    answers.InProgress options location start level (ty :: active) →
    answers.redirect? options ty = some target →
    answers.symbolName target = answers.symbolName ty
  container_target : ∀ {level active ty target},
    answers.InProgress options location start level (ty :: active) →
    answers.redirect? options ty = some target →
    answers.container? target = answers.container? ty
  redirect_target : ∀ {level active ty target},
    answers.InProgress options location start level (ty :: active) →
    answers.redirect? options ty = some target → answers.redirect? options target = none
  covers_target : ∀ {level active ty target property name},
    answers.InProgress options location start level (ty :: active) →
    answers.redirect? options ty = some target →
    covers target property name → covers ty property name
  inherits : ∀ {level active ty base property name},
    answers.InProgress options location start level (ty :: active) →
    OwnRecord answers options (ty :: active) ty → base ∈ answers.baseTypes ty →
    base ∉ ty :: active → Carries answers options (base :: ty :: active) base property →
    property ∉ answers.memberNames ty → covers base property name → covers ty property name

/-- A definition is no instantiation of itself. -/
theorem Anchors.ne_target (hanchors : Anchors answers options location start covers)
    (hway : answers.InProgress options location start level (ty :: active)) {target : τ}
    (h : answers.redirect? options ty = some target) : target ≠ ty := by
  rintro rfl
  have hself := hanchors.redirect_target hway h
  rw [h] at hself
  cases hself

/-- All types in progress around a call have pending names, but for those of the same name that
the call itself is for. -/
structure Around (answers : Answers τ σ ν) (options : Options) (pending : String → Prop)
    (active : List τ) (ty : τ) : Prop where
  pending_or : ∀ other ∈ active,
    pending (answers.nameOf other) ∨ answers.nameOf other = answers.nameOf ty
  pending_target : ∀ target ∈ active, answers.redirect? options ty = some target →
    pending (answers.nameOf target)

/-- A type that is entered is around its call. -/
theorem Around.enter (hanchors : Anchors answers options location start covers)
    (hway : answers.InProgress options location start level (ty :: active))
    (h : ∀ other ∈ active, pending (answers.nameOf other)) :
    Around answers options pending (ty :: active) ty where
  pending_or other hother := by
    rcases List.mem_cons.mp hother with rfl | hother
    · exact .inr rfl
    · exact .inl (h other hother)
  pending_target target hmem htarget := by
    rcases List.mem_cons.mp hmem with rfl | hmem
    · exact absurd rfl (hanchors.ne_target hway htarget)
    · exact h target hmem

/-- A definition has the name of its instantiation, so both are around its call. -/
theorem Around.redirect (hanchors : Anchors answers options location start covers)
    (hway : answers.InProgress options location start level (ty :: active))
    (h : Around answers options pending (ty :: active) ty) {target : τ}
    (htarget : answers.redirect? options ty = some target) :
    Around answers options pending (target :: ty :: active) target where
  pending_or other hother := by
    rcases List.mem_cons.mp hother with rfl | hother
    · exact .inr rfl
    · rw [nameOf, nameOf, hanchors.symbolName_target hway htarget]
      exact h.pending_or other hother
  pending_target other _ hother := by
    rw [hanchors.redirect_target hway htarget] at hother
    cases hother

/-- The fields of a record are kept where the calls for its base types keep theirs and its members
are tied. -/
theorem tied_recordSchema (hanchors : Anchors answers options location start covers)
    (hnested : ∀ active ty schema,
      answers.ComesTo options location start (level + 1) active ty →
      nested active ty = some schema →
      answers.Tied made covers (level + 1) (answers.Pending active) schema)
    (hway : answers.InProgress options location start level (ty :: active))
    (haround : Around answers options pending (ty :: active) ty)
    (hrecord : OwnRecord answers options (ty :: active) ty) {schema : Schema}
    (hbases : ∀ base ∈ answers.baseTypes ty, base ∉ ty :: active → ∀ claimed,
      (recognizeObject steps ⟨options, location⟩ base).value answers nested (base :: ty :: active) =
        some (some claimed) →
      Kept answers made covers level (fun name => pending name ∨ name = answers.nameOf ty) base
        claimed)
    (h : answers.recordSchema location
      (fun base => (Inquiry.within base (recognizeObject steps ⟨options, location⟩ base)).value
        answers nested (ty :: active)) (nested (ty :: active)) ty = some schema) :
    ∀ entry ∈ Schema.recordProperties (some schema), answers.Tied made covers (level + 1)
      (fun name => pending name ∨ covers ty entry.1 name) entry.2 := by
  refine forall_mem_recordSchema (fun property => answers.Tied made covers (level + 1)
    fun name => pending name ∨ covers ty property name) ?_ ?_ h
  · intro base hbase claimed hclaimed entry hentry hforeign
    rw [value_within] at hclaimed
    split at hclaimed
    · cases hclaimed
      cases hentry
    · rename_i hnew
      cases claimed with
      | none => cases hentry
      | some claimed =>
        have hkept := hbases base hbase hnew claimed hclaimed
        have hcarries : Carries answers options (base :: ty :: active) base entry.1 :=
          (mem_keys_iff_carries hclaimed).mp (List.mem_map.mpr ⟨entry, hentry, rfl⟩)
        refine (hkept.fields entry hentry).imp fun name => ?_
        rintro ((hpending | rfl) | hcovers)
        · exact .inl hpending
        · exact .inr (hanchors.covers_nameOf ty entry.1)
        · exact .inr (hanchors.inherits hway hrecord hbase hnew hcarries hforeign hcovers)
  · intro member hmember schema hschema property
    have hcomes := hway.comesTo (.member (hrecord.mono (List.nil_subset _)) hmember)
    refine (hnested _ member schema hcomes hschema).imp ?_
    rintro _ ⟨other, hother, rfl⟩
    rcases haround.pending_or other hother with hpending | hname
    · exact .inl hpending
    · exact .inr (hname ▸ hanchors.covers_nameOf ty property)

/-- What a call for a record comes to is kept where nested types are tied. -/
theorem kept_recognizeObject (hanchors : Anchors answers options location start covers)
    (hnested : ∀ active ty schema,
      answers.ComesTo options location start (level + 1) active ty →
      nested active ty = some schema →
      answers.Tied made covers (level + 1) (answers.Pending active) schema)
    (hway : answers.InProgress options location start level (ty :: active))
    (haround : Around answers options pending (ty :: active) ty) {schema : Schema}
    (h : (recognizeObject steps ⟨options, location⟩ ty).value answers nested (ty :: active) =
      some (some schema)) : Kept answers made covers level pending ty schema := by
  induction steps generalizing pending active ty schema with
  | zero => cases h
  | succ steps ih =>
    cases recognized_of_value h with
    | container hcontainer hschema =>
      refine .of_isObject (isObject_of_containerSchema hschema) fun hnone => ?_
      cases hcontainer.symm.trans hnone
    | tuple => exact .of_isObject rfl fun _ => tied_array_any none
    | @redirected target _ _ hcontainer _ hredirect hschema =>
      rw [value_within] at hschema
      split at hschema
      · rename_i hmem
        cases hschema
        exact .of_isObject rfl fun _ =>
          tied_backReference (haround.pending_target target hmem hredirect)
      · rename_i hnew
        have htarget : Kept answers made covers level pending target schema :=
          ih (hway.call (.target hcontainer hredirect) hnew)
            (haround.redirect hanchors hway hredirect) hschema
        refine ⟨fun hcontainer => ?_, fun heq => ?_, fun entry hentry => ?_⟩
        · exact htarget.tied ((hanchors.container_target hway hredirect).trans hcontainer)
        · exact (htarget.title heq).trans (hanchors.symbolName_target hway hredirect)
        · refine (htarget.fields entry hentry).imp fun name => ?_
          exact Or.imp_right (hanchors.covers_target hway hredirect)
    | record hobject hcontainer htuple hredirect hschema =>
      have hrecord := OwnRecord.of_redirect hobject hcontainer htuple hredirect
      have hfields := tied_recordSchema hanchors hnested hway haround hrecord
        (fun base hbase hnew claimed hclaimed => ?_) hschema
      · obtain ⟨inherited, own, -, -, rfl⟩ := exists_of_recordSchema hschema
        refine ⟨fun _ hother => ?_, fun heq => ?_, hfields⟩
        · cases hother
        · cases heq
          rfl
      · have hway' := hway.call (.base (hrecord.mono (List.nil_subset _)) hbase) hnew
        refine ih hway' (.enter hanchors hway' fun other hother => ?_) hclaimed
        exact (haround.pending_or other hother).imp_right fun hname => hname

/-- A resolution leaves no back-reference that is not tied to a type in progress. -/
theorem tied_resolveValue (hanchors : Anchors answers options location start covers)
    (hcomes : answers.ComesTo options location start level active ty) {fuel : Nat}
    {title : Option String} {schema : Schema}
    (h : answers.resolveValue Registry.shipped options location fuel level active ty title =
      some schema) :
    answers.Tied (answers.Makes options location start) covers level (answers.Pending active)
      schema := by
  induction fuel generalizing level active ty title schema with
  | zero => cases h
  | succ fuel ih =>
    have hvalue := h
    rw [resolveValue] at h
    split at h
    · cases h
      exact tied_any title
    rename_i hlimit
    split at h
    · rename_i hmem
      cases h
      exact tied_backReference ⟨ty, hmem, rfl⟩
    rename_i hnew
    have hway := hcomes (Nat.lt_of_not_le hlimit) hnew
    have hmade : answers.Makes options location start level ty schema :=
      ⟨active, fuel + 1, title, hway, hvalue⟩
    have haround : Around answers options (answers.Pending active) (ty :: active) ty :=
      .enter hanchors hway fun other hother => ⟨other, hother, rfl⟩
    rw [dispatchValue_shipped] at h
    cases hleaf : answers (.intrinsic ty) with
    | some kind =>
      rw [hleaf] at h
      cases h
      exact tied_intrinsic kind
    | none =>
      rw [hleaf] at h
      cases hcontainer : answers.container? ty with
      | some container =>
        rw [hcontainer] at h
        refine tied_containerSchema hcontainer (fun item schema harray hitem hschema => ?_) hmade h
        have hnext : answers.Onward options location 1 ty item :=
          .item (harray ▸ hcontainer) hitem
        refine (ih (hway.comesTo hnext) hschema).imp ?_
        rintro _ ⟨other, hother, rfl⟩
        exact haround.pending_or other hother
      | none =>
        rw [hcontainer] at h
        obtain ⟨claimed, hclaimed, h⟩ := Option.bind_eq_some_iff.mp h
        cases claimed with
        | none =>
          cases h
          exact tied_any title
        | some claimed =>
          cases h
          have hkept := kept_recognizeObject hanchors
            (fun _ _ _ hcomes hschema => ih hcomes hschema) hway haround hclaimed
          exact hkept.tied_of_made hcontainer hmade

end Calls

end Answers

end GraphSchema
