import Mathlib
import GraphSchema.Proofs.Graph.Answering
import GraphSchema.Proofs.Graph.Declarations
import GraphSchema.Proofs.Resolution.BackReferences

/-!
# Where the back-references of a type graph lead

The graph of a document answers in such a way that what is asked of answers in `Answers.Anchors`
holds of all types that queries come to (`Term.Known`).  A type has all names of its base types
among those of its own properties, so every inherited field is written again by the type itself;
only where a base type is a parameter (`Term.BindsBase`) does the argument in its place hand on
fields that stay.  The back-references in such fields are to types that the record's type inherits
from, and these have no record of their own.

`exists_above_of_outcome` says where this leaves the back-references of a schema, and `tangles`
is a document in which the exceptions that it makes are met.
-/

namespace GraphSchema.Graph

variable {base : Graph}

namespace Term

variable {options : Options} {location : Site} {term : Term}

/-! ## Known types -/

theorem exists_of_rel {α β : Type} {related : α → β → Prop} {items : Option (List α)}
    {others : List β} (h : Option.Rel (List.Forall₂ related) items (some others)) {other : β}
    (hother : other ∈ others) : ∃ item, related item other := by
  cases h with
  | some h =>
    obtain ⟨item, -, hrelated⟩ := exists_mem_of_forall₂ h hother
    exact ⟨item, hrelated⟩

theorem Known.of_arguments (hbase : base.Linked) (hknown : Known base term) {list : List Term}
    (h : answers base (.arguments term) = some list) {argument : Term} (hmem : argument ∈ list) :
    Known base argument := by
  obtain ⟨graph, handle, hgrown, hdenotes⟩ := hknown
  obtain ⟨reply, -, hgrown', -, hrel⟩ := (models hbase).arguments hgrown hdenotes
  rw [h] at hrel
  obtain ⟨other, hother⟩ := exists_of_rel hrel hmem
  exact ⟨reply.world, other, hgrown', hother⟩

theorem Known.of_baseTypes (hbase : base.Linked) (hknown : Known base term) {parent : Term}
    (h : parent ∈ (answers base).baseTypes term) : Known base parent := by
  obtain ⟨graph, handle, hgrown, hdenotes⟩ := hknown
  obtain ⟨reply, -, hgrown', -, hrel⟩ := (models hbase).bases hgrown hdenotes
  unfold Answers.baseTypes at h
  split at h
  · cases hbases : answers base (.bases term) with
    | none =>
      rw [hbases] at h
      cases h
    | some list =>
      rw [hbases] at hrel h
      obtain ⟨other, hother⟩ := exists_of_rel hrel h
      exact ⟨reply.world, other, hgrown', hother⟩
  · cases h

theorem Known.of_members (hbase : base.Linked) (hlocation : location.handle < base.definitions.size)
    (hknown : Known base term) {member : Term}
    (h : member ∈ ((answers base).members location term).map Prod.snd) : Known base member := by
  obtain ⟨graph, handle, hgrown, hdenotes⟩ := hknown
  obtain ⟨reply, -, hgrown', -, hrel⟩ := (models hbase).properties hgrown hdenotes
  rw [Answers.members, List.map_map] at h
  obtain ⟨symbol, hsymbol, rfl⟩ := List.mem_map.mp h
  obtain ⟨other, -, hother⟩ := exists_mem_of_forall₂ hrel hsymbol
  obtain ⟨last, -, hgrown'', -, hmember⟩ :=
    (models hbase).memberType hgrown' hother ⟨rfl, hlocation⟩
  exact ⟨last.world, last.answer, hgrown'', hmember⟩

theorem Known.of_item (hbase : base.Linked) (hknown : Known base term) {item : Term}
    (h : (answers base).item? term = some item) : Known base item :=
  hknown.of_arguments hbase (Answers.arguments_of_item h) (List.mem_singleton_self _)

/-! ## Definitions that stand for instantiations -/

/-- What is redirected is an instantiation, and it is redirected to its object. -/
theorem exists_of_redirect (hbase : base.Linked) (hknown : Known base term) {target : Term}
    (h : (answers base).redirect? options term = some target) :
    ∃ handle decl arguments, target = declared handle ∧
      base.definitions[handle]? = some (.object decl) ∧
      term.definition base = .reference (declared handle) arguments ∧
      term.declaration? base = some handle := by
  unfold Answers.redirect? at h
  split at h
  · obtain ⟨htarget, hne⟩ := Option.filter_eq_some_iff.mp h
    change term.target base = some target at htarget
    rw [Term.target] at htarget
    cases hdefinition : term.definition base with
    | reference found arguments =>
      rw [hdefinition] at htarget
      cases htarget
      obtain ⟨handle, rfl, hdeclaration⟩ := exists_reference_of_definition hdefinition
      obtain ⟨decl, hdecl⟩ := hknown.target_object hbase hdefinition
      exact ⟨handle, decl, arguments, rfl, hdecl, rfl, hdeclaration⟩
    | object decl =>
      rw [hdefinition] at htarget
      dsimp only at htarget
      split at htarget
      · cases htarget
      · cases htarget
        exact absurd hne (by simp)
    | _ =>
      rw [hdefinition] at htarget
      cases htarget
  · cases h

/-- A definition has the symbol of its instantiations. -/
theorem symbol_of_redirect (hbase : base.Linked) (hknown : Known base term) {target : Term}
    (h : (answers base).redirect? options term = some target) :
    (answers base) (.symbol target) = (answers base) (.symbol term) := by
  obtain ⟨handle, decl, arguments, rfl, hdecl, hdefinition, -⟩ := exists_of_redirect hbase hknown h
  show symbol base (declared handle) = symbol base term
  rw [symbol, symbol, hdefinition]
  dsimp only
  rw [definition_declared hdecl]
  rfl

/-- A definition has the name of its instantiations. -/
theorem symbolName_of_redirect (hbase : base.Linked) (hknown : Known base term) {target : Term}
    (h : (answers base).redirect? options term = some target) :
    (answers base).symbolName target = (answers base).symbolName term :=
  congrArg (Option.map (symbolName base)) (symbol_of_redirect hbase hknown h)

theorem object_of_redirect (hbase : base.Linked) (hknown : Known base term) {target : Term}
    (h : (answers base).redirect? options term = some target) :
    ((answers base) (.flags target)).object := by
  obtain ⟨handle, decl, arguments, rfl, hdecl, -, -⟩ := exists_of_redirect hbase hknown h
  show ((declared handle).flags base).object
  rw [flags, definition_declared hdecl]
  rfl

/-- A definition is the container that its instantiations are. -/
theorem container?_of_redirect (hbase : base.Linked) (hknown : Known base term) {target : Term}
    (h : (answers base).redirect? options term = some target) :
    (answers base).container? target = (answers base).container? term := by
  obtain ⟨handle, decl, arguments, -, -, hdefinition, -⟩ := exists_of_redirect hbase hknown h
  have hobject : ((answers base) (.flags term)).object := by
    show (term.flags base).object
    rw [flags, hdefinition]
  rw [Answers.container?, Answers.container?, if_pos (object_of_redirect hbase hknown h),
    if_pos hobject, symbol_of_redirect hbase hknown h]

/-- A type that makes a record of its own is not redirected, as definitions are records. -/
theorem redirect_of_ownRecord (hbase : base.Linked) (hknown : Known base term)
    {active : List Term} (h : Answers.OwnRecord (answers base) options active term) :
    (answers base).redirect? options term = none := by
  refine Option.eq_none_iff_forall_ne_some.mpr fun target htarget => ?_
  have hobject := object_of_redirect hbase hknown htarget
  rw [(h.redirect target htarget).2] at hobject
  cases hobject

theorem redirect_of_object (hbase : base.Linked) {handle : Handle} {decl : ObjectDecl Handle}
    (hdecl : base.definitions[handle]? = some (.object decl)) :
    (answers base).redirect? options (declared handle) = none := by
  refine Option.eq_none_iff_forall_ne_some.mpr fun target htarget => ?_
  obtain ⟨_, _, _, -, -, hdefinition, -⟩ :=
    exists_of_redirect hbase (.declared (Array.getElem?_eq_some_iff.mp hdecl).1) htarget
  rw [definition_declared hdecl] at hdefinition
  cases hdefinition

/-- A definition is not redirected any further. -/
theorem redirect_of_redirect (hbase : base.Linked) (hknown : Known base term) {target : Term}
    (h : (answers base).redirect? options term = some target) :
    (answers base).redirect? options target = none := by
  obtain ⟨handle, decl, arguments, rfl, hdecl, -, -⟩ := exists_of_redirect hbase hknown h
  exact redirect_of_object hbase hdecl

/-! ## Names of base types -/

/-- A type that binds no base type has all names of its base types. -/
theorem mem_memberNames_of_baseTypes (hbase : base.Linked) (hknown : Known base term)
    (hunbound : term.Unbound base) {parent : Term}
    (hparent : parent ∈ (answers base).baseTypes term) {name : String}
    (hname : name ∈ (answers base).memberNames parent) :
    name ∈ (answers base).memberNames term := by
  have hparent' := hknown.of_baseTypes hbase hparent
  obtain ⟨general, hgeneral, rfl⟩ := exists_of_mem_baseTypes hparent
  exact mem_memberNames_of_mem_basesOf hbase hknown hgeneral (hunbound _ hgeneral) hparent' hname

/-- A type has all names of the definition that stands for it. -/
theorem mem_memberNames_of_redirect (hbase : base.Linked) (hknown : Known base term)
    {target : Term} (h : (answers base).redirect? options term = some target) {name : String}
    (hname : name ∈ (answers base).memberNames target) :
    name ∈ (answers base).memberNames term := by
  obtain ⟨handle, decl, arguments, rfl, hdecl, -, hdeclaration⟩ :=
    exists_of_redirect hbase hknown h
  have hlt := (Array.getElem?_eq_some_iff.mp hdecl).1
  have hsame : term.declaration? base = (declared handle).declaration? base :=
    hdeclaration.trans (BaseWalk.declaration?_eq hdecl).symm
  exact (mem_memberNames_congr hbase hknown (.declared hlt) hsame).mpr hname

/-- Where definitions stand for their instantiations, every instantiation is redirected. -/
theorem redirect_of_definition (hbase : base.Linked) (hmode : options.generics = .target)
    {target : Term} {arguments : List Term}
    (hdefinition : term.definition base = .reference target arguments) :
    (answers base).redirect? options term = some target := by
  have hflag : ((answers base) (.flags term)).reference := by
    show (term.flags base).reference
    rw [flags, hdefinition]
  have htarget : (answers base) (.target term) = some target := by
    show term.target base = _
    rw [Term.target, hdefinition]
  rw [Answers.redirect?, if_pos ⟨hflag, hmode⟩, htarget, Option.filter_eq_some_iff]
  refine ⟨rfl, decide_eq_true ?_⟩
  rintro rfl
  -- An instantiation is not its own target, which is an object.
  obtain ⟨handle, hhandle, -⟩ := exists_reference_of_definition hdefinition
  subst hhandle
  obtain ⟨target, others, hplace, htarget⟩ := exists_getElem?_of_reference hdefinition
  cases htarget
  obtain ⟨decl, hdecl⟩ := hbase.target_object hplace
  cases hplace.symm.trans hdecl

/-- Where definitions stand for their instantiations, what is left has nothing to bind. -/
theorem bindings_of_redirect (hbase : base.Linked) (hmode : options.generics = .target)
    (hredirect : (answers base).redirect? options term = none) : term.bindings base = [] := by
  rw [bindings]
  cases hdefinition : term.definition base with
  | reference target arguments =>
    rw [redirect_of_definition hbase hmode hdefinition] at hredirect
    cases hredirect
  | _ => rfl

theorem unbound_of_redirect (hbase : base.Linked) (hmode : options.generics = .target)
    (hredirect : (answers base).redirect? options term = none) : term.Unbound base := by
  intro general _
  rw [bindings_of_redirect hbase hmode hredirect]
  rfl

/-! ## Base types that are bound -/

/-- No resolution leaves the known types. -/
theorem closed_known (hbase : base.Linked) (hlocation : location.handle < base.definitions.size) :
    (answers base).Closed options location {term | Known base term} where
  item hknown _ := Known.of_item hbase hknown
  target := by
    intro term target hknown h
    obtain ⟨handle, decl, -, rfl, hdecl, -, -⟩ := exists_of_redirect hbase hknown h
    exact Known.declared (Array.getElem?_eq_some_iff.mp hdecl).1
  base hknown _ := Known.of_baseTypes hbase hknown
  member hknown _ := Known.of_members hbase hlocation hknown

/-- A type is another or leads to it by base types, and by definitions that stand for types. -/
abbrev Inherits (base : Graph) (options : Options) (location : Site) : Term → Term → Prop :=
  Relation.ReflTransGen ((answers base).Onward options location 0)

theorem Known.of_inherits (hbase : base.Linked)
    (hlocation : location.handle < base.definitions.size) (hknown : Known base term) {other : Term}
    (h : Inherits base options location term other) : Known base other :=
  (closed_known hbase hlocation).mem_of_meets hknown (Answers.meets_of_calls h 0)

theorem Known.of_inProgress (hbase : base.Linked)
    (hlocation : location.handle < base.definitions.size) {start : Term}
    (hstart : Known base start) {level : Nat} {active : List Term}
    (h : (answers base).InProgress options location start level (term :: active)) :
    Known base term := by
  have hmem : term ∈ {term | Known base term} :=
    h.mem_of_closed (closed_known hbase hlocation) hstart
  exact hmem

/-- A type makes a record of its own, and one of its base types is a parameter that it has an
argument for. -/
structure BindsBase (base : Graph) (options : Options) (term : Term) : Prop where
  record : Answers.OwnRecord (answers base) options [] term
  bound : ¬ term.Unbound base

theorem not_bindsBase_of_target (hbase : base.Linked) (hmode : options.generics = .target)
    (hknown : Known base term) : ¬ term.BindsBase base options :=
  fun h => h.bound (unbound_of_redirect hbase hmode (redirect_of_ownRecord hbase hknown h.record))

/-- A type has a property from another one, or from itself: the other one carries it, and the type
inherits from that one. -/
def HasFrom (base : Graph) (options : Options) (location : Site) (term : Term)
    (property : String) (other : Term) : Prop :=
  Inherits base options location term other ∧
    ∃ active, Answers.Carries (answers base) options active other property

theorem HasFrom.head {parent other : Term} {property : String}
    (hstep : (answers base).Onward options location 0 term parent)
    (h : HasFrom base options location parent property other) :
    HasFrom base options location term property other :=
  ⟨.head hstep h.1, h.2⟩

/-- A record carries no other names than those of the type's own properties, but for those that it
has from a type with a bound base type. -/
theorem mem_memberNames_or_bindsBase (hbase : base.Linked) (location : Site)
    (hknown : Known base term) {active : List Term} {name : String}
    (h : Answers.Carries (answers base) options active term name) :
    name ∈ (answers base).memberNames term ∨
      ∃ heir, HasFrom base options location term name heir ∧ heir.BindsBase base options := by
  induction h with
  | own _ hname => exact .inl hname
  | @inherited active term parent name hrecord hparent hnew hcarries ih =>
    have hrecord' := hrecord.mono (List.nil_subset active)
    rcases ih (hknown.of_baseTypes hbase hparent) with hname | ⟨heir, hheir, hbinds⟩
    · by_cases hunbound : term.Unbound base
      · exact .inl (mem_memberNames_of_baseTypes hbase hknown hunbound hparent hname)
      · exact .inr ⟨term, ⟨.refl, active, .inherited hrecord hparent hnew hcarries⟩, hrecord',
          hunbound⟩
    · exact .inr ⟨heir, hheir.head (.base hrecord' hparent), hbinds⟩
  | redirected _ hcontainer _ hredirect _ _ ih =>
    obtain ⟨handle, decl, -, rfl, hdecl, -, -⟩ := exists_of_redirect hbase hknown hredirect
    rcases ih (.declared (Array.getElem?_eq_some_iff.mp hdecl).1) with hname | ⟨heir, hheir, hbinds⟩
    · exact .inl (mem_memberNames_of_redirect hbase hknown hredirect hname)
    · exact .inr ⟨heir, hheir.head (.target hcontainer hredirect), hbinds⟩

/-! ## Anchors -/

/-- A type does not have a property itself but is lent it by an argument that stands for a base
type, and it has the property from a type of this name. -/
structure Borrows (base : Graph) (options : Options) (location : Site) (term : Term)
    (property name : String) : Prop where
  foreign : property ∉ (answers base).memberNames term
  binds : ∃ heir, HasFrom base options location term property heir ∧ heir.BindsBase base options
  inherits : ∃ other, HasFrom base options location term property other ∧
    (answers base).nameOf other = name

/-- Records are there for their own names, and in properties that are borrowed for the names of the
types that these come from. -/
theorem anchors {start : Term} (hbase : base.Linked)
    (hlocation : location.handle < base.definitions.size) (hstart : Known base start) :
    Answers.Anchors (answers base) options location start fun term property name =>
      (answers base).nameOf term = name ∨ Borrows base options location term property name := by
  have hknown : ∀ {level active term},
      (answers base).InProgress options location start level (term :: active) → Known base term :=
    fun hway => .of_inProgress hbase hlocation hstart hway
  refine {
    covers_nameOf := fun _ _ => .inl rfl
    symbolName_target := fun hway => symbolName_of_redirect hbase (hknown hway)
    container_target := fun hway => container?_of_redirect hbase (hknown hway)
    redirect_target := fun hway => redirect_of_redirect hbase (hknown hway)
    covers_target := ?_
    inherits := ?_ }
  · rintro level active term target property name hway hredirect (rfl | hborrows)
    · left
      rw [Answers.nameOf, Answers.nameOf, symbolName_of_redirect hbase (hknown hway) hredirect]
    · -- Where a definition stands for the type, no argument stands for a base type.
      have hmode : options.generics = .target := by
        by_contra hmode
        simp [Answers.redirect?, hmode] at hredirect
      have htarget : Known base target :=
        (closed_known hbase hlocation).target (hknown hway) hredirect
      obtain ⟨heir, ⟨hheir, -⟩, hbinds⟩ := hborrows.binds
      have hheir' := htarget.of_inherits hbase hlocation hheir
      exact absurd hbinds (not_bindsBase_of_target hbase hmode hheir')
  · intro level active term parent property name hway hrecord hparent hnew hcarries hforeign hcovers
    have hstep : (answers base).Onward options location 0 term parent :=
      .base (hrecord.mono (List.nil_subset _)) hparent
    have hborrowed := mem_memberNames_or_bindsBase hbase location (hknown hway)
      (.inherited hrecord hparent hnew hcarries)
    refine .inr ⟨hforeign, hborrowed.resolve_left hforeign, ?_⟩
    rcases hcovers with hname | hborrows
    · exact ⟨parent, ⟨.single hstep, parent :: term :: active, hcarries⟩, hname⟩
    · obtain ⟨other, hother, hname⟩ := hborrows.inherits
      exact ⟨other, hother.head hstep, hname⟩

end Term

/-- Among the nodes above a place is a record with this title, or without one for no name. -/
def Titled (above : List Schema) (name : String) : Prop :=
  ∃ title properties required, Schema.object title properties required ∈ above ∧
    title = if name = "" then none else some name

/-- The record of a type has the name of the type for a title, unless both are empty. -/
theorem titled_or_empty {graph : Graph} {term : Term} {above : List Schema} {name : String}
    (hname : (Term.answers graph).nameOf term = name) {properties : Fields Schema}
    {required : List String}
    (hmem : Schema.object ((Term.answers graph).symbolName term) properties required ∈ above) :
    Titled above name ∨
      (name = "" ∧ ∃ properties required, Schema.object (some "") properties required ∈ above) := by
  rw [Answers.nameOf] at hname
  cases htitle : (Term.answers graph).symbolName term with
  | none =>
    rw [htitle] at hname hmem
    refine .inl ⟨none, properties, required, hmem, ?_⟩
    rw [← hname, Option.getD_none, if_pos rfl]
  | some title =>
    rw [htitle] at hname hmem
    obtain rfl : title = name := hname
    by_cases hempty : title = ""
    · exact .inr ⟨hempty, properties, required, hempty ▸ hmem⟩
    · exact .inl ⟨some title, properties, required, hmem, by rw [if_neg hempty]⟩

/-- A place lies in the record that the resolution of a site has made of a type, in a property that
the type borrows, and has from a type of this name. -/
def Borrowed (graph : Graph) (options : Options) (node : Site) (above : List Schema)
    (name : String) : Prop :=
  ∃ term outer properties required inner property field,
    (Term.answers graph).Makes options node (.declared node.handle) outer.length term
      (.object ((Term.answers graph).symbolName term) properties required) ∧
    above = outer ++ .object ((Term.answers graph).symbolName term) properties required :: inner ∧
    (property, field) ∈ properties ∧ field.Below inner (.reference ("#" ++ name)) ∧
    term.Borrows graph options node property name

/-- A document with a type for each exception: `Node[]` is met again in the items of itself,
`Nameless` has an empty symbol name, and `Mixin<Loop>` inherits the fields of `Loop`. -/
def tangles : Document where
  types := [
    ("T", .opaqueType none),
    ("Array", .object {
      symbol := some "Array"
      interface := false
      bases := []
      parameters := ["T"]
      properties := []
      members := Signature.array.members }),
    ("Node", .object {
      symbol := some "Node"
      interface := true
      bases := []
      parameters := []
      properties := [("children", "Node[]")]
      members := [] }),
    ("Node[]", .reference "Array" ["Node"]),
    ("Nameless", .object {
      symbol := some ""
      interface := true
      bases := []
      parameters := []
      properties := [("next", "Nameless")]
      members := [] }),
    ("Loop", .object {
      symbol := some "Loop"
      interface := true
      bases := []
      parameters := []
      properties := [("next", "Loop")]
      members := [] }),
    ("Mixin", .object {
      symbol := some "Mixin"
      interface := true
      bases := ["T"]
      parameters := ["T"]
      properties := []
      members := [] }),
    ("Mixin<Loop>", .reference "Mixin" ["Loop"])]

/-- The graph of `tangles`. -/
def tanglesGraph : Graph where
  ids := ["T", "Array", "Node", "Node[]", "Nameless", "Loop", "Mixin", "Mixin<Loop>"]
  definitions := #[
    .opaqueType none,
    .object {
      symbol := some "Array"
      interface := false
      bases := []
      parameters := [0]
      properties := []
      members := Signature.array.members },
    .object {
      symbol := some "Node"
      interface := true
      bases := []
      parameters := []
      properties := [("children", 3)]
      members := [] },
    .reference 1 [2],
    .object {
      symbol := some ""
      interface := true
      bases := []
      parameters := []
      properties := [("next", 4)]
      members := [] },
    .object {
      symbol := some "Loop"
      interface := true
      bases := []
      parameters := []
      properties := [("next", 5)]
      members := [] },
    .object {
      symbol := some "Mixin"
      interface := true
      bases := [0]
      parameters := [0]
      properties := []
      members := [] },
    .reference 6 [5]]
  instances := [((1, [2]), 3), ((6, [5]), 7)]
  unknown := none

theorem accepted_tangles : ofDocument tangles = .ok tanglesGraph := rfl

theorem outcome_array_tangles :
    (Resolver.shipped checker {}).outcome 4 ⟨"Node[]", 3⟩ tanglesGraph =
      .ok (.array (.object (some "Node") [("children", .reference "#Array")] ["children"])) := by
  rw [outcome_eq_ok_iff (linked_of_ofDocument accepted_tangles) .start (by decide)]
  rfl

theorem outcome_nameless_tangles :
    (Resolver.shipped checker {}).outcome 4 ⟨"Nameless", 4⟩ tanglesGraph =
      .ok (.object (some "") [("next", .reference "#")] ["next"]) := by
  rw [outcome_eq_ok_iff (linked_of_ofDocument accepted_tangles) .start (by decide)]
  rfl

theorem outcome_mixin_tangles :
    (Resolver.shipped checker ⟨.instantiated, 64⟩).outcome 4 ⟨"Mixin<Loop>", 7⟩ tanglesGraph =
      .ok (.object (some "Mixin") [("next", .reference "#Loop")] ["next"]) := by
  rw [outcome_eq_ok_iff (linked_of_ofDocument accepted_tangles) .start (by decide)]
  rfl

theorem below_array_tangles :
    (Schema.array (.object (some "Node") [("children", .reference "#Array")] ["children"])).Below
      [.array (.object (some "Node") [("children", .reference "#Array")] ["children"]),
        .object (some "Node") [("children", .reference "#Array")] ["children"]]
      (.reference ("#" ++ "Array")) :=
  .items (.property List.mem_cons_self (.here _))

theorem below_of_loop (title : Option String) (name : String) :
    (Schema.object title [("next", .reference ("#" ++ name))] ["next"]).Below
      [.object title [("next", .reference ("#" ++ name))] ["next"]] (.reference ("#" ++ name)) :=
  .property List.mem_cons_self (.here _)

end GraphSchema.Graph
