import Mathlib
import GraphSchema.Proofs.Graph.Targets
import GraphSchema.Proofs.Graph.Termination
import GraphSchema.Proofs.Graph.Viewing
import GraphSchema.Proofs.Resolution.Unrolling

/-!
# Instantiations with several ids

A document can declare one instantiation under several ids.  Each of them keeps a type of its own,
though all questions about these types have the same answers (`Term.alike_of_definition`).  What is
in progress is told by the type and not by what it is made of, so a resolution of one id does not
stop where it meets another, and the schemas of two ids can differ (`exists_resolvesTo_ne_aliases`).

`resolvesTo_of_same_instantiation` says how far.  The resolutions of both ids end or neither does.
Where no type on the way has a parameter for a base type, every inherited field is written again
(`Term.rewrites`), and the schemas differ only in that one of them has a back-reference to its id
where the other resolution has looked into that id (`UnrollAlike`).  What stands there instead of
the back-reference is what this resolution makes of the id, with the types in progress that it has
entered on its way there.  And the schemas do not differ at all where the definition stands for both
ids and is no array, nor where neither id is met again below itself.
-/

namespace GraphSchema.Graph

variable {base : Graph}

namespace Term

variable {term first second : Term} {target : Handle} {arguments : List Term}
  {decl : ObjectDecl Handle} {options : Options} {location location' : Site}

section Same

variable (hfirst : first.definition base = .reference (declared target) arguments)
  (hsecond : second.definition base = .reference (declared target) arguments)

include hfirst hsecond

theorem bindings_congr : second.bindings base = first.bindings base := by
  rw [bindings, bindings, hfirst, hsecond]

/-- A property has the same type through either of two instantiations that bind the same. -/
theorem typeOfSymbol_seenThrough_congr (symbol : Symbol) :
    typeOfSymbol base (seenThrough base second (declared target) (second.bindings base) symbol) =
      typeOfSymbol base
        (seenThrough base first (declared target) (first.bindings base) symbol) := by
  rw [bindings_congr hfirst hsecond]
  cases symbol with
  | type ty => rfl
  | property owner name through =>
    cases through with
    | some inner => rfl
    | none =>
      rw [seenThrough, seenThrough]
      split
      · rw [typeOfSymbol, typeOfSymbol]
        dsimp only
        rw [bindings_congr hfirst hsecond]
      · rfl

theorem members_congr (hbase : base.Linked)
    (hdecl : base.definitions[target]? = some (.object decl)) :
    (answers base).members location' second = (answers base).members location first := by
  have hproperties : ∀ term, (answers base) (.properties term) = term.properties base :=
    fun _ => rfl
  rw [Answers.members, Answers.members, hproperties, hproperties,
    properties_of_instantiation hbase hfirst hdecl,
    properties_of_instantiation hbase hsecond hdecl, List.map_map, List.map_map]
  refine List.map_congr_left fun symbol _ => Prod.ext ?_ ?_
  · exact (symbolName_seenThrough _ _ _ _).trans (symbolName_seenThrough _ _ _ _).symm
  · exact typeOfSymbol_seenThrough_congr hfirst hsecond symbol

/-- The answers about two instantiations of the same definition with the same arguments are the
same. -/
theorem alike_of_definition (hbase : base.Linked)
    (hdecl : base.definitions[target]? = some (.object decl)) :
    (answers base).Alike options location location' first second := by
  have hflags : (answers base) (.flags second) = (answers base) (.flags first) := by
    show second.flags base = first.flags base
    rw [flags, flags, hfirst, hsecond]
  have hsymbol : (answers base) (.symbol second) = (answers base) (.symbol first) := by
    show second.symbol base = first.symbol base
    rw [symbol, symbol, hfirst, hsecond]
  have harguments : ∀ term, term.definition base = .reference (declared target) arguments →
      (answers base) (.arguments term) = some arguments := by
    intro term hterm
    show term.arguments base = some arguments
    rw [Term.arguments, hterm]
  have hbases : (answers base) (.bases second) = (answers base) (.bases first) := by
    show second.bases base = first.bases base
    rw [bases, bases, basesOf, basesOf, flags, flags, bindings_congr hfirst hsecond, hfirst,
      hsecond]
  exact {
    flags := hflags
    intrinsic := by
      show second.intrinsic base = first.intrinsic base
      rw [intrinsic, intrinsic, hfirst, hsecond]
    symbolName := congrArg (Option.map (symbolName base)) hsymbol
    container := by rw [Answers.container?, Answers.container?, hflags, hsymbol]
    item := by
      rw [Answers.item?, Answers.item?, harguments first hfirst, harguments second hsecond, hflags]
      rcases arguments with _ | ⟨item, _ | ⟨other, rest⟩⟩ <;> rfl
    redirect := by
      cases hmode : options.generics with
      | target =>
        rw [redirect_of_definition hbase hmode hfirst, redirect_of_definition hbase hmode hsecond]
      | instantiated => simp [Answers.redirect?, hmode]
    baseTypes := by rw [Answers.baseTypes, Answers.baseTypes, hflags, hbases]
    members := members_congr hfirst hsecond hbase hdecl }

end Same

/-! ## What is asked of the answers -/

theorem object_of_definition {target : Term}
    (h : term.definition base = .reference target arguments) :
    ((answers base) (.flags term)).object := by
  show (term.flags base).object
  rw [flags, h]

/-- With definitions in place of their instantiations, and where no parameter is a base type, no
type has a base type that is bound. -/
theorem not_bindsBase_of_mode (hbase : base.Linked)
    (hmode : options.generics = .target ∨ base.NoParameterBases) (hknown : Known base term) :
    ¬ term.BindsBase base options := by
  rcases hmode with htarget | hfree
  · exact not_bindsBase_of_target hbase htarget hknown
  · exact fun h => h.bound (hfree.unbound term)

theorem BindsBase.congr (hbase : base.Linked)
    (hfirst : first.definition base = .reference (declared target) arguments)
    (hsecond : second.definition base = .reference (declared target) arguments)
    (hdecl : base.definitions[target]? = some (.object decl))
    (h : second.BindsBase base options) : first.BindsBase base options := by
  have halike : (answers base).Alike options ⟨"", 0⟩ ⟨"", 0⟩ second first :=
    alike_of_definition hsecond hfirst hbase hdecl
  refine ⟨halike.ownRecord h.record, fun hunbound => h.bound ?_⟩
  rw [Unbound, basesOf, bindings_congr hfirst hsecond, hsecond]
  rwa [Unbound, basesOf, hfirst] at hunbound

/-- Where no base type is bound of all types that are met, every field is written again that a base
type hands on. -/
theorem rewrites (hbase : base.Linked) (hlocation : location.handle < base.definitions.size)
    (hknown : Known base term)
    (hfree : ∀ other, (answers base).Meets options location options.maxDepth term other →
      ¬ other.BindsBase base options) :
    (answers base).Rewrites options location term := by
  intro level active heir hway hrecord parent hparent inside name hcarries
  have hheir := hknown.of_inProgress hbase hlocation hway
  have hunbound : heir.Unbound base := by
    by_contra hbound
    exact hfree heir (hway.meets_of_calls .refl) ⟨hrecord, hbound⟩
  have hstep : (answers base).Onward options location 0 heir parent := .base hrecord hparent
  have hknown' := hheir.of_baseTypes hbase hparent
  rcases mem_memberNames_or_bindsBase hbase location hknown' hcarries with
    hname | ⟨other, ⟨hother, -⟩, hbinds⟩
  · exact mem_memberNames_of_baseTypes hbase hheir hunbound hparent hname
  · exact absurd hbinds (hfree other (hway.meets_of_calls (.head hstep hother)))

/-- Arrays and records of their own that are instantiations are not definitions that stand for
types. -/
theorem setApart {title : Option String} (hbase : base.Linked)
    (hlocation : location.handle < base.definitions.size) (hknown : Known base first)
    (hfirst : first.definition base = .reference (declared target) arguments)
    (hsecond : second.definition base = .reference (declared target) arguments)
    (hheads : (answers base).Heads options title first)
    (hheads' : (answers base).Heads options title second) :
    (answers base).SetApart options location title first second where
  heads := hheads
  heads' := hheads'
  object_target hway := object_of_redirect hbase (hknown.of_inProgress hbase hlocation hway)
  target_ne := by
    intro level active term stand hway hredirect
    obtain ⟨handle, found, -, rfl, hfound, -, -⟩ :=
      exists_of_redirect hbase (hknown.of_inProgress hbase hlocation hway) hredirect
    have hobject := definition_declared hfound
    constructor
    · rintro rfl
      cases hfirst.symm.trans hobject
    · rintro rfl
      cases hsecond.symm.trans hobject

end Term

/-! ## Resolutions of sites -/

/-- A site resolves to a schema, with every bound on the nesting of calls that is large enough. -/
def ResolvesTo (graph : Graph) (options : Options) (node : Site) (schema : Schema) : Prop :=
  ∃ bound, ∀ fuel, bound ≤ fuel →
    (Resolver.shipped checker options).outcome fuel node graph = .ok schema

section ResolvesTo

variable {graph : Graph} {options : Options} {node : Site} {schema schema' : Schema}

theorem ResolvesTo.unique (h : ResolvesTo graph options node schema)
    (h' : ResolvesTo graph options node schema') : schema = schema' := by
  obtain ⟨bound, hbound⟩ := h
  obtain ⟨bound', hbound'⟩ := h'
  have heq := (hbound _ (Nat.le_add_right bound bound')).symm.trans
    (hbound' _ (Nat.le_add_left bound' bound))
  exact Except.ok.inj heq

/-- One bound is enough: larger ones keep the schema. -/
theorem resolvesTo_iff (hbase : base.Linked) (hgrown : Grown base graph)
    (hnode : node.handle < base.definitions.size) :
    ResolvesTo graph options node schema ↔
      ∃ fuel, (Term.answers base).siteValue Registry.shipped options fuel node = some schema := by
  constructor
  · rintro ⟨bound, hbound⟩
    exact ⟨bound, (outcome_eq_ok_iff hbase hgrown hnode).mp (hbound bound le_rfl)⟩
  · rintro ⟨bound, hbound⟩
    refine ⟨bound, fun fuel hfuel => (outcome_eq_ok_iff hbase hgrown hnode).mpr ?_⟩
    exact Answers.resolveValue_mono rfl hfuel (.refl _ _) hbound

theorem exists_resolvesTo_iff (hbase : base.Linked) (hgrown : Grown base graph)
    (hnode : node.handle < base.definitions.size) :
    (∃ schema, ResolvesTo graph options node schema) ↔
      ∃ fuel, ((Term.answers base).siteValue Registry.shipped options fuel node).isSome := by
  simp only [resolvesTo_iff hbase hgrown hnode, Option.isSome_iff_exists]
  exact exists_comm

/-- With definitions in place of their instantiations, and where no parameter is a base type, every
resolution comes to an end. -/
theorem exists_resolvesTo (hbase : base.Linked) (hgrown : Grown base graph)
    (hnode : node.handle < base.definitions.size)
    (hmode : options.generics = .target ∨ base.NoParameterBases) :
    ∃ schema, ResolvesTo graph options node schema := by
  rw [exists_resolvesTo_iff hbase hgrown hnode]
  cases hgenerics : options.generics with
  | target =>
    obtain ⟨schema, bound, hschema⟩ := Term.exists_resolveValue hbase hgenerics hnode
      (.declared hnode) ((Term.answers base).siteTitle node (.declared node.handle))
    exact ⟨bound, Option.isSome_iff_exists.mpr ⟨schema, hschema bound le_rfl⟩⟩
  | instantiated =>
    have hfree := hmode.resolve_left (by simp [hgenerics])
    exact (Answers.exists_isSome_iff_finite hgenerics fun _ =>
      Term.intrinsic_eq_none_of_object).mpr (finite_reaches_of_noParameterBases hbase hfree _ _ _ _)

end ResolvesTo

/-- The members of a type are the same whichever site they are asked for. -/
theorem members_of_site (node node' : Site) :
    (Term.answers base).members node' = (Term.answers base).members node :=
  rfl

/-- The schemas of two sites are the same up to the order of fields, except that the one may have a
back-reference to its site where the resolution of the other has looked into that site. -/
def UnrollAlike (graph : Graph) (options : Options) (node node' : Site) (schema schema' : Schema) :
    Prop :=
  let title := (Term.answers graph).symbolName (.declared node.handle)
  schema.Unrolls title
    ((Term.answers graph).LooksInto options node title (.declared node.handle)
      (.declared node'.handle))
    ((Term.answers graph).LooksInto options node' title (.declared node'.handle)
      (.declared node.handle)) 0 schema'

section Same

variable {graph later : Graph} {node node' : Site} {target : Handle} {arguments : List Handle}
  {options : Options} (hbase : base.Linked)
  (hdefinition : base.definitions[node.handle]? = some (.reference target arguments))
  (hdefinition' : base.definitions[node'.handle]? = some (.reference target arguments))

include hbase hdefinition hdefinition'

theorem alike_of_same_definition (location location' : Site) :
    (Term.answers base).Alike options location location' (.declared node.handle)
      (.declared node'.handle) := by
  obtain ⟨decl, hdecl⟩ := hbase.target_object hdefinition
  exact Term.alike_of_definition (Term.definition_declared hdefinition)
    (Term.definition_declared hdefinition') hbase hdecl

variable (hgraph : Grown base graph) (hlater : Grown base later)

include hgraph hlater

/-- The resolutions of two ids of one instantiation both come to an end or both do not. -/
theorem exists_resolvesTo_iff_of_same_definition :
    (∃ schema, ResolvesTo graph options node schema) ↔
      ∃ schema, ResolvesTo later options node' schema := by
  obtain ⟨hlt, -⟩ := Array.getElem?_eq_some_iff.mp hdefinition
  obtain ⟨hlt', -⟩ := Array.getElem?_eq_some_iff.mp hdefinition'
  cases hmode : options.generics with
  | target =>
    exact iff_of_true (exists_resolvesTo hbase hgraph hlt (.inl hmode))
      (exists_resolvesTo hbase hlater hlt' (.inl hmode))
  | instantiated =>
    rw [exists_resolvesTo_iff hbase hgraph hlt, exists_resolvesTo_iff hbase hlater hlt']
    have halike : (Term.answers base).Alike options node node (.declared node.handle)
        (.declared node'.handle) := alike_of_same_definition hbase hdefinition hdefinition' node node
    exact halike.exists_isSome_iff hmode (fun _ => Term.intrinsic_eq_none_of_object)
      (members_of_site node node')

variable (hdepth : 1 ≤ options.maxDepth)

include hdepth

/-- Where definitions stand for their instantiations, both ids have the schema of the definition. -/
theorem exists_resolvesTo_of_same_target (hmode : options.generics = .target)
    (harray : (Term.answers base).container? (.declared target) ≠ some .array) :
    ∃ schema, ResolvesTo graph options node schema ∧ ResolvesTo later options node' schema := by
  obtain ⟨hlt, -⟩ := Array.getElem?_eq_some_iff.mp hdefinition
  obtain ⟨hlt', -⟩ := Array.getElem?_eq_some_iff.mp hdefinition'
  have hfirst := Term.redirect_of_definition hbase hmode (Term.definition_declared hdefinition)
  have hsecond := Term.redirect_of_definition hbase hmode (Term.definition_declared hdefinition')
  obtain ⟨schema, bound, hschema⟩ := Term.exists_resolveValue_of_redirect hbase hmode hdepth hlt
    (.declared hlt) hfirst harray ((Term.answers base).siteTitle node (.declared node.handle)) none
  obtain ⟨schema', bound', hschema'⟩ := Term.exists_resolveValue_of_redirect hbase hmode hdepth hlt
    (.declared hlt') hsecond harray ((Term.answers base).siteTitle node' (.declared node'.handle))
    none
  obtain ⟨-, htarget⟩ := hschema (bound + bound') (Nat.le_add_right _ _)
  obtain ⟨-, htarget'⟩ := hschema' (bound + bound') (Nat.le_add_left _ _)
  cases htarget.symm.trans htarget'
  exact ⟨schema, (resolvesTo_iff hbase hgraph hlt).mpr ⟨bound, (hschema bound le_rfl).1⟩,
    (resolvesTo_iff hbase hlater hlt').mpr ⟨bound', (hschema' bound' le_rfl).1⟩⟩

/-- Where neither id is met again, the resolutions go the same ways all along. -/
theorem resolvesTo_iff_of_not_meetsBelow
    (hapart : ∀ handle ∈ [node.handle, node'.handle], ¬ (Term.answers base).MeetsBelow options node
      options.maxDepth (.declared node.handle) (.declared handle)) (schema : Schema) :
    ResolvesTo graph options node schema ↔ ResolvesTo later options node' schema := by
  obtain ⟨hlt, -⟩ := Array.getElem?_eq_some_iff.mp hdefinition
  obtain ⟨hlt', -⟩ := Array.getElem?_eq_some_iff.mp hdefinition'
  have halike : (Term.answers base).Alike options node node' (.declared node.handle)
      (.declared node'.handle) := alike_of_same_definition hbase hdefinition hdefinition' node node'
  have hobject := Term.object_of_definition (Term.definition_declared hdefinition)
  rw [resolvesTo_iff hbase hgraph hlt, resolvesTo_iff hbase hlater hlt']
  refine exists_congr fun fuel => Eq.congr_left ?_
  exact halike.resolveValue_eq (members_of_site node node') hobject (hapart _ (by simp))
    (hapart _ (by simp)) hdepth

variable (hfree : ∀ term, (Term.answers base).Meets options node options.maxDepth
  (.declared node.handle) term → ¬ term.BindsBase base options)

include hfree

/-- Ids of an array, and ids of a record where it is made of its own members, have schemas that
unroll to the same. -/
theorem unrollAlike_of_plain
    (hplain : (Term.answers base).container? (.declared node.handle) = some .array ∨
      (Term.answers base).container? (.declared node.handle) = none ∧
        (Term.answers base).redirect? options (.declared node.handle) = none)
    {schema schema' : Schema} (h : ResolvesTo graph options node schema)
    (h' : ResolvesTo later options node' schema') :
    UnrollAlike base options node node' schema schema' := by
  obtain ⟨hlt, -⟩ := Array.getElem?_eq_some_iff.mp hdefinition
  obtain ⟨hlt', -⟩ := Array.getElem?_eq_some_iff.mp hdefinition'
  obtain ⟨decl, hdecl⟩ := hbase.target_object hdefinition
  have hfirst := Term.definition_declared hdefinition
  have hsecond := Term.definition_declared hdefinition'
  have halike : (Term.answers base).Alike options node node' (.declared node.handle)
      (.declared node'.handle) := alike_of_same_definition hbase hdefinition hdefinition' node node'
  have hobject := Term.object_of_definition hfirst
  have hheads : (Term.answers base).Heads options
      ((Term.answers base).symbolName (.declared node.handle)) (.declared node.handle) :=
    ⟨Term.intrinsic_eq_none_of_object hobject, hobject, rfl, hplain⟩
  have happart := Term.setApart hbase hlt (.declared hlt) hfirst hsecond hheads
    (hheads.of_alike halike)
  have hfree' : ∀ term, (Term.answers base).Meets options node' options.maxDepth
      (.declared node'.handle) term → ¬ term.BindsBase base options := by
    intro term hmeets hbinds
    rcases halike.meets (members_of_site node node') hmeets with rfl | hmeets
    · have hself : (Term.answers base).InProgress options node (.declared node.handle) 0
          [.declared node.handle] := .start hdepth
      exact hfree _ (hself.meets_of_calls .refl) (hbinds.congr hbase hfirst hsecond hdecl)
    · exact hfree term hmeets hbinds
  obtain ⟨bound, hbound⟩ := h
  obtain ⟨bound', hbound'⟩ := h'
  have hvalue := (outcome_eq_ok_iff hbase hgraph hlt).mp (hbound _ (Nat.le_add_right bound bound'))
  have hvalue' :=
    (outcome_eq_ok_iff hbase hlater hlt').mp (hbound' _ (Nat.le_add_left bound' bound))
  exact Answers.Alike.unrolls (members_of_site node node')
    (Term.rewrites hbase hlt (.declared hlt) hfree)
    (Term.rewrites hbase hlt' (.declared hlt') hfree') happart halike hdepth hvalue hvalue'

/-- Two ids of one instantiation have schemas that unroll to the same. -/
theorem unrollAlike_of_same_definition {schema schema' : Schema}
    (h : ResolvesTo graph options node schema) (h' : ResolvesTo later options node' schema') :
    UnrollAlike base options node node' schema schema' := by
  obtain ⟨hlt, -⟩ := Array.getElem?_eq_some_iff.mp hdefinition
  have hplain := unrollAlike_of_plain hbase hdefinition hdefinition' hgraph hlater hdepth hfree
  have hsame : ResolvesTo later options node' schema →
      UnrollAlike base options node node' schema schema' :=
    fun himp => himp.unique h' ▸ .refl 0 schema
  cases hgenerics : options.generics with
  | target =>
    have hredirect := Term.redirect_of_definition hbase hgenerics
      (Term.definition_declared hdefinition)
    by_cases harray : (Term.answers base).container? (.declared target) = some .array
    · have hcontainer := Term.container?_of_redirect hbase (.declared hlt) hredirect
      exact hplain (.inl (hcontainer.symm.trans harray)) h h'
    · obtain ⟨found, hfound, hfound'⟩ := exists_resolvesTo_of_same_target hbase hdefinition
        hdefinition' hgraph hlater hdepth hgenerics harray
      exact hsame (h.unique hfound ▸ hfound')
  | instantiated =>
    have hredirect : (Term.answers base).redirect? options (.declared node.handle) = none := by
      simp [Answers.redirect?, hgenerics]
    cases hcontainer : (Term.answers base).container? (.declared node.handle) with
    | none => exact hplain (.inr ⟨hcontainer, hredirect⟩) h h'
    | some container =>
      by_cases harray : container = .array
      · exact hplain (.inl (harray ▸ hcontainer)) h h'
      · have hapart : ∀ handle ∈ [node.handle, node'.handle], ¬ (Term.answers base).MeetsBelow
            options node options.maxDepth (.declared node.handle) (.declared handle) :=
          fun _ _ => Answers.not_meetsBelow_of_container hcontainer harray
        exact hsame ((resolvesTo_iff_of_not_meetsBelow hbase hdefinition hdefinition' hgraph hlater
          hdepth hapart schema).mp h)

end Same

/-- A document with pairs of ids for one instantiation: an array of records that hold such an array,
a generic record that holds itself and one that does not, and a record that has its argument for a
base type and holds a record that inherits from it. -/
def aliases : Document where
  types := [
    ("T", .opaqueType none),
    ("string", .intrinsic .string),
    ("Array", .object {
      symbol := some "Array"
      interface := false
      bases := []
      parameters := ["T"]
      properties := []
      members := Signature.array.members }),
    ("Node", .object {
      symbol := some "Node"
      interface := true
      bases := []
      parameters := []
      properties := [("children", "Node[]")]
      members := [] }),
    ("Node[]", .reference "Array" ["Node"]),
    ("Nodes", .reference "Array" ["Node"]),
    ("Chain", .object {
      symbol := some "Chain"
      interface := true
      bases := []
      parameters := ["T"]
      properties := [("next", "Chain<T>")]
      members := [] }),
    ("Chain<T>", .reference "Chain" ["T"]),
    ("Chain<string>", .reference "Chain" ["string"]),
    ("Text", .reference "Chain" ["string"]),
    ("Box", .object {
      symbol := some "Box"
      interface := true
      bases := []
      parameters := ["T"]
      properties := [("value", "T")]
      members := [] }),
    ("Box<string>", .reference "Box" ["string"]),
    ("Label", .reference "Box" ["string"]),
    ("Word", .object {
      symbol := some "Word"
      interface := true
      bases := []
      parameters := []
      properties := [("text", "string")]
      members := [] }),
    ("Tagged", .object {
      symbol := some "Tagged"
      interface := true
      bases := ["T"]
      parameters := ["T"]
      properties := [("tag", "Tag")]
      members := [] }),
    ("Tag", .object {
      symbol := some "Tag"
      interface := true
      bases := ["Tagged<Word>"]
      parameters := []
      properties := []
      members := [] }),
    ("Tagged<Word>", .reference "Tagged" ["Word"]),
    ("Caption", .reference "Tagged" ["Word"])]

/-- The graph of `aliases`. -/
def aliasesGraph : Graph where
  ids := ["T", "string", "Array", "Node", "Node[]", "Nodes", "Chain", "Chain<T>", "Chain<string>",
    "Text", "Box", "Box<string>", "Label", "Word", "Tagged", "Tag", "Tagged<Word>", "Caption"]
  definitions := #[
    .opaqueType none,
    .intrinsic .string,
    .object {
      symbol := some "Array"
      interface := false
      bases := []
      parameters := [0]
      properties := []
      members := Signature.array.members },
    .object {
      symbol := some "Node"
      interface := true
      bases := []
      parameters := []
      properties := [("children", 4)]
      members := [] },
    .reference 2 [3],
    .reference 2 [3],
    .object {
      symbol := some "Chain"
      interface := true
      bases := []
      parameters := [0]
      properties := [("next", 7)]
      members := [] },
    .reference 6 [0],
    .reference 6 [1],
    .reference 6 [1],
    .object {
      symbol := some "Box"
      interface := true
      bases := []
      parameters := [0]
      properties := [("value", 0)]
      members := [] },
    .reference 10 [1],
    .reference 10 [1],
    .object {
      symbol := some "Word"
      interface := true
      bases := []
      parameters := []
      properties := [("text", 1)]
      members := [] },
    .object {
      symbol := some "Tagged"
      interface := true
      bases := [0]
      parameters := [0]
      properties := [("tag", 15)]
      members := [] },
    .object {
      symbol := some "Tag"
      interface := true
      bases := [16]
      parameters := []
      properties := []
      members := [] },
    .reference 14 [13],
    .reference 14 [13]]
  instances := [((2, [3]), 4), ((2, [3]), 5), ((6, [0]), 7), ((6, [1]), 8), ((6, [1]), 9),
    ((10, [1]), 11), ((10, [1]), 12), ((14, [13]), 16), ((14, [13]), 17)]
  unknown := none

theorem accepted_aliases : ofDocument aliases = .ok aliasesGraph := rfl

/-- Below `Box<string>` there is `string` and nothing else. -/
theorem eq_of_meetsBelow_aliases {node : Site} {limit : Nat} {other : Term}
    (h : (Term.answers aliasesGraph).MeetsBelow ⟨.instantiated, 64⟩ node limit (.declared 11)
      other) : other = .declared 1 := by
  have hclosed : Answers.Closed (Term.answers aliasesGraph) ⟨.instantiated, 64⟩ node
      {.declared 1} := by
    refine ⟨?_, ?_, ?_, ?_⟩
    · rintro _ item rfl hcontainer -
      cases hcontainer
    · rintro _ target rfl htarget
      cases htarget
    · rintro _ parent rfl hrecord -
      cases hrecord.object
    · rintro _ member rfl hrecord -
      cases hrecord.object
  refine Answers.MeetsBelow.mem_of_closed hclosed (fun levels next hnext => ?_) h
  cases hnext with
  | item hcontainer => cases hcontainer
  | target _ htarget => cases htarget
  | base _ hbase => cases hbase
  | member _ hmember => exact List.mem_singleton.mp hmember

/-- From `Chain<string>` nothing else is met where it is resolved by its own members. -/
theorem eq_of_meets_aliases {node : Site} {limit : Nat} {other : Term}
    (h : (Term.answers aliasesGraph).Meets ⟨.instantiated, 64⟩ node limit (.declared 8) other) :
    other = .declared 8 := by
  have hclosed : Answers.Closed (Term.answers aliasesGraph) ⟨.instantiated, 64⟩ node
      {.declared 8} := by
    refine ⟨?_, ?_, ?_, ?_⟩
    · rintro _ item rfl hcontainer -
      cases hcontainer
    · rintro _ target rfl htarget
      cases htarget
    · rintro _ parent rfl - hparent
      cases hparent
    · rintro _ member rfl - hmember
      exact List.mem_singleton.mp hmember
  exact hclosed.mem_of_meets rfl h

end GraphSchema.Graph
