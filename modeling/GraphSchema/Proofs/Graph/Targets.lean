import Mathlib
import GraphSchema.Proofs.Graph.BackReferences
import GraphSchema.Proofs.Graph.History
import GraphSchema.Proofs.Resolution.Closure
import GraphSchema.Proofs.Resolution.Comparison

/-!
# Definitions in place of their instantiations

In mode `target` the definition of a generic type stands for each of its instantiations, whatever
the arguments are.  So every record is made for a type of the document, and the other types that a
resolution comes to are members of those, and arguments of members.  These are finitely many
(`Term.finite_needed`), so every resolution in this mode comes to an end
(`Term.exists_resolveValue`).

An instantiation and its definition have the same schema, unless they are arrays, whose items are
the argument (`exists_schema_of_instantiation`).  While the instantiation is resolved it is in
progress together with its definition; where it is met again it is answered with the
back-reference that looking at it would have ended in.
-/

namespace GraphSchema.Graph

variable {base : Graph}

namespace Term

variable {options : Options} {location : Site} {term target root : Term}

/-! ## Arguments of arguments -/

/-- One term is an argument of another. -/
def Argument (term argument : Term) : Prop :=
  ∃ target arguments, term = applied target arguments ∧ argument ∈ arguments

/-- A term is another one, or an argument of it, or an argument of that and so on. -/
abbrev Within (term inner : Term) : Prop := Relation.ReflTransGen Argument term inner

theorem Argument.sizeOf_lt {argument : Term} (h : Argument term argument) :
    sizeOf argument < sizeOf term := by
  obtain ⟨target, arguments, rfl, hmem⟩ := h
  have hlt := List.sizeOf_lt_of_mem hmem
  simp only [applied.sizeOf_spec]
  omega

theorem finite_arguments (term : Term) : {argument | Argument term argument}.Finite := by
  cases term with
  | applied target arguments =>
    refine (List.finite_toSet arguments).subset ?_
    rintro argument ⟨_, _, h, hmem⟩
    cases h
    exact hmem
  | _ =>
    refine Set.finite_empty.subset ?_
    rintro argument ⟨_, _, h, -⟩
    cases h

theorem finite_within (term : Term) : {inner | Within term inner}.Finite := by
  have hcover : {inner | Within term inner} ⊆
      {term} ∪ ⋃ argument ∈ {argument | Argument term argument},
        {inner | Within argument inner} := by
    intro inner h
    rcases h.cases_head with rfl | ⟨argument, hargument, h⟩
    · exact .inl rfl
    · exact .inr (Set.mem_biUnion (x := argument) hargument h)
  refine Set.Finite.subset ((Set.finite_singleton term).union ?_) hcover
  exact (finite_arguments term).biUnion fun argument hargument => finite_within argument
termination_by sizeOf term
decreasing_by exact Argument.sizeOf_lt hargument

/-- A declared type has declared arguments. -/
theorem exists_map_of_arguments {handle : Handle} {list : List Term}
    (h : (declared handle).arguments base = some list) :
    ∃ handles : List Handle, list = handles.map declared := by
  rw [arguments, definition] at h
  cases hdefinition : base.definitions[handle]? with
  | none =>
    rw [hdefinition] at h
    cases h
  | some found =>
    rw [hdefinition] at h
    cases found with
    | intrinsic kind => cases h
    | opaqueType symbol => cases h
    | tuple elements =>
      cases h
      exact ⟨elements, rfl⟩
    | reference target arguments =>
      cases h
      exact ⟨arguments, rfl⟩
    | object decl =>
      change (if (decl.parameters.map declared).isEmpty then none
        else some (decl.parameters.map declared)) = some list at h
      split at h
      · cases h
      · cases h
        exact ⟨decl.parameters, rfl⟩

/-- What the arguments of a type are in the answers. -/
theorem exists_declared_or_argument {list : List Term}
    (h : (answers base) (.arguments term) = some list) {argument : Term} (hmem : argument ∈ list) :
    (∃ handle, argument = declared handle) ∨ Argument term argument := by
  change term.arguments base = some list at h
  cases term with
  | declared handle =>
    obtain ⟨handles, rfl⟩ := exists_map_of_arguments h
    obtain ⟨other, -, rfl⟩ := List.mem_map.mp hmem
    exact .inl ⟨other, rfl⟩
  | applied target arguments =>
    cases h
    exact .inr ⟨target, list, rfl, hmem⟩
  | unknown => cases h

/-! ## Types that are needed -/

theorem Known.lt {handle : Handle} (h : Known base (.declared handle)) :
    handle < base.definitions.size := by
  obtain ⟨graph, place, hgrown, hdenotes⟩ := h
  rcases hgrown.denotes_cases hdenotes with ⟨hlt, heq⟩ | ⟨-, hadded⟩
  · cases heq
    exact hlt
  · cases hadded

/-- A type that makes a record of its own is an object of the document. -/
theorem exists_declared_of_ownRecord (hbase : base.Linked) (hmode : options.generics = .target)
    (hknown : Known base term) (h : Answers.OwnRecord (answers base) options [] term) :
    (∃ handle, term = declared handle) ∧ term.bindings base = [] := by
  have hredirect := redirect_of_ownRecord hbase hknown h
  refine ⟨?_, bindings_of_redirect hbase hmode hredirect⟩
  cases term with
  | declared handle => exact ⟨handle, rfl⟩
  | applied target arguments =>
    rw [redirect_of_definition hbase hmode rfl] at hredirect
    cases hredirect
  | unknown => cases h.object

/-- To substitute nothing is to change nothing. -/
theorem substitute_nil (handle : Handle) :
    substitute base [] (declared handle) = declared handle := by
  rw [substitute, substituteDeclared]
  dsimp only [List.lookup_nil]
  split
  · rw [if_pos (.inl rfl)]
  · rfl

/-- The types that resolutions of a type come to in mode `target`. -/
def Needed (base : Graph) (location : Site) (root : Term) : Set Term :=
  {term | Known base term ∧ ((∃ handle, term = declared handle) ∨ Within root term ∨
    ∃ handle < base.definitions.size,
      ∃ member ∈ ((answers base).members location (declared handle)).map Prod.snd,
        Within member term)}

theorem finite_needed (location : Site) (root : Term) : (Needed base location root).Finite := by
  have hdeclared : (declared '' {handle | handle < base.definitions.size}).Finite :=
    (Set.finite_lt_nat _).image _
  have hmembers : (⋃ handle ∈ {handle | handle < base.definitions.size},
      ⋃ member ∈ {member | member ∈ ((answers base).members location (declared handle)).map
        Prod.snd}, {term | Within member term}).Finite :=
    (Set.finite_lt_nat _).biUnion fun handle _ =>
      (List.finite_toSet _).biUnion fun member _ => finite_within member
  refine (hdeclared.union ((finite_within root).union hmembers)).subset ?_
  rintro term ⟨hknown, ⟨handle, rfl⟩ | hroot | ⟨handle, hlt, member, hmember, hwithin⟩⟩
  · exact .inl ⟨handle, hknown.lt, rfl⟩
  · exact .inr (.inl hroot)
  · exact .inr (.inr (Set.mem_biUnion hlt (Set.mem_biUnion hmember hwithin)))

theorem closed_needed (hbase : base.Linked) (hmode : options.generics = .target)
    (hlocation : location.handle < base.definitions.size) :
    Answers.Closed (answers base) options location (Needed base location root) where
  item := by
    rintro term item ⟨hknown, hneeded⟩ - hitem
    refine ⟨hknown.of_item hbase hitem, ?_⟩
    have harguments := Answers.arguments_of_item hitem
    rcases exists_declared_or_argument harguments (List.mem_singleton_self _) with
      hdeclared | hargument
    · exact .inl hdeclared
    rcases hneeded with ⟨handle, rfl⟩ | hroot | ⟨handle, hlt, member, hmember, hwithin⟩
    · obtain ⟨_, _, heq, -⟩ := hargument
      cases heq
    · exact .inr (.inl (hroot.tail hargument))
    · exact .inr (.inr ⟨handle, hlt, member, hmember, hwithin.tail hargument⟩)
  target := by
    rintro term target ⟨hknown, -⟩ htarget
    obtain ⟨handle, decl, -, rfl, hdecl, -, -⟩ := exists_of_redirect hbase hknown htarget
    exact ⟨.declared (Array.getElem?_eq_some_iff.mp hdecl).1, .inl ⟨handle, rfl⟩⟩
  base := by
    rintro term parent ⟨hknown, -⟩ hown hparent
    refine ⟨hknown.of_baseTypes hbase hparent, .inl ?_⟩
    obtain ⟨general, hgeneral, rfl⟩ := exists_of_mem_baseTypes hparent
    obtain ⟨-, -, handle, -, -, -, rfl, -⟩ := exists_of_mem_basesOf hgeneral
    rw [(exists_declared_of_ownRecord hbase hmode hknown hown).2]
    exact ⟨handle, substitute_nil handle⟩
  -- Only objects of the document make records of their own, so their members are all there are.
  member := by
    rintro term member ⟨hknown, -⟩ hown hmember
    obtain ⟨handle, rfl⟩ := (exists_declared_of_ownRecord hbase hmode hknown hown).1
    exact ⟨hknown.of_members hbase hlocation hmember,
      .inr (.inr ⟨handle, hknown.lt, member, hmember, .refl⟩)⟩

/-- In mode `target` every resolution comes to an end, and a bound on the nesting of calls that
exceeds the number of the types needed is enough, whatever the nesting limit is. -/
theorem exists_resolveValue_of_card_lt (hbase : base.Linked) (hmode : options.generics = .target)
    (hlocation : location.handle < base.definitions.size) (hknown : Known base term)
    (hfinite : (Needed base location term).Finite) (title : Option String) :
    ∃ schema, ∀ fuel, hfinite.toFinset.card < fuel →
      (answers base).resolveValue Registry.shipped options location fuel 0 [] term title =
        some schema := by
  have hclosed : Answers.Closed (answers base) options location (hfinite.toFinset : Set Term) := by
    rw [hfinite.coe_toFinset]
    exact closed_needed hbase hmode hlocation
  have hterm : term ∈ hfinite.toFinset :=
    hfinite.mem_toFinset.mpr ⟨hknown, .inr (.inl .refl)⟩
  have hroom : Answers.room hfinite.toFinset [] < hfinite.toFinset.card + 1 :=
    Nat.lt_succ_of_le (Finset.card_filter_le _ _)
  have hends : ((answers base).resolveValue Registry.shipped options location
      (hfinite.toFinset.card + 1) 0 [] term title).isSome :=
    Answers.isSome_resolveValue_of_closed hclosed hterm hroom
  obtain ⟨schema, hschema⟩ := Option.isSome_iff_exists.mp hends
  exact ⟨schema, fun fuel hfuel => Answers.resolveValue_mono rfl hfuel (.refl _ _) hschema⟩

theorem exists_resolveValue (hbase : base.Linked) (hmode : options.generics = .target)
    (hlocation : location.handle < base.definitions.size) (hknown : Known base term)
    (title : Option String) :
    ∃ schema bound, ∀ fuel, bound ≤ fuel →
      (answers base).resolveValue Registry.shipped options location fuel 0 [] term title =
        some schema := by
  obtain ⟨schema, hschema⟩ := exists_resolveValue_of_card_lt hbase hmode hlocation hknown
    (finite_needed location term) title
  exact ⟨schema, _, hschema⟩

/-! ## Instantiations and their definitions -/

theorem replacedBy_of_redirect (hbase : base.Linked) (hknown : Known base term)
    (h : (answers base).redirect? options term = some target)
    (hcontainer : (answers base).container? target = none) :
    (answers base).ReplacedBy options term target := by
  obtain ⟨handle, decl, arguments, -, -, hdefinition, -⟩ := exists_of_redirect hbase hknown h
  have hflags : (answers base) (.flags term) = term.flags base := rfl
  have hobject : ((answers base) (.flags term)).object := by
    rw [hflags, flags, hdefinition]
  exact {
    object := hobject
    intrinsic := intrinsic_eq_none_of_object hobject
    container := (container?_of_redirect hbase hknown h).symm.trans hcontainer
    tuple := by rw [hflags, flags, hdefinition]
    redirect := h
    symbolName := (symbolName_of_redirect hbase hknown h).symm }

/-- A container other than an array has one schema, whatever its arguments are. -/
theorem resolveValue_of_container {container : Container} (hne : container ≠ .array)
    (h : (answers base).container? term = some container) {fuel : Nat} (hfuel : fuel ≠ 0)
    (hdepth : 1 ≤ options.maxDepth) (title : Option String) :
    (answers base).resolveValue Registry.shipped options location fuel 0 [] term title =
      (answers base).containerSchema (fun _ => none) term container := by
  obtain ⟨steps, rfl⟩ := Nat.exists_eq_succ_of_ne_zero hfuel
  have hintrinsic := intrinsic_eq_none_of_object (Answers.object_of_container _ h)
  rw [Answers.resolveValue, if_neg (by omega), if_neg List.not_mem_nil,
    Answers.dispatchValue_shipped, hintrinsic, h, Option.map_none, Option.elim_none,
    Option.elim_some]
  cases container with
  | array => exact absurd rfl hne
  | date => rfl
  | promise => rfl

/-- An instantiation and its definition come to the same schema, unless they are arrays. -/
theorem exists_resolveValue_of_redirect (hbase : base.Linked) (hmode : options.generics = .target)
    (hdepth : 1 ≤ options.maxDepth) {location' : Site}
    (hlocation' : location'.handle < base.definitions.size) (hknown : Known base term)
    (h : (answers base).redirect? options term = some target)
    (harray : (answers base).container? target ≠ some .array) (title title' : Option String) :
    ∃ schema bound, ∀ fuel, bound ≤ fuel →
      (answers base).resolveValue Registry.shipped options location fuel 0 [] term title =
          some schema ∧
      (answers base).resolveValue Registry.shipped options location' fuel 0 [] target title' =
          some schema := by
  cases hcontainer : (answers base).container? target with
  | some container =>
    have hne : container ≠ .array := fun heq => harray (heq ▸ hcontainer)
    have hsame := (container?_of_redirect hbase hknown h).symm.trans hcontainer
    have hschema : ∃ schema, ∀ term,
        (answers base).containerSchema (fun _ => none) term container = some schema := by
      cases container with
      | array => exact absurd rfl hne
      | date => exact ⟨_, fun _ => rfl⟩
      | promise => exact ⟨_, fun _ => rfl⟩
    obtain ⟨schema, hschema⟩ := hschema
    refine ⟨schema, 1, fun fuel hfuel => ⟨?_, ?_⟩⟩
    · rw [resolveValue_of_container hne hsame (by omega) hdepth, hschema]
    · rw [resolveValue_of_container hne hcontainer (by omega) hdepth, hschema]
  | none =>
    obtain ⟨handle, decl, -, rfl, hdecl, -, -⟩ := exists_of_redirect hbase hknown h
    have hobject := object_of_redirect hbase hknown h
    have hreplaced := replacedBy_of_redirect hbase hknown h hcontainer
    obtain ⟨schema, bound, hschema⟩ := exists_resolveValue hbase hmode hlocation'
      (.declared (Array.getElem?_eq_some_iff.mp hdecl).1) title'
    refine ⟨schema, bound + 1, fun fuel hfuel => ⟨?_, hschema fuel (by omega)⟩⟩
    obtain ⟨fuel, rfl⟩ : ∃ rest, fuel = rest + 1 := ⟨fuel - 1, by omega⟩
    have hmembers : (answers base).members location = (answers base).members location' := rfl
    exact hreplaced.resolveValue_eq hmembers hobject (intrinsic_eq_none_of_object hobject)
      hcontainer hdepth List.not_mem_nil List.not_mem_nil (hschema fuel (by omega))

end Term

/-- The object behind a handle has the symbol name and the members that a signature asks for. -/
def fits (graph : Graph) (signature : Signature) (handle : Handle) : Bool :=
  match graph.definitions[handle]? with
  | some (.object decl) =>
    decl.symbol.any fun name =>
      signature.accepts name (Fields.keys decl.properties ++ decl.members)
  | _ => false

theorem fits_of_container_array {handle : Handle} {decl : ObjectDecl Handle}
    (hdecl : base.definitions[handle]? = some (.object decl))
    (h : (Term.answers base).container? (.declared handle) = some .array) :
    base.fits .array handle := by
  obtain ⟨symbol, members, hsymbol, hmembers, haccepts⟩ := Answers.exists_accepts_of_array h
  have hdefinition := Term.definition_declared hdecl
  change Term.symbol base (.declared handle) = some symbol at hsymbol
  rw [Term.symbol, hdefinition] at hsymbol
  obtain ⟨name, hname, rfl⟩ := Option.map_eq_some_iff.mp hsymbol
  change Term.memberNames base (.type (.declared handle)) = some members at hmembers
  rw [Term.memberNames, hdefinition] at hmembers
  cases hmembers
  change Signature.array.accepts (Term.symbolName base (.type (.declared handle))) _ at haccepts
  rw [Term.symbolName, hdefinition, hname, Option.getD_some, Fields.keys_mapValues] at haccepts
  change decl.symbol = some name at hname
  rw [fits, hdecl]
  dsimp only
  rw [hname]
  exact haccepts

/-- With definitions in place of their instantiations, an instantiation and its definition have the
same schema, unless they are arrays: each in a graph of any history, and as seen from any site. -/
theorem exists_schema_of_instantiation {document : Document} {fresh graph later : Graph}
    (haccepted : ofDocument document = .ok fresh) (hgraph : Reachable fresh graph)
    (hlater : Reachable fresh later) {instantiation target : Handle} {arguments : List Handle}
    (hinstantiation : graph.definitions[instantiation]? = some (.reference target arguments))
    (harray : graph.fits .array target = false) {options : Options}
    (hmode : options.generics = .target) (hdepth : 1 ≤ options.maxDepth) {text text' : String}
    {location location' : Site} (hlocation : fresh.site text = .ok location)
    (hlocation' : fresh.site text' = .ok location') (title title' : Option String) :
    ∃ schema bound, ∀ fuel, bound ≤ fuel →
      ((Resolver.shipped checker options).resolveType fuel location instantiation title).run'
          (.fresh graph) = .ok schema ∧
      ((Resolver.shipped checker options).resolveType fuel location' target title').run'
          (.fresh later) = .ok schema := by
  have hbase := linked_of_ofDocument haccepted
  have hgrown := hgraph.grown hbase
  have hgrown' := hlater.grown hbase
  have hlt := site_handle_lt hbase hlocation
  have hlt' := site_handle_lt hbase hlocation'
  obtain ⟨term, others, hterm, hdefinition⟩ :=
    hgrown.exists_denotes_of_reference hbase hinstantiation
  have hknown : Term.Known fresh term := ⟨graph, instantiation, hgrown, hterm⟩
  have hredirect := Term.redirect_of_definition hbase hmode hdefinition
  obtain ⟨_, decl, -, heq, hdecl, -, -⟩ := Term.exists_of_redirect hbase hknown hredirect
  cases heq
  have hnoarray : (Term.answers fresh).container? (.declared target) ≠ some .array := by
    intro hcontainer
    have hfits := fits_of_container_array hdecl hcontainer
    rw [fits, hgrown.definition_eq hdecl] at harray
    rw [fits, hdecl] at hfits
    exact Bool.false_ne_true (harray.symm.trans hfits)
  obtain ⟨schema, bound, hschema⟩ := Term.exists_resolveValue_of_redirect hbase hmode hdepth hlt'
    hknown hredirect hnoarray title title'
  refine ⟨schema, bound, fun fuel hfuel => ?_⟩
  obtain ⟨hvalue, hvalue'⟩ := hschema fuel hfuel
  have hdenotes' := hgrown'.denotes_declared (Array.getElem?_eq_some_iff.mp hdecl).1
  constructor
  · rw [run'_resolveType_eq_ofValue hbase hgrown hlt hterm, hvalue]
    rfl
  · rw [run'_resolveType_eq_ofValue hbase hgrown' hlt' hdenotes', hvalue']
    rfl

/-- The type that `Box<string>` has for its member is added by a query; its definition is `Box`. -/
theorem exists_schema_of_boxes :
    ofDocument boxes = .ok boxesGraph ∧
      Reachable boxesGraph (boxesGraph.addApplication 1 [5]) ∧
      (boxesGraph.addApplication 1 [5]).definitions[6]? = some (.reference 1 [5]) ∧
      (boxesGraph.addApplication 1 [5]).fits .array 1 = false ∧
      ∃ schema bound, ∀ fuel, bound ≤ fuel →
        ((Resolver.shipped checker {}).resolveType fuel ⟨"Box<string>", 5⟩ 6 none).run'
            (.fresh (boxesGraph.addApplication 1 [5])) = .ok schema ∧
        ((Resolver.shipped checker {}).resolveType fuel ⟨"Box", 1⟩ 1 (some "Box")).run'
            (.fresh boxesGraph) = .ok schema := by
  have haccepted : ofDocument boxes = .ok boxesGraph := rfl
  have hreply : checker.reply (.memberType (.property 1 "wrapped" (some 5)) ⟨"", 0⟩) boxesGraph =
      .ok { answer := 6, world := boxesGraph.addApplication 1 [5] } := rfl
  have hreachable := Reachable.asked _ .start hreply
  have hnode : boxesGraph.site "Box<string>" = .ok ⟨"Box<string>", 5⟩ := rfl
  have hnode' : boxesGraph.site "Box" = .ok ⟨"Box", 1⟩ := rfl
  have hadded : (boxesGraph.addApplication 1 [5]).definitions[6]? = some (.reference 1 [5]) := rfl
  have hfits : (boxesGraph.addApplication 1 [5]).fits .array 1 = false := by decide
  exact ⟨haccepted, hreachable, hadded, hfits, exists_schema_of_instantiation haccepted hreachable
    .start hadded hfits rfl (by decide) hnode hnode' none (some "Box")⟩

end GraphSchema.Graph
