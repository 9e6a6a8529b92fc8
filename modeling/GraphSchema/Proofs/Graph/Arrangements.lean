import Mathlib
import GraphSchema.Proofs.Graph.Aliases
import GraphSchema.Proofs.Resolution.Arrangements

/-!
# The order of recognizers does not show on a graph

On a type graph no record is a primitive leaf, and the rule for records looks at containers first.
So a declared type has the same schema by the shipped recognizers in every order, and the one for
containers can be left out (`resolvesBy_iff_of_arranged`).  Where a resolution by one such registry
comes to no end, none does.  In particular a type with the signature of arrays is an array at every
place of a resolution that it is entered at, even where records are tried first.
-/

namespace GraphSchema.Graph

variable {base graph later : Graph} {options : Options} {node : Site} {rules rules' : List Rule}
  {schema : Schema}

/-- A site has a schema by some rules, which every large enough bound on the nesting of calls
comes to. -/
def ResolvesBy (graph : Graph) (rules : List Rule) (options : Options) (node : Site)
    (schema : Schema) : Prop :=
  ∃ bound, ∀ fuel, bound ≤ fuel →
    Resolver.outcome ⟨checker, .ofRules rules, options⟩ fuel node graph = .ok schema

theorem resolvesBy_shipped :
    ResolvesBy graph Rule.shipped options node schema ↔ ResolvesTo graph options node schema :=
  Iff.rfl

theorem outcome_ofRules_eq_ok_iff (hbase : base.Linked) (hgrown : Grown base graph)
    (hnode : node.handle < base.definitions.size) (hrules : rules ⊆ Rule.shipped) {fuel : Nat} :
    Resolver.outcome ⟨checker, .ofRules rules, options⟩ fuel node graph = .ok schema ↔
      (Term.answers base).siteValue (.ofRules rules) options fuel node = some schema := by
  rw [(Term.models hbase).outcome_eq (Models.askAlike_ofRules hrules) ⟨rfl, hnode⟩ hgrown fuel]
  cases (Term.answers base).siteValue (.ofRules rules) options fuel node <;>
    simp [Outcome.ofValue]

/-- One bound is enough, and one more is for any other arrangement. -/
theorem resolvesBy_of_siteValue (hbase : base.Linked) (hgrown : Grown base graph)
    (hnode : node.handle < base.definitions.size) (hrules : Rule.Arranged rules)
    (hrules' : Rule.Arranged rules') {fuel : Nat}
    (h : (Term.answers base).siteValue (.ofRules rules) options fuel node = some schema) :
    ResolvesBy graph rules' options node schema := by
  refine ⟨fuel + 1, fun fuel' hfuel => ?_⟩
  rw [outcome_ofRules_eq_ok_iff hbase hgrown hnode hrules'.shipped]
  exact Answers.resolveValue_of_arranged (fun _ => Term.intrinsic_eq_none_of_object) rfl hrules
    hrules' hfuel (.refl _ _) h

theorem ResolvesBy.of_arranged (hbase : base.Linked) (hgrown : Grown base graph)
    (hlater : Grown base later) (hnode : node.handle < base.definitions.size)
    (hrules : Rule.Arranged rules) (hrules' : Rule.Arranged rules')
    (h : ResolvesBy graph rules options node schema) :
    ResolvesBy later rules' options node schema := by
  obtain ⟨bound, hbound⟩ := h
  have hvalue := (outcome_ofRules_eq_ok_iff hbase hgrown hnode hrules.shipped).mp
    (hbound bound le_rfl)
  exact resolvesBy_of_siteValue hbase hlater hnode hrules hrules' hvalue

/-! ## Arrays -/

namespace Term

variable {term : Term} {target : Handle} {decl : ObjectDecl Handle} {arguments : List Term}

theorem container?_of_definition (h : term.definition base = .reference (declared target) arguments)
    (hdecl : base.definitions[target]? = some (.object decl)) :
    (answers base).container? term = (answers base).container? (declared target) := by
  have htarget := definition_declared hdecl
  have hobject : ((answers base) (.flags term)).object := object_of_definition h
  have hobject' : ((answers base) (.flags (declared target))).object := by
    show ((declared target).flags base).object
    rw [flags, htarget]
    rfl
  have hsymbol : (answers base) (.symbol term) = (answers base) (.symbol (declared target)) := by
    show term.symbol base = (declared target).symbol base
    rw [symbol, symbol, h]
    dsimp only
    rw [htarget]
    rfl
  rw [Answers.container?, Answers.container?, if_pos hobject, if_pos hobject', hsymbol]

/-- A type is the container that the object behind it is. -/
theorem container?_of_declaration (h : term.declaration? base = some target)
    (hdecl : base.definitions[target]? = some (.object decl)) :
    (answers base).container? term = (answers base).container? (declared target) := by
  rcases eq_or_reference_of_declaration h with rfl | ⟨arguments, hreference⟩
  · rfl
  · exact container?_of_definition hreference hdecl

/-- An object that fits the signature of arrays is an array. -/
theorem container?_of_fits (h : base.fits .array target) :
    ∃ decl, base.definitions[target]? = some (.object decl) ∧
      (answers base).container? (declared target) = some .array := by
  unfold fits at h
  split at h
  · rename_i decl hdecl
    refine ⟨decl, hdecl, ?_⟩
    have hdefinition := definition_declared hdecl
    cases hname : decl.symbol with
    | none => rw [hname] at h; cases h
    | some name =>
      rw [hname, Option.any_some] at h
      have hobject : ((answers base) (.flags (declared target))).object := by
        show ((declared target).flags base).object
        rw [flags, hdefinition]
        rfl
      have hsymbol :
          (answers base) (.symbol (declared target)) = some (.type (declared target)) := by
        show (declared target).symbol base = _
        rw [symbol, hdefinition]
        show decl.symbol.map _ = _
        rw [hname]
        rfl
      have hmembers : (answers base) (.memberNames (.type (declared target))) =
          some (Fields.keys decl.properties ++ decl.members) := by
        show memberNames base (.type (declared target)) = _
        rw [memberNames, hdefinition]
        show some (Fields.keys (Fields.mapValues _ _) ++ _) = _
        rw [Fields.keys_mapValues]
      have hsymbolName : (answers base) (.symbolName (.type (declared target))) = name := by
        show symbolName base (.type (declared target)) = name
        rw [symbolName, hdefinition]
        show decl.symbol.getD _ = name
        rw [hname]
        rfl
      rw [Answers.container?, if_pos hobject, hsymbol, Option.bind_some, hmembers, Option.bind_some,
        hsymbolName, if_pos h]
  · cases h

end Term

/-- In whatever state, a resolution that enters a type with the signature of arrays returns an
array. -/
theorem exists_array_of_resolveType (hbase : base.Linked) (hrules : Rule.Arranged rules)
    {run after : Run Graph Handle} (hgrown : Grown base run.world)
    (hactive : ∀ other ∈ run.active, other < run.world.definitions.size)
    (hdepth : run.depth < options.maxDepth) {ty target : Handle} (hnew : ty ∉ run.active)
    (htarget : BaseWalk.declaration? run.world.definitions ty = some target)
    (hfits : run.world.fits .array target) {location : Site}
    (hlocation : location.handle < base.definitions.size) {fuel : Nat} {title : Option String}
    (h : Resolver.resolveType ⟨checker, .ofRules rules, options⟩ fuel location ty title run =
      .ok (schema, after)) : ∃ items, schema = .array items := by
  have hlt : ty < run.world.definitions.size := by
    by_contra hle
    rw [BaseWalk.declaration?, Array.getElem?_eq_none (Nat.le_of_not_lt hle)] at htarget
    cases htarget
  obtain ⟨term, hterm⟩ := hgrown.exists_denotes hlt
  obtain ⟨terms, hterms⟩ := hgrown.exists_forall₂_denotes hactive
  -- The object behind the type is the document's, so the term is an array as well.
  have hbasefits : base.fits .array target := by
    unfold fits at hfits ⊢
    split at hfits
    · rename_i decl hdecl
      rw [hgrown.definition_of_object hdecl]
      exact hfits
    · cases hfits
  obtain ⟨decl, hdecl, harray⟩ := Term.container?_of_fits hbasefits
  have hcontainer : (Term.answers base).container? term = some .array := by
    rw [hgrown.declaration?_eq hterm] at htarget
    rw [Term.container?_of_declaration htarget hdecl, harray]
  have hsite : (Term.models hbase).site location location := ⟨rfl, hlocation⟩
  have hvalue := (Models.run'_resolveType_of_matches (Models.askAlike_ofRules hrules.shipped) hsite
    ⟨hgrown, hterms, rfl⟩ hterm options fuel title).symm.trans (congrArg (Prod.fst <$> ·) h)
  cases hresolved : (Term.answers base).resolveValue (.ofRules rules) options location fuel
      run.depth terms term title with
  | none =>
    rw [hresolved] at hvalue
    cases hvalue
  | some schema' =>
    rw [hresolved] at hvalue
    cases hvalue
    have hnew' : term ∉ terms := fun hmem =>
      hnew ((Models.mem_active_iff (M := Term.models hbase) hgrown hterms hterm).mpr hmem)
    cases fuel with
    | zero => cases hresolved
    | succ fuel =>
      rw [Answers.resolveValue, if_neg (Nat.not_le.mpr hdepth), if_neg hnew'] at hresolved
      have hshipped := Answers.dispatchValue_shipped_of_arranged hrules
        Term.intrinsic_eq_none_of_object hresolved
      have hleaf := Term.intrinsic_eq_none_of_object (Answers.object_of_container _ hcontainer)
      rw [Answers.dispatchValue_shipped, hleaf, hcontainer] at hshipped
      obtain ⟨items, -, rfl⟩ := Option.map_eq_some_iff.mp hshipped
      exact ⟨items, rfl⟩

/-- Any two arrangements of the shipped rules give a declared type the same schema or both none, on
graphs of any history, and a schema at least where definitions stand for their instantiations or no
parameter is a base type.  A type with the signature of arrays is an array wherever a resolution by
an arrangement enters it. -/
theorem resolvesBy_iff_of_arranged {document : Document} {fresh : Graph}
    (haccepted : ofDocument document = .ok fresh) (hgraph : Reachable fresh graph)
    (hlater : Reachable fresh later) {text : String} (hnode : fresh.site text = .ok node)
    (options : Options) (hrules : Rule.Arranged rules) (hrules' : Rule.Arranged rules') :
    (∀ schema, ResolvesBy graph rules options node schema ↔
      ResolvesBy later rules' options node schema) ∧
    (options.generics = .target ∨ fresh.NoParameterBases →
      ∃ schema, ResolvesBy graph rules options node schema) ∧
    ∀ (run after : Run Graph Handle) (ty target : Handle) (fuel : Nat) (title : Option String)
      (schema : Schema),
      Reachable fresh run.world → (∀ other ∈ run.active, other < run.world.definitions.size) →
      run.depth < options.maxDepth → ty ∉ run.active →
      BaseWalk.declaration? run.world.definitions ty = some target →
      run.world.fits .array target →
      Resolver.resolveType ⟨checker, .ofRules rules, options⟩ fuel node ty title run =
        .ok (schema, after) →
      ∃ items, schema = .array items := by
  have hbase := linked_of_ofDocument haccepted
  have hlt := site_handle_lt hbase hnode
  have hgrown := hgraph.grown hbase
  refine ⟨fun schema => ⟨?_, ?_⟩, fun hmode => ?_, ?_⟩
  · exact .of_arranged hbase hgrown (hlater.grown hbase) hlt hrules hrules'
  · exact .of_arranged hbase (hlater.grown hbase) hgrown hlt hrules' hrules
  · obtain ⟨schema, hschema⟩ := exists_resolvesTo hbase hgrown hlt hmode
    exact ⟨schema, (resolvesBy_shipped.mpr hschema).of_arranged hbase hgrown hgrown hlt
      Rule.arranged_shipped hrules⟩
  · intro run after ty target fuel title schema hreachable hactive hdepth hnew htarget hfits h
    exact exists_array_of_resolveType hbase hrules (hreachable.grown hbase) hactive hdepth hnew
      htarget hfits hlt h

/-- `Node[]` is an array of nodes, also where records are tried first and containers not at all, and
it is an array where it is met in `Node`. -/
theorem resolvesBy_iff_of_arranged_tangles :
    ofDocument tangles = .ok tanglesGraph ∧
      tanglesGraph.site "Node[]" = .ok ⟨"Node[]", 3⟩ ∧
      Rule.Arranged [.object, .intrinsic] ∧
      ResolvesBy tanglesGraph [.object, .intrinsic] {} ⟨"Node[]", 3⟩
        (.array (.object (some "Node") [("children", .reference "#Array")] ["children"])) ∧
      ∃ schema after, Resolver.resolveType ⟨checker, .ofRules [.object, .intrinsic], {}⟩ 3
          ⟨"Node[]", 3⟩ 3 none { world := tanglesGraph, active := [2], depth := 1 } =
            .ok (schema, after) ∧
        ∃ items, schema = .array items := by
  have hbase := linked_of_ofDocument accepted_tangles
  have hnode : tanglesGraph.site "Node[]" = .ok ⟨"Node[]", 3⟩ := rfl
  have hrules : Rule.Arranged [.object, .intrinsic] := .of_perm (.inr (.swap _ _ _))
  have hshipped : ResolvesBy tanglesGraph Rule.shipped {} ⟨"Node[]", 3⟩
      (.array (.object (some "Node") [("children", .reference "#Array")] ["children"])) :=
    resolvesBy_of_siteValue hbase .start (by decide) Rule.arranged_shipped Rule.arranged_shipped
      ((outcome_ofRules_eq_ok_iff hbase .start (by decide) (List.Subset.refl _)).mp
        outcome_array_tangles)
  obtain ⟨hsame, -, harray⟩ := resolvesBy_iff_of_arranged accepted_tangles .start .start hnode {}
    hrules Rule.arranged_shipped
  refine ⟨accepted_tangles, hnode, hrules, (hsame _).mpr hshipped, ?_⟩
  have hstart : Grown tanglesGraph tanglesGraph := .start
  have hsite : (Term.models hbase).site ⟨"Node[]", 3⟩ ⟨"Node[]", 3⟩ := ⟨rfl, by decide⟩
  have hterm : (Term.models hbase).type tanglesGraph 3 (.declared 3) :=
    hstart.denotes_declared (by decide)
  have hmatches : (Term.models hbase).Matches { world := tanglesGraph, active := [2], depth := 1 }
      [.declared 2] 1 := ⟨hstart, .cons (hstart.denotes_declared (by decide)) .nil, rfl⟩
  have hfollows : (Term.models hbase).Follows tanglesGraph 1 (fun _ => Eq)
      (Resolver.resolveType ⟨checker, .ofRules [.object, .intrinsic], {}⟩ 3 ⟨"Node[]", 3⟩ 3 none)
      fun active => (Term.answers tanglesGraph).resolveValue (.ofRules [.object, .intrinsic]) {}
        ⟨"Node[]", 3⟩ 3 1 active (.declared 3) none :=
    Models.follows_resolveType (Models.askAlike_ofRules hrules.shipped) hsite 3 none hterm
  have hends := hfollows _ _ ((Term.models hbase).later_refl _) hmatches
  obtain ⟨schema, after, hrun, -, -, -, -, -⟩ := hends
  exact ⟨schema, after, hrun, harray _ after 3 1 3 none schema .start (by decide) (by decide)
    (by decide) rfl (by decide) hrun⟩

end GraphSchema.Graph
