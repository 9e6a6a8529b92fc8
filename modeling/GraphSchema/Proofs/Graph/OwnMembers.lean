import Mathlib
import GraphSchema.Proofs.Graph.Exposure
import GraphSchema.Proofs.Resolution.Covering

/-!
# Objects show their own members

There are two ways for an object of a type graph to come by the members of its base types: the
graph flattens them into its properties, and a call for its record looks the base types up once
more and merges what they hand on.  In mode `target` the second way makes no difference
(`properties_perm_own_members`).  Every name that a base type hands on is one of its properties, or
of its definition's where it is an instantiation, and so a property of the object
(`Term.covered_known`), which then wins.

In mode `instantiated` this may fail, as a base type can be the argument for a parameter there
(`exposes_bases_iff`).
-/

namespace GraphSchema.Graph

variable {base : Graph}

namespace Term

variable {options : Options}

/-- With definitions in place of their instantiations, every type has the names of its base types,
and of its definition. -/
theorem covered_known (hbase : base.Linked) (hmode : options.generics = .target) :
    (answers base).Covered options {term | Known base term} where
  target := by
    intro term target hknown htarget
    obtain ⟨handle, decl, -, rfl, hdecl, -, -⟩ := exists_of_redirect hbase hknown htarget
    exact .declared (Array.getElem?_eq_some_iff.mp hdecl).1
  object_target hknown htarget := object_of_redirect hbase hknown htarget
  target_subset hknown htarget _ := mem_memberNames_of_redirect hbase hknown htarget
  base hknown _ hparent := hknown.of_baseTypes hbase hparent
  base_subset hknown hredirect hparent _ :=
    mem_memberNames_of_baseTypes hbase hknown (unbound_of_redirect hbase hmode hredirect) hparent

end Term

/-- Resolve a nested type with definitions in place of their instantiations, by any recognizers. -/
def resolveNested (registry : Registry Handle Symbol Site) (maxDepth fuel : Nat)
    (location : Site) (ty : Handle) : Resolution Graph Handle Schema :=
  Resolver.resolveType ⟨checker, registry, ⟨.target, maxDepth⟩⟩ fuel location ty none

section Nested

variable (registry : Registry Handle Symbol Site) (maxDepth fuel : Nat) (location : Site)

theorem keeps_resolveNested {property : Graph → Prop} (h : checker.Keeps property) (ty : Handle) :
    (resolveNested registry maxDepth fuel location ty).Keeps property :=
  Resolver.keeps_resolveType h fuel location ty none

theorem restores_resolveNested (ty : Handle) :
    (resolveNested registry maxDepth fuel location ty).Restores :=
  Resolver.restores_resolveType fuel location ty none

theorem advances_resolveNested (hbase : base.Linked) :
    (Term.models hbase).Advances (resolveNested registry maxDepth fuel location) where
  asks := keeps_later hbase
  resolves graph := keeps_resolveNested registry maxDepth fuel location (keeps_later hbase graph)

end Nested

theorem keeps_reachable (graph : Graph) : checker.Keeps (Reachable graph) :=
  fun question _ _ hreachable hreply => .asked question hreachable hreply

/-- The value of a call for the record of a type, in the mode for definitions. -/
def recordValue (base : Graph) (maxDepth fuel steps depth : Nat) (location : Site)
    (active : List Term) (term : Term) : Option (Option Schema) :=
  (recognizeObject steps ⟨⟨.target, maxDepth⟩, location⟩ term).value (Term.answers base)
    (fun active term => (Term.answers base).resolveValue Registry.shipped ⟨.target, maxDepth⟩
      location fuel depth active term none) active

/-- A call returns its value where nested types are resolved by the shipped recognizers. -/
theorem exists_of_recordValue (hbase : base.Linked) {run : Run Graph Handle}
    (hgrown : Grown base run.world) {location : Site}
    (hlocation : location.handle < base.definitions.size) {ty : Handle} {term : Term}
    (hterm : Denotes base run.world ty term) {active : List Term}
    (hactive : List.Forall₂ (Denotes base run.world) run.active active)
    {maxDepth fuel steps : Nat} {claimed : Option Schema}
    (hvalue : recordValue base maxDepth fuel steps run.depth location active term =
      some claimed) :
    ∃ after, (recognizeObject steps ⟨⟨.target, maxDepth⟩, location⟩ ty).carryOut checker
      (resolveNested Registry.shipped maxDepth fuel location) run = .ok (claimed, after) := by
  have hlocation' : (Term.models hbase).site location location := ⟨rfl, hlocation⟩
  have hnested : (Term.models hbase).NestedFollows run.world run.depth
      (resolveNested Registry.shipped maxDepth fuel location) _ :=
    fun _ _ _ _ hty => Models.follows_resolveType Models.askAlike_shipped hlocation' fuel none hty
  have hends : (Term.models hbase).Ends run (fun _ => Eq) _
      (recordValue base maxDepth fuel steps run.depth location active term) :=
    Models.similar_recognizeObject ⟨.target, maxDepth⟩ hlocation' steps hterm run.depth _ _ hnested
      run active (.refl _ _) ⟨hgrown, hactive, rfl⟩
  rw [hvalue] at hends
  obtain ⟨_, after, hcall, -, -, -, -, rfl⟩ := hends
  exact ⟨after, hcall⟩

/-- With definitions in place of their instantiations, a call that makes a record of an object
makes it of the object's own properties alone: as many as these are, each under its name and with
the schema that its type resolves to, whatever the base types hand on.  This holds in every state of
a resolution, by whatever recognizers nested types are resolved. -/
theorem properties_perm_own_members {document : Document} {fresh : Graph}
    (haccepted : ofDocument document = .ok fresh) {run after : Run Graph Handle}
    (hrun : Reachable fresh run.world) {ty : Handle} {decl : ObjectDecl Handle}
    (hdecl : run.world.definitions[ty]? = some (.object decl))
    {registry : Registry Handle Symbol Site} {maxDepth fuel steps : Nat} {location : Site}
    {title : Option String} {properties : Fields Schema} {required : List String}
    (hcall : (recognizeObject steps ⟨⟨.target, maxDepth⟩, location⟩ ty).carryOut checker
      (resolveNested registry maxDepth fuel location) run =
        .ok (some (.object title properties required), after)) :
    ∃ asked symbols listed own, Reachable run.world asked.world ∧ asked.active = run.active ∧
      asked.depth = run.depth ∧
      Resolution.ask checker (.properties ty) asked = .ok (symbols, listed) ∧
      List.Forall₂ (ReadsMember checker (resolveNested registry maxDepth fuel location) location
        (Reachable run.world) run) symbols own ∧
      HasNames run.world ty (Fields.keys own) ∧ properties.Perm own := by
  have hbase := linked_of_ofDocument haccepted
  have hgrown := hrun.grown hbase
  have hdecl' := hgrown.definition_of_object hdecl
  obtain ⟨hlt, -⟩ := Array.getElem?_eq_some_iff.mp hdecl'
  have hterm := hgrown.denotes_declared hlt
  have hkeeps := keeps_reachable run.world
  obtain ⟨asked, symbols, listed, own, hasked, hactive, hdepth, hlisted, hread, hkeys, hperm⟩ :=
    Models.exists_perm_of_recognizeObject (M := Term.models hbase)
      (advances_resolveNested registry maxDepth fuel location hbase)
      (Term.covered_known hbase rfl) hkeeps
      (keeps_resolveNested registry maxDepth fuel location hkeeps)
      (restores_resolveNested registry maxDepth fuel location) hgrown .start hterm (.declared hlt)
      (Term.redirect_of_object hbase hdecl') (Term.nodup_memberNames _) hcall
  refine ⟨asked, symbols, listed, own, hasked, hactive, hdepth, hlisted, hread, ?_, hperm⟩
  rw [hkeys]
  exact hgrown.hasNames hbase hterm

/-- An object that declares a property of its base type again. -/
def relabelled : Document where
  types := [
    ("string", .intrinsic .string),
    ("number", .intrinsic .number),
    ("Base", .object {
      symbol := some "Base"
      interface := true
      bases := []
      parameters := []
      properties := [("id", "string"), ("label", "string")]
      members := [] }),
    ("Derived", .object {
      symbol := some "Derived"
      interface := true
      bases := ["Base"]
      parameters := []
      properties := [("label", "number")]
      members := [] })]

/-- The graph of `relabelled`. -/
def relabelledGraph : Graph where
  ids := ["string", "number", "Base", "Derived"]
  definitions := #[
    .intrinsic .string,
    .intrinsic .number,
    .object {
      symbol := some "Base"
      interface := true
      bases := []
      parameters := []
      properties := [("id", 0), ("label", 0)]
      members := [] },
    .object {
      symbol := some "Derived"
      interface := true
      bases := [2]
      parameters := []
      properties := [("label", 1)]
      members := [] }]
  instances := []
  unknown := none

/-- A state in which `Derived` is in progress. -/
def relabelledRun : Run Graph Handle where
  world := relabelledGraph
  active := [3]
  depth := 1

/-- The properties of `Derived`. -/
def relabelledProperties : Fields Schema :=
  [("id", .intrinsic .string), ("label", .intrinsic .number)]

/-- In this state a call for `Derived` makes a record with the label that `Derived` declares. -/
theorem properties_perm_own_members_relabelled :
    ofDocument relabelled = .ok relabelledGraph ∧
      ∃ after asked symbols listed own,
        (recognizeObject 2 ⟨⟨.target, 64⟩, ⟨"Derived", 3⟩⟩ 3).carryOut checker
          (resolveNested Registry.shipped 64 1 ⟨"Derived", 3⟩) relabelledRun =
            .ok (some (.object (some "Derived") relabelledProperties ["id", "label"]), after) ∧
        Reachable relabelledGraph asked.world ∧ asked.active = [3] ∧ asked.depth = 1 ∧
        Resolution.ask checker (.properties 3) asked = .ok (symbols, listed) ∧
        List.Forall₂ (ReadsMember checker (resolveNested Registry.shipped 64 1 ⟨"Derived", 3⟩)
          ⟨"Derived", 3⟩ (Reachable relabelledGraph) relabelledRun) symbols own ∧
        HasNames relabelledGraph 3 (Fields.keys own) ∧ relabelledProperties.Perm own := by
  have haccepted : ofDocument relabelled = .ok relabelledGraph := rfl
  have hstart : Grown relabelledGraph relabelledRun.world := .start
  have hlt : 3 < relabelledGraph.definitions.size := by decide
  have hterm : Denotes relabelledGraph relabelledRun.world 3 (.declared 3) :=
    hstart.denotes_declared hlt
  have hvalue : recordValue relabelledGraph 64 1 2 relabelledRun.depth ⟨"Derived", 3⟩ [.declared 3]
      (.declared 3) =
    some (some (.object (some "Derived") relabelledProperties ["id", "label"])) := rfl
  obtain ⟨after, hcall⟩ := exists_of_recordValue (linked_of_ofDocument haccepted) hstart hlt hterm
    (.cons hterm .nil) hvalue
  obtain ⟨asked, symbols, listed, own, hmembers⟩ :=
    properties_perm_own_members haccepted .start rfl hcall
  exact ⟨haccepted, after, asked, symbols, listed, own, hcall, hmembers⟩

end GraphSchema.Graph
