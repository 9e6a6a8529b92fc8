import Mathlib
import GraphSchema.Proofs.Graph.Targets
import GraphSchema.Proofs.Resolution.Confinement

/-!
# Finitely many types are entered

A type in progress is recognized by its handle, so a resolution can only be said to come to an end
where it has finitely many handles to enter.  In mode `target` a graph still grows during a
resolution: the members that an object has from an instantiated base type are seen through it, and
their types may be added when they are asked for.

**There is one bound for all nesting limits** (`exists_bound_on_entered`): the number of types that
are entered does not exceed it, and a resolution that may nest calls deeper than the bound ends.
Every handle that is entered stands for a term in `Term.Needed`, which holds of the types of the
document, the arguments of the type resolved and those of the members of the document's objects
(`exists_needed_of_passes`).  These are finitely many, and different handles stand for different
terms in the graph that the resolution leaves, which knows all that were entered on the way
(`Resolver.keeps_of_passes`).
-/

namespace GraphSchema.Graph

variable {base graph : Graph} {options : Options} {location : Site} {handle : Handle} {term : Term}

/-- In every state that a resolution goes through, all types in progress are needed. -/
theorem exists_needed_of_passes (hbase : base.Linked) (hgrown : Grown base graph)
    (hmode : options.generics = .target) (hlocation : location.handle < base.definitions.size)
    (hterm : Denotes base graph handle term) {fuel : Nat} {moment : Run Graph Handle}
    (hpasses : (Resolver.shipped checker options).Passes location fuel handle (.fresh graph)
      moment) :
    Grown base moment.world ∧ ∀ entered ∈ moment.active,
      ∃ needed ∈ Term.Needed base location term, Denotes base moment.world entered needed := by
  have hknown : Term.Known base term := ⟨graph, handle, hgrown, hterm⟩
  have hconfined : (Term.models hbase).Confined (Term.Needed base location term) (.fresh graph)
      moment :=
    Models.confined_of_passes (Term.closed_needed hbase hmode hlocation) ⟨rfl, hlocation⟩
      ⟨hgrown, .nil, rfl⟩ hterm ⟨hknown, .inr (.inl .refl)⟩ hpasses
  refine ⟨hconfined.sound, fun entered hentered => ?_⟩
  exact (hconfined.active entered hentered).resolve_left List.not_mem_nil

/-- There are no more handles than terms that they stand for. -/
theorem Grown.encard_le_card (hbase : base.Linked) (hgrown : Grown base graph)
    {handles : Set Handle} {terms : Finset Term}
    (h : ∀ handle ∈ handles, ∃ term ∈ terms, Denotes base graph handle term) :
    handles.encard ≤ terms.card := by
  have : Nonempty Term := ⟨.unknown⟩
  choose! term hmem hdenotes using h
  have hinj : Set.InjOn term handles := by
    intro handle hhandle other hother heq
    exact (hgrown.interned hbase).denotes_inj (hdenotes handle hhandle)
      (heq ▸ hdenotes other hother)
  rw [← hinj.encard_image, ← Set.encard_coe_eq_coe_finsetCard]
  refine Set.encard_le_encard ?_
  rintro _ ⟨handle, hhandle, rfl⟩
  exact hmem handle hhandle

/-- With definitions in place of their instantiations, every resolution comes to an end, and the
number of types that it enters has a bound that does not depend on the nesting limit. -/
theorem exists_bound_on_entered {document : Document} {fresh graph : Graph}
    (haccepted : ofDocument document = .ok fresh) (hreachable : Reachable fresh graph)
    {handle : Handle} (hhandle : handle < graph.definitions.size) {text : String}
    {location : Site} (hlocation : fresh.site text = .ok location) (title : Option String) :
    ∃ bound : ℕ, ∀ maxDepth, ∃ schema, ∀ fuel, bound < fuel →
      ((Resolver.shipped checker ⟨.target, maxDepth⟩).resolveType fuel location handle title).run'
          (.fresh graph) = .ok schema ∧
      {entered | ∃ moment, (Resolver.shipped checker ⟨.target, maxDepth⟩).Passes location fuel
          handle (.fresh graph) moment ∧ entered ∈ moment.active}.encard ≤ bound := by
  have hbase := linked_of_ofDocument haccepted
  have hgrown := hreachable.grown hbase
  have hlt := site_handle_lt hbase hlocation
  obtain ⟨term, hterm⟩ := hgrown.exists_denotes hhandle
  have hknown : Term.Known fresh term := ⟨graph, handle, hgrown, hterm⟩
  have hfinite : (Term.Needed fresh location term).Finite := Term.finite_needed location term
  refine ⟨hfinite.toFinset.card, fun maxDepth => ?_⟩
  obtain ⟨schema, hschema⟩ : ∃ schema, ∀ fuel, hfinite.toFinset.card < fuel →
      (Term.answers fresh).resolveValue Registry.shipped ⟨.target, maxDepth⟩ location fuel 0 []
        term title = some schema :=
    Term.exists_resolveValue_of_card_lt hbase rfl hlt hknown hfinite title
  refine ⟨schema, fun fuel hfuel => ?_⟩
  have hends : ((Resolver.shipped checker ⟨.target, maxDepth⟩).resolveType fuel location handle
      title).run' (.fresh graph) = .ok schema := by
    rw [run'_resolveType_eq_ofValue hbase hgrown hlt hterm, hschema fuel hfuel]
    rfl
  refine ⟨hends, ?_⟩
  -- What is entered on the way is known in the graph at the end.
  obtain ⟨⟨_, after⟩, hrun, -⟩ := exists_of_bind_eq_ok hends
  have hkeeps : ∀ graph, (Resolver.shipped checker ⟨.target, maxDepth⟩).checker.Keeps fun later =>
      Grown fresh later ∧ Later fresh graph later := keeps_later hbase
  have hgrown' : Grown fresh after.world :=
    (Resolver.keeps_resolveType (hkeeps graph) fuel location handle title _ _ _
      ⟨hgrown, .refl _ _⟩ hrun).1
  refine hgrown'.encard_le_card hbase ?_
  rintro entered ⟨moment, hpasses, hentered⟩
  obtain ⟨hmoment, hneeded⟩ := exists_needed_of_passes hbase hgrown rfl hlt hterm hpasses
  obtain ⟨needed, hmem, hdenotes⟩ := hneeded entered hentered
  have hlater : Later fresh moment.world after.world :=
    (Resolver.keeps_of_passes (hkeeps moment.world) hpasses hrun
      ⟨hmoment, .refl _ _⟩).2
  exact ⟨needed, hfinite.mem_toFinset.mpr hmem, hdenotes.later hlater⟩

/-- `boxes` with an interface that has its members from `Box<string>`. -/
def shelf : Document where
  types := boxes.types ++ [
    ("Shelf", .object {
      symbol := some "Shelf"
      interface := true
      bases := ["Box<string>"]
      parameters := []
      properties := []
      members := [] })]

/-- The graph of `shelf`. -/
def shelfGraph : Graph where
  ids := boxesGraph.ids ++ ["Shelf"]
  definitions := boxesGraph.definitions.push (.object {
    symbol := some "Shelf"
    interface := true
    bases := [5]
    parameters := []
    properties := []
    members := [] })
  instances := boxesGraph.instances
  unknown := none

/-- The type that `Shelf` has for its member, `Box<Box<string>>`, is added when it is asked for. -/
theorem exists_bound_on_entered_shelf :
    ofDocument shelf = .ok shelfGraph ∧
      shelfGraph.site "Shelf" = .ok ⟨"Shelf", 6⟩ ∧
      6 < shelfGraph.definitions.size ∧
      checker.reply (.memberType (.property 1 "wrapped" (some 5)) ⟨"Shelf", 6⟩) shelfGraph =
        .ok { answer := 7, world := shelfGraph.addApplication 1 [5] } ∧
      ∃ bound : ℕ, ∀ maxDepth, ∃ schema, ∀ fuel, bound < fuel →
        ((Resolver.shipped checker ⟨.target, maxDepth⟩).resolveType fuel ⟨"Shelf", 6⟩ 6
          none).run' (.fresh shelfGraph) = .ok schema ∧
        {entered | ∃ moment, (Resolver.shipped checker ⟨.target, maxDepth⟩).Passes ⟨"Shelf", 6⟩
            fuel 6 (.fresh shelfGraph) moment ∧ entered ∈ moment.active}.encard ≤ bound := by
  have haccepted : ofDocument shelf = .ok shelfGraph := rfl
  have hnode : shelfGraph.site "Shelf" = .ok ⟨"Shelf", 6⟩ := rfl
  have hlt : 6 < shelfGraph.definitions.size := by decide
  exact ⟨haccepted, hnode, hlt, rfl, exists_bound_on_entered haccepted .start hlt hnode none⟩

end GraphSchema.Graph
