import Mathlib
import GraphSchema.Proofs.Graph.Collecting
import GraphSchema.Proofs.Resolution.Simulation

/-!
# A grown graph answers as its terms do

`Term.models` gathers the queries: the checker of type graphs models the answers about terms, in
every graph that has grown from the document's.  With it a resolution over a graph comes to what
the same resolution comes to over terms, where nothing changes while it runs
(`outcome_eq_ofValue`).
-/

namespace GraphSchema.Graph

variable {base graph : Graph}

theorem Gives.of_read {α : Type} {query : Query α} {answer : α} {related : Graph → α → Prop}
    (hgrown : Grown base graph) (h : query graph = .ok (answer, graph))
    (hrelated : related graph answer) : Gives base graph query related :=
  ⟨answer, graph, h, hgrown, .refl _ _, hrelated⟩

/-- What a query gives, the checker replies. -/
theorem Gives.replies {question : Question Handle Symbol Site} {query : Query question.Answer}
    {related : Graph → question.Answer → Prop} (h : Gives base graph query related)
    (hreply : checker.reply question graph = quietly query graph) :
    checker.Replies (Grown base) (Later base) graph question related := by
  obtain ⟨answer, graph', hquery, hgrown, hlater, hrelated⟩ := h
  refine ⟨{ answer, world := graph' }, ?_, hgrown, hlater, hrelated⟩
  rw [hreply]
  show (query graph).bind _ = _
  rw [hquery]
  rfl

/-- The checker of type graphs answers about handles as the terms of a document do. -/
def Term.models (hbase : base.Linked) : Models checker (Term.answers base) where
  Sound := Grown base
  Later := Later base
  type := Denotes base
  symbol := SymbolDenotes base
  site node node' := node = node' ∧ node.handle < base.definitions.size
  later_refl := .refl base
  later_trans := .trans
  type_later hlater h := h.later hlater
  symbol_later hlater h := h.later hlater
  type_unique := by
    intro graph handle term other term' hgrown h h'
    constructor
    · rintro rfl
      exact h.unique h'
    · rintro rfl
      exact (hgrown.interned hbase).denotes_inj h h'
  flags hgrown h := Gives.replies (.of_read hgrown (flags_reads hbase hgrown h) rfl) rfl
  intrinsic hgrown h := Gives.replies (.of_read hgrown (intrinsic_reads hbase hgrown h) rfl) rfl
  symbolOf hgrown h :=
    have ⟨_, hreads, hrel⟩ := symbol_reads hbase hgrown h
    Gives.replies (.of_read hgrown hreads hrel) rfl
  symbolName hgrown h := Gives.replies (.of_read hgrown (symbolName_reads hbase hgrown h) rfl) rfl
  memberNames hgrown h :=
    Gives.replies (.of_read hgrown (memberNames_reads hbase hgrown h) rfl) rfl
  properties hgrown h := (properties_gives hbase hgrown h).replies rfl
  target hgrown h :=
    have ⟨_, hreads, hrel⟩ := target_reads hbase hgrown h
    Gives.replies (.of_read hgrown hreads hrel) rfl
  arguments hgrown h :=
    have ⟨_, hreads, hrel⟩ := arguments_reads hbase hgrown h
    Gives.replies (.of_read hgrown hreads hrel) rfl
  bases hgrown h := (bases_gives hbase hgrown h).replies rfl
  memberType := by
    intro graph symbol symbol' node node' hgrown h _
    obtain ⟨⟨answer, notices⟩, graph', hquery, hgrown', hlater, hanswer⟩ :=
      typeOfSymbol_gives hbase hgrown h
    refine ⟨{ answer, world := graph', notices }, ?_, hgrown', hlater, hanswer⟩
    show (Graph.typeOfSymbol symbol graph).bind _ = _
    rw [hquery]
    rfl
  siteType hgrown h :=
    Gives.replies (.of_read hgrown rfl (h.1 ▸ hgrown.denotes_declared h.2)) rfl
  siteName hgrown h := Gives.replies (.of_read hgrown rfl (h.1 ▸ rfl)) rfl

theorem site_handle_lt (hbase : base.Linked) {text : String} {node : Site}
    (h : base.site text = .ok node) : node.handle < base.definitions.size := by
  unfold site at h
  split at h
  · rename_i handle hhandle
    cases h
    rw [handle?, List.idxOf?, List.findIdx?_eq_some_iff_getElem] at hhandle
    exact hbase.size_eq ▸ hhandle.1
  · cases h

/-- A resolution of a type of a grown graph has the outcome of the value of its term. -/
theorem run'_resolveType_eq_ofValue (hbase : base.Linked) (hgrown : Grown base graph)
    {location : Site} (hlocation : location.handle < base.definitions.size) {handle : Handle}
    {term : Term} (h : Denotes base graph handle term) (options : Options) (fuel : Nat)
    (title : Option String) :
    ((Resolver.shipped checker options).resolveType fuel location handle title).run'
        (.fresh graph) =
      Outcome.ofValue ((Term.answers base).resolveValue Registry.shipped options location fuel 0 []
        term title) :=
  (Term.models hbase).run'_resolveType_eq Models.askAlike_shipped ⟨rfl, hlocation⟩ hgrown fuel
    title h

/-- A resolution over a grown graph has the outcome of the value over terms. -/
theorem outcome_eq_ofValue (hbase : base.Linked) (hgrown : Grown base graph) {node : Site}
    (hnode : node.handle < base.definitions.size) (options : Options) (fuel : Nat) :
    (Resolver.shipped checker options).outcome fuel node graph =
      Outcome.ofValue ((Term.answers base).siteValue Registry.shipped options fuel node) :=
  (Term.models hbase).outcome_eq Models.askAlike_shipped ⟨rfl, hnode⟩ hgrown fuel

theorem outcome_eq_ok_iff (hbase : base.Linked) (hgrown : Grown base graph) {node : Site}
    (hnode : node.handle < base.definitions.size) {options : Options} {fuel : Nat}
    {schema : Schema} :
    (Resolver.shipped checker options).outcome fuel node graph = .ok schema ↔
      (Term.answers base).siteValue Registry.shipped options fuel node = some schema := by
  rw [outcome_eq_ofValue hbase hgrown hnode]
  cases (Term.answers base).siteValue Registry.shipped options fuel node <;>
    simp [Outcome.ofValue]

end GraphSchema.Graph
