import Mathlib
import GraphSchema.Proofs.Graph.Answering
import GraphSchema.Proofs.Resolution.Invariants

/-!
# The history of a graph does not show

A type graph changes while it is queried, and the handles of added types depend on the order of
the queries.  `Graph.Reachable` holds of every graph that queries and resolutions of any kind can
leave behind, with whatever handles and symbols they are put, as long as they succeed.  All of
them are grown graphs (`Reachable.grown`), so a resolution over any of them comes to what it
comes to over terms, which know no history.  `outcome_eq_of_reachable` is the conclusion, for
every bound on the nesting of calls: a resolution that ends has the same schema everywhere, and
one that comes to no end does so everywhere.
-/

namespace GraphSchema

/-- A checker that replies as described leaves a sound world, later than the one before. -/
theorem Checker.Replies.sound {W τ σ ν : Type} {checker : Checker W τ σ ν} {Sound : W → Prop}
    {Later : W → W → Prop} {world : W} {question : Question τ σ ν}
    {related : W → question.Answer → Prop}
    (h : checker.Replies Sound Later world question related) {reply : Reply W τ question.Answer}
    (hreply : checker.reply question world = .ok reply) :
    Sound reply.world ∧ Later world reply.world := by
  obtain ⟨reply', hreply', hsound, hlater, -⟩ := h
  rw [hreply, Except.ok.injEq] at hreply'
  rw [hreply']
  exact ⟨hsound, hlater⟩

namespace Graph

variable {base graph : Graph} {α β : Type}

/-! ## Replies keep a graph grown -/

theorem bind_of_error {query : Query α} {stop : Stop} (h : query graph = .error stop)
    (rest : α → Query β) : (query >>= rest) graph = .error stop := by
  show (query graph).bind _ = _
  rw [h]
  rfl

theorem quietly_of_error {query : Query α} {stop : Stop} (h : query graph = .error stop) :
    quietly query graph = .error stop := by
  show (query graph).bind _ = _
  rw [h]
  rfl

/-- A handle names a type, or looking at it stops the query. -/
theorem Grown.dangling_or_denotes (hgrown : Grown base graph) (handle : Handle) :
    definition handle graph = .error (.dangling handle) ∨
      ∃ term, Denotes base graph handle term := by
  rcases Nat.lt_or_ge handle graph.definitions.size with hlt | hle
  · exact .inr (hgrown.exists_denotes hlt)
  · refine .inl ?_
    rw [definition, bind_get, Array.getElem?_eq_none hle]
    rfl

/-- A question about a type leaves a grown graph if it does so where the type exists, and fails
where it does not. -/
theorem Grown.of_reply (hgrown : Grown base graph) {ty : Handle}
    {question : Question Handle Symbol Site} {reply : Reply Graph Handle question.Answer}
    {related : Term → Graph → question.Answer → Prop}
    (hreplies : ∀ term, Denotes base graph ty term →
      checker.Replies (Grown base) (Later base) graph question (related term))
    (hdangling : definition ty graph = .error (.dangling ty) →
      checker.reply question graph = .error (.dangling ty))
    (hreply : checker.reply question graph = .ok reply) :
    Grown base reply.world ∧ Later base graph reply.world := by
  rcases hgrown.dangling_or_denotes ty with herror | ⟨term, hterm⟩
  · rw [hdangling herror] at hreply
    cases hreply
  · exact (hreplies term hterm).sound hreply

/-- A member that is declared somewhere, and seen through a type if at all, has a term. -/
theorem Grown.exists_symbolDenotes (hgrown : Grown base graph) {owner member : Handle}
    {name : String} {through : Option Handle} (hmember : graph.declared? owner name = some member)
    {answer : Handle × List (Event Handle)} {graph' : Graph}
    (h : typeOfSymbol (.property owner name through) graph = .ok (answer, graph')) :
    ∃ symbol, SymbolDenotes base graph (.property owner name through) symbol := by
  have howner : owner < graph.definitions.size := by
    by_contra hlt
    rw [declared?, Array.getElem?_eq_none (Nat.le_of_not_lt hlt)] at hmember
    cases hmember
  obtain ⟨owner', howner'⟩ := hgrown.exists_denotes howner
  cases through with
  | none => exact ⟨_, .property name howner' .none⟩
  | some instantiation =>
    rcases hgrown.dangling_or_denotes instantiation with herror | ⟨through', hthrough⟩
    · rw [typeOfSymbol, bind_get, hmember] at h
      have hbindings : bindings instantiation graph = .error _ := bind_of_error herror _
      change (bindings instantiation >>= _) graph = _ at h
      rw [bind_of_error hbindings] at h
      cases h
    · exact ⟨_, .property name howner' (.some hthrough)⟩

/-- A member that is not declared has the unknown type, however it is seen. -/
theorem typeOfSymbol_gives_unknown (hbase : base.Linked) (hgrown : Grown base graph)
    {owner : Handle} {name : String} (hmember : graph.declared? owner name = none)
    (through : Option Handle) :
    Gives base graph (typeOfSymbol (.property owner name through)) fun last answer =>
      Denotes base last answer.1 .unknown := by
  rw [typeOfSymbol]
  refine Gives.get ?_
  rw [hmember]
  exact (unknownType_gives hbase hgrown).bind fun _ _ hgrown' _ hunknown => .pure hgrown' hunknown

/-- A member may be asked for under any owner and through any handle. -/
theorem Grown.of_memberType (hbase : base.Linked) (hgrown : Grown base graph) {symbol : Symbol}
    {node : Site} {reply : Reply Graph Handle Handle}
    (hreply : checker.reply (.memberType symbol node) graph = .ok reply) :
    Grown base reply.world ∧ Later base graph reply.world := by
  obtain ⟨⟨⟨answer, notices⟩, graph'⟩, hquery, hreply⟩ := exists_of_bind_eq_ok hreply
  cases hreply
  show Grown base graph' ∧ Later base graph graph'
  change typeOfSymbol symbol graph = .ok ((answer, notices), graph') at hquery
  have hgives : ∀ {related : Graph → Handle × List (Event Handle) → Prop},
      Gives base graph (typeOfSymbol symbol) related →
      Grown base graph' ∧ Later base graph graph' := by
    rintro related ⟨answer', graph'', hquery', hgrown', hlater', -⟩
    cases hquery.symm.trans hquery'
    exact ⟨hgrown', hlater'⟩
  cases symbol with
  | type handle =>
    cases hquery
    exact ⟨hgrown, .refl _ _⟩
  | property owner name through =>
    cases hmember : graph.declared? owner name with
    | none => exact hgives (typeOfSymbol_gives_unknown hbase hgrown hmember through)
    | some member =>
      obtain ⟨_, hsymbol⟩ := hgrown.exists_symbolDenotes hmember hquery
      exact hgives (typeOfSymbol_gives hbase hgrown hsymbol)

theorem properties_of_dangling {ty : Handle}
    (h : definition ty graph = .error (.dangling ty)) :
    checker.reply (.properties ty) graph = .error (.dangling ty) := by
  refine quietly_of_error ?_
  rw [properties, bind_get, collectProperties]
  exact bind_of_error (bind_of_error h _) _

/-- Whatever a checker of type graphs is asked, it adds types as queries do, or fails. -/
theorem Grown.of_checker (hbase : base.Linked) (hgrown : Grown base graph)
    {question : Question Handle Symbol Site} {reply : Reply Graph Handle question.Answer}
    (hreply : checker.reply question graph = .ok reply) :
    Grown base reply.world ∧ Later base graph reply.world := by
  cases question with
  | flags ty =>
    exact hgrown.of_reply (fun _ h => (Term.models hbase).flags hgrown h)
      (fun h => quietly_of_error (bind_of_error h _)) hreply
  | intrinsic ty =>
    exact hgrown.of_reply (fun _ h => (Term.models hbase).intrinsic hgrown h)
      (fun h => quietly_of_error (bind_of_error h _)) hreply
  | symbol ty =>
    exact hgrown.of_reply (fun _ h => (Term.models hbase).symbolOf hgrown h)
      (fun h => quietly_of_error (bind_of_error h _)) hreply
  | symbolName symbol =>
    cases symbol with
    | type ty =>
      exact hgrown.of_reply (fun _ h => (Term.models hbase).symbolName hgrown (.type h))
        (fun h => quietly_of_error (bind_of_error h _)) hreply
    | property owner name through =>
      cases hreply
      exact ⟨hgrown, .refl _ _⟩
  | memberNames symbol =>
    cases symbol with
    | type ty =>
      exact hgrown.of_reply (fun _ h => (Term.models hbase).memberNames hgrown (.type h))
        (fun h => quietly_of_error (bind_of_error h _)) hreply
    | property owner name through =>
      cases hreply
      exact ⟨hgrown, .refl _ _⟩
  | properties ty =>
    exact hgrown.of_reply (fun _ h => (Term.models hbase).properties hgrown h)
      properties_of_dangling hreply
  | target ty =>
    exact hgrown.of_reply (fun _ h => (Term.models hbase).target hgrown h)
      (fun h => quietly_of_error (bind_of_error h _)) hreply
  | arguments ty =>
    exact hgrown.of_reply (fun _ h => (Term.models hbase).arguments hgrown h)
      (fun h => quietly_of_error (bind_of_error h _)) hreply
  | bases ty =>
    exact hgrown.of_reply (fun _ h => (Term.models hbase).bases hgrown h)
      (fun h => quietly_of_error (bind_of_error (bind_of_error h _) _)) hreply
  | memberType symbol node => exact hgrown.of_memberType hbase hreply
  | siteType node =>
    cases hreply
    exact ⟨hgrown, .refl _ _⟩
  | siteName node =>
    cases hreply
    exact ⟨hgrown, .refl _ _⟩

theorem keeps_later (hbase : base.Linked) (graph : Graph) :
    checker.Keeps fun later => Grown base later ∧ Later base graph later := by
  intro question later reply ⟨hgrown, hlater⟩ hreply
  exact (hgrown.of_checker hbase hreply).imp_right hlater.trans

/-! ## Reachable graphs -/

/-- A graph that queries and resolutions can have left behind. -/
inductive Reachable (fresh : Graph) : Graph → Prop where
  | start : Reachable fresh fresh
  /-- Any query with any handles and symbols, as long as it succeeds. -/
  | asked {graph : Graph} (question : Question Handle Symbol Site)
      {reply : Reply Graph Handle question.Answer} (h : Reachable fresh graph)
      (hreply : checker.reply question graph = .ok reply) : Reachable fresh reply.world
  /-- A resolution of any type, with any recognizers and options, from any state. -/
  | resolved (registry : Registry Handle Symbol Site) (options : Options) (fuel : Nat)
      (location : Site) (ty : Handle) (title : Option String) {run after : Run Graph Handle}
      {schema : Schema} (h : Reachable fresh run.world)
      (hrun : Resolver.resolveType ⟨checker, registry, options⟩ fuel location ty title run =
        .ok (schema, after)) : Reachable fresh after.world
  /-- A resolution of any site. -/
  | resolvedSite (registry : Registry Handle Symbol Site) (options : Options) (fuel : Nat)
      (node : Site) {run after : Run Graph Handle} {schema : Schema}
      (h : Reachable fresh run.world)
      (hrun : Resolver.resolveNode ⟨checker, registry, options⟩ fuel node run =
        .ok (schema, after)) : Reachable fresh after.world

/-- What is reachable from a grown graph is grown, and later. -/
theorem Reachable.later {later : Graph} (hbase : base.Linked) (hgrown : Grown base graph)
    (h : Reachable graph later) : Grown base later ∧ Later base graph later := by
  have hkeeps := keeps_later hbase graph
  induction h with
  | start => exact ⟨hgrown, .refl _ _⟩
  | asked question _ hreply ih => exact hkeeps question _ _ ih hreply
  | resolved registry options fuel location ty title _ hrun ih =>
    exact Resolver.keeps_resolveType hkeeps fuel location ty title _ _ _ ih hrun
  | resolvedSite registry options fuel node _ hrun ih =>
    exact Resolver.keeps_resolveNode hkeeps fuel node _ _ _ ih hrun

theorem Reachable.grown (hbase : base.Linked) (h : Reachable base graph) : Grown base graph :=
  (h.later hbase .start).1

/-- The outcome for a declared type does not depend on what a graph has been asked before.
The outcomes are the same for every bound on the nesting of calls, so a resolution that no bound
is enough for on one graph has none on the other. -/
theorem outcome_eq_of_reachable {document : Document} {fresh later : Graph}
    (haccepted : ofDocument document = .ok fresh) (hreachable : Reachable fresh later)
    {text : String} {node : Site} (hnode : fresh.site text = .ok node) (options : Options)
    (fuel : Nat) :
    (Resolver.shipped checker options).outcome fuel node later =
      (Resolver.shipped checker options).outcome fuel node fresh := by
  have hbase := linked_of_ofDocument haccepted
  have hlt := site_handle_lt hbase hnode
  rw [outcome_eq_ofValue hbase (hreachable.grown hbase) hlt,
    outcome_eq_ofValue hbase .start hlt]

/-- A generic record with a member whose type holds the record twice. -/
def boxes : Document where
  types := [
    ("T", .opaqueType none),
    ("Box", .object {
      symbol := some "Box"
      interface := true
      bases := []
      parameters := ["T"]
      properties := [("wrapped", "Box<Box<T>>")]
      members := [] }),
    ("Box<T>", .reference "Box" ["T"]),
    ("Box<Box<T>>", .reference "Box" ["Box<T>"]),
    ("string", .intrinsic .string),
    ("Box<string>", .reference "Box" ["string"])]

/-- The graph of `boxes`. -/
def boxesGraph : Graph where
  ids := ["T", "Box", "Box<T>", "Box<Box<T>>", "string", "Box<string>"]
  definitions := #[
    .opaqueType none,
    .object {
      symbol := some "Box"
      interface := true
      bases := []
      parameters := [0]
      properties := [("wrapped", 3)]
      members := [] },
    .reference 1 [0],
    .reference 1 [2],
    .intrinsic .string,
    .reference 1 [4]]
  instances := [((1, [0]), 2), ((1, [2]), 3), ((1, [4]), 5)]
  unknown := none

/-- Asking for the member of `Box<string>` adds a type, which does not show in the outcome. -/
theorem outcome_boxes_eq_of_asked :
    ofDocument boxes = .ok boxesGraph ∧
      Reachable boxesGraph (boxesGraph.addApplication 1 [5]) ∧
      boxesGraph.site "Box<string>" = .ok ⟨"Box<string>", 5⟩ ∧
      (Resolver.shipped checker {}).outcome 8 ⟨"Box<string>", 5⟩
          (boxesGraph.addApplication 1 [5]) =
        (Resolver.shipped checker {}).outcome 8 ⟨"Box<string>", 5⟩ boxesGraph := by
  have haccepted : ofDocument boxes = .ok boxesGraph := rfl
  have hnode : boxesGraph.site "Box<string>" = .ok ⟨"Box<string>", 5⟩ := rfl
  have hreply : checker.reply (.memberType (.property 1 "wrapped" (some 5)) ⟨"", 0⟩) boxesGraph =
      .ok { answer := 6, world := boxesGraph.addApplication 1 [5] } := rfl
  have hreachable := Reachable.asked _ .start hreply
  exact ⟨haccepted, hreachable, hnode, outcome_eq_of_reachable haccepted hreachable hnode {} 8⟩

end Graph

end GraphSchema
