import Mathlib
import GraphSchema.Proofs.Graph.Acceptance
import GraphSchema.Proofs.Graph.Foreign
import GraphSchema.Proofs.Graph.Simultaneous

/-!
# Queries come to an end

Three functions on graphs call themselves: the walk along base types that accepts a document, the
collection of properties, which goes from an instantiation to its target and from an object to its
base types, and substitution, within which arguments may lead back to where it came from.  Each is
given a bound on the nesting of its calls.  The bounds play no part: they are never reached, and a
larger bound changes nothing.

The walk ends because its path does not repeat a declaration.  Collection keeps no path.  It ends
because the walk has been clear, and what queries add later has a declared object behind it.
Substitution ends because instantiations that are added only hold earlier types, and the declared
ones on its way do not repeat.

**Main statement.**  `queries_end`.
-/

namespace GraphSchema

/-! ## Walks with more steps -/

namespace BaseWalk

variable {definitions : Array (Definition Handle)}

/-- Walks that agree where the first ones find their steps enough have the same first result. -/
theorem first_congr {α : Type} {walk walk' : α → BaseWalk} {items : List α}
    (h : first walk items ≠ exhausted)
    (hwalk : ∀ item, walk item ≠ exhausted → walk' item = walk item) :
    first walk' items = first walk items := by
  induction items with
  | nil => rfl
  | cons item rest ih =>
    rw [first] at h
    have hitem : walk item ≠ exhausted := by
      intro hitem
      rw [hitem] at h
      exact h rfl
    rw [first, first, hwalk item hitem]
    cases hfound : walk item with
    | clear =>
      rw [hfound] at h
      exact ih h
    | cycle declaration => rfl
    | exhausted => rfl

/-- A walk that has found its steps enough has the same result with one more. -/
theorem visit_succ {steps : Nat} {path : List Handle} {handle : Handle}
    (h : visit definitions steps path handle ≠ exhausted) :
    visit definitions (steps + 1) path handle = visit definitions steps path handle := by
  induction steps generalizing path handle with
  | zero => exact absurd rfl h
  | succ steps ih =>
    rw [visit] at h
    rw [visit, visit]
    cases hdeclaration : declaration? definitions handle with
    | none => rfl
    | some declaration =>
      rw [hdeclaration] at h
      dsimp only at h ⊢
      split
      · rfl
      · rename_i hnew
        rw [if_neg hnew] at h
        exact first_congr h fun _ => ih

/-- A walk from a type ends, with as many steps as there are types and one, or with more. -/
def Ends (definitions : Array (Definition Handle)) (handle : Handle) : Prop :=
  ∃ verdict, verdict ≠ exhausted ∧
    ∀ steps, definitions.size < steps → visit definitions steps [] handle = verdict

theorem ends_of_lt
    (hlt : ∀ handle declaration, declaration? definitions handle = some declaration →
      declaration < definitions.size) (handle : Handle) : Ends definitions handle := by
  have hends : ∀ steps, definitions.size < steps →
      visit definitions steps [] handle ≠ exhausted := fun steps hsteps =>
    visit_ne_exhausted hlt List.nodup_nil nofun hsteps
  refine ⟨_, hends (definitions.size + 1) (Nat.lt_succ_self _), fun steps hsteps => ?_⟩
  induction steps, hsteps using Nat.le_induction with
  | base => rfl
  | succ steps hsteps ih => rw [visit_succ (hends steps hsteps), ih]

end BaseWalk

namespace Graph

/-! ## Queries with more steps -/

section ExtendedBy

variable {α β γ : Type}

/-- What the first query answers the second answers as well, and it leaves the same graph. -/
def ExtendedBy (query query' : Query α) : Prop :=
  ∀ (graph : Graph) (result : α × Graph), query graph = .ok result → query' graph = .ok result

theorem ExtendedBy.refl (query : Query α) : ExtendedBy query query := fun _ _ h => h

theorem ExtendedBy.bind {query query' : Query α} {rest rest' : α → Query β}
    (h : ExtendedBy query query') (hrest : ∀ answer, ExtendedBy (rest answer) (rest' answer)) :
    ExtendedBy (query >>= rest) (query' >>= rest') := by
  intro graph result hresult
  obtain ⟨⟨answer, graph'⟩, hquery, hanswer⟩ := exists_of_bind_eq_ok hresult
  show (query' graph).bind _ = _
  rw [h graph _ hquery]
  exact hrest answer graph' result hanswer

theorem ExtendedBy.mapM {query query' : α → Query β}
    (h : ∀ item, ExtendedBy (query item) (query' item)) (items : List α) :
    ExtendedBy (items.mapM query) (items.mapM query') := by
  induction items with
  | nil => exact .refl _
  | cons item rest ih =>
    rw [List.mapM_cons, List.mapM_cons]
    exact (h item).bind fun _ => ih.bind fun _ => .refl _

theorem ExtendedBy.foldlM {step step' : γ → α → Query γ}
    (h : ∀ known item, ExtendedBy (step known item) (step' known item)) (items : List α)
    (known : γ) : ExtendedBy (items.foldlM step known) (items.foldlM step' known) := by
  induction items generalizing known with
  | nil => exact .refl _
  | cons item rest ih =>
    rw [List.foldlM_cons, List.foldlM_cons]
    exact (h known item).bind fun known => ih known

/-- What is answered with some steps is answered with more. -/
theorem ExtendedBy.of_le {query : Nat → Query α}
    (h : ∀ steps, ExtendedBy (query steps) (query (steps + 1))) {steps more : Nat}
    (hle : steps ≤ more) : ExtendedBy (query steps) (query more) := by
  intro graph result hresult
  induction more, hle using Nat.le_induction with
  | base => exact hresult
  | succ more _ ih => exact h more graph result ih

end ExtendedBy

theorem substituteIn_succ (pairs : Bindings) (steps : Nat) (path : List Handle) (ty : Handle) :
    ExtendedBy (substituteIn pairs steps path ty) (substituteIn pairs (steps + 1) path ty) := by
  induction steps generalizing path ty with
  | zero =>
    intro graph result h
    cases h
  | succ steps ih =>
    rw [substituteIn, substituteIn]
    split
    · exact .refl _
    · refine (ExtendedBy.refl _).bind fun found => ?_
      cases found with
      | reference target arguments =>
        dsimp only
        split
        · exact .refl _
        · exact (ExtendedBy.mapM (ih _) arguments).bind fun _ => .refl _
      | _ => exact .refl _

theorem collectProperties_succ (steps : Nat) (ty : Handle) (known : Fields Symbol) :
    ExtendedBy (collectProperties steps ty known) (collectProperties (steps + 1) ty known) := by
  induction steps generalizing ty known with
  | zero =>
    intro graph result h
    cases h
  | succ steps ih =>
    rw [collectProperties, collectProperties]
    refine (ExtendedBy.refl _).bind fun found => ?_
    cases found with
    | object decl =>
      exact (ExtendedBy.foldlM (fun known parent => ih parent known) decl.bases known).bind
        fun _ => .refl _
    | reference target arguments =>
      refine (ExtendedBy.refl _).bind fun pairs => ?_
      exact (ih target []).bind fun _ => .refl _
    | _ => exact .refl _

/-! ## Ends -/

/-- What is asked of a graph about its own types is answered, and no bound has a part in it. -/
structure Ends (graph : Graph) : Prop where
  /-- The properties of a type are those that any larger bound collects. -/
  properties : ∀ ty < graph.definitions.size, ∃ fields after,
    Graph.properties ty graph = .ok (fields.map Prod.snd, after) ∧
      ∀ steps, 2 * graph.definitions.size + 2 ≤ steps →
        collectProperties steps ty [] graph = .ok (fields, after)
  bases : ∀ ty < graph.definitions.size, ∃ parents after,
    Graph.bases ty graph = .ok (parents, after)
  /-- A symbol of the graph has a type. -/
  typeOfSymbol : ∀ symbol : Symbol, (∀ handle ∈ symbol.handles, handle < graph.definitions.size) →
    ∃ answer after, Graph.typeOfSymbol symbol graph = .ok (answer, after)
  /-- The type of a symbol of any other origin is looked for no longer. -/
  typeOfSymbol_ne : ∀ symbol : Symbol, Graph.typeOfSymbol symbol graph ≠ .error .exhausted
  /-- Substitution, on which the others rely, gives what it gives with any larger bound. -/
  substitute : ∀ pairs : Bindings,
    (∀ pair ∈ pairs, pair.1 < graph.definitions.size ∧ pair.2 < graph.definitions.size) →
    ∀ ty < graph.definitions.size, ∃ result after,
      Graph.substitute pairs ty graph = .ok (result, after) ∧
        ∀ steps, graph.definitions.size < steps →
          substituteIn pairs steps [] ty graph = .ok (result, after)

variable {base graph : Graph} {ty : Handle}

theorem exists_properties (hbase : base.Linked) (hgrown : Grown base graph)
    (hty : ty < graph.definitions.size) : ∃ fields after,
      properties ty graph = .ok (fields.map Prod.snd, after) ∧
        ∀ steps, 2 * graph.definitions.size + 2 ≤ steps →
          collectProperties steps ty [] graph = .ok (fields, after) := by
  obtain ⟨term, hterm⟩ := hgrown.exists_denotes hty
  obtain ⟨symbols, after, hquery, -⟩ := properties_gives hbase hgrown hterm
  obtain ⟨⟨fields, after'⟩, hfields, hsymbols⟩ := exists_of_bind_eq_ok hquery
  cases hsymbols
  exact ⟨fields, after, hquery, fun steps hsteps =>
    ExtendedBy.of_le (fun steps => collectProperties_succ steps ty []) hsteps _ _ hfields⟩

theorem exists_substitute (hbase : base.Linked) (hgrown : Grown base graph) {pairs : Bindings}
    (hpairs : ∀ pair ∈ pairs, pair.1 < graph.definitions.size ∧ pair.2 < graph.definitions.size)
    (hty : ty < graph.definitions.size) : ∃ result after,
      substitute pairs ty graph = .ok (result, after) ∧
        ∀ steps, graph.definitions.size < steps →
          substituteIn pairs steps [] ty graph = .ok (result, after) := by
  obtain ⟨term, hterm⟩ := hgrown.exists_denotes hty
  obtain ⟨pairs', hpairs'⟩ := hgrown.exists_binds hpairs
  obtain ⟨result, after, hquery, -⟩ := substitute_gives hbase hgrown hpairs' hterm
  exact ⟨result, after, hquery, fun steps hsteps =>
    ExtendedBy.of_le (fun steps => substituteIn_succ pairs steps [] ty) hsteps _ _ hquery⟩

/-- The type behind a symbol is found unless the symbol has a handle that is not there. -/
theorem typeOfSymbol_cases (hbase : base.Linked) (hgrown : Grown base graph) (symbol : Symbol) :
    (∃ answer after, typeOfSymbol symbol graph = .ok (answer, after)) ∨
      ∃ handle ∈ symbol.handles, graph.definitions.size ≤ handle ∧
        typeOfSymbol symbol graph = .error (.dangling handle) := by
  cases symbol with
  | type handle => exact .inl ⟨(handle, []), graph, rfl⟩
  | property owner name through =>
    by_cases hdeclares : graph.Declares owner name
    · by_cases hthrough : ∀ instantiation ∈ through, instantiation < graph.definitions.size
      · obtain ⟨symbol', hsymbol⟩ :=
          (Knows.property hdeclares hthrough).exists_denotes hgrown
        obtain ⟨answer, after, hquery, -⟩ := typeOfSymbol_gives hbase hgrown hsymbol
        exact .inl ⟨answer, after, hquery⟩
      · push Not at hthrough
        obtain ⟨instantiation, rfl, hdangling⟩ := hthrough
        exact .inr ⟨instantiation, List.mem_cons_of_mem _ List.mem_cons_self, hdangling,
          typeOfSymbol_of_dangling hdeclares hdangling⟩
    · rw [declares_iff_isSome, Option.not_isSome_iff_eq_none] at hdeclares
      obtain ⟨answer, after, hquery, -⟩ :=
        typeOfSymbol_gives_unknown hbase hgrown hdeclares through
      exact .inl ⟨answer, after, hquery⟩

/-- A graph that has grown from that of an accepted document answers. -/
theorem Grown.ends (hbase : base.Linked) (hgrown : Grown base graph) : graph.Ends where
  properties _ hty := exists_properties hbase hgrown hty
  bases ty hty := by
    obtain ⟨term, hterm⟩ := hgrown.exists_denotes hty
    obtain ⟨parents, after, hquery, -⟩ := bases_gives hbase hgrown hterm
    exact ⟨parents, after, hquery⟩
  typeOfSymbol symbol hsymbol := by
    refine (typeOfSymbol_cases hbase hgrown symbol).resolve_right ?_
    rintro ⟨handle, hmem, hdangling, -⟩
    exact Nat.not_lt.mpr hdangling (hsymbol handle hmem)
  typeOfSymbol_ne symbol h := by
    rcases typeOfSymbol_cases hbase hgrown symbol with ⟨answer, after, hquery⟩ | ⟨_, -, -, hquery⟩
    · cases h.symm.trans hquery
    · cases h.symm.trans hquery
  substitute _ hpairs _ hty := exists_substitute hbase hgrown hpairs hty

/-- The check of a document ends whatever its base types are: once its mentions are linked, each of
the walks along base types ends.  In every state that queries and resolutions leave an accepted
document's graph in, properties, base types and the types of members are answered for all its
types, those that were added and those that contain themselves included. -/
theorem queries_end (document : Document) :
    (∀ definitions,
      (document.types.mapM fun entry => document.link entry.1 entry.2) = .ok definitions →
      BaseWalk.visitAll definitions.toArray ≠ .exhausted ∧
        ∀ handle, BaseWalk.Ends definitions.toArray handle) ∧
    ∀ fresh graph, ofDocument document = .ok fresh → Reachable fresh graph → graph.Ends := by
  refine ⟨fun definitions hlinks => ?_, fun fresh graph haccepted hreachable => ?_⟩
  · have hlt : ∀ handle declaration,
        BaseWalk.declaration? definitions.toArray handle = some declaration →
        declaration < definitions.toArray.size :=
      fun _ _ => Document.declaration?_lt (forall₂_of_mapM hlinks)
    refine ⟨?_, BaseWalk.ends_of_lt hlt⟩
    rcases BaseWalk.visitAll_cases hlt with ⟨hclear, -⟩ | ⟨found, hcycle, -⟩
    · rw [hclear]
      nofun
    · rw [hcycle]
      nofun
  · have hbase := linked_of_ofDocument haccepted
    exact (hreachable.grown hbase).ends hbase

/-- A generic record with a generic base type and a member of its own kind, and an instantiation of
it with itself. -/
def knots : Document where
  types := [
    ("T", .opaqueType none),
    ("Cell", .object {
      symbol := some "Cell"
      interface := true
      bases := []
      parameters := ["T"]
      properties := [("item", "T")]
      members := [] }),
    ("Row", .object {
      symbol := some "Row"
      interface := true
      bases := ["Cell<T>"]
      parameters := ["T"]
      properties := [("rest", "Row<Cell<T>>")]
      members := [] }),
    ("Cell<T>", .reference "Cell" ["T"]),
    ("Row<Cell<T>>", .reference "Row" ["Cell<T>"]),
    ("Knot", .reference "Row" ["Knot"])]

/-- The graph of `knots`. -/
def knotsGraph : Graph where
  ids := ["T", "Cell", "Row", "Cell<T>", "Row<Cell<T>>", "Knot"]
  definitions := #[
    .opaqueType none,
    .object {
      symbol := some "Cell"
      interface := true
      bases := []
      parameters := [0]
      properties := [("item", 0)]
      members := [] },
    .object {
      symbol := some "Row"
      interface := true
      bases := [3]
      parameters := [0]
      properties := [("rest", 4)]
      members := [] },
    .reference 1 [0],
    .reference 2 [3],
    .reference 2 [5]]
  instances := [((1, [0]), 3), ((2, [3]), 4), ((2, [5]), 5)]
  unknown := none

/-- The graph of `knots` after the member `rest` of `Knot` has been asked for: its type is
`Row<Cell<Knot>>`. -/
def knotsGrown : Graph := (knotsGraph.addApplication 1 [5]).addApplication 2 [6]

/-- The walks over `ring` end, on a cycle.  The type that has been added to `knots` answers. -/
theorem queries_end_knots :
    (∃ definitions, (ring.types.mapM fun entry => ring.link entry.1 entry.2) = .ok definitions ∧
      BaseWalk.visitAll definitions.toArray ≠ .exhausted) ∧
    ofDocument knots = .ok knotsGraph ∧ Reachable knotsGraph knotsGrown ∧
      (∃ symbols after, properties 7 knotsGrown = .ok (symbols, after)) ∧
      (∃ parents after, bases 7 knotsGrown = .ok (parents, after)) ∧
      ∃ answer after, typeOfSymbol (.property 2 "rest" (some 7)) knotsGrown =
        .ok (answer, after) := by
  have haccepted : ofDocument knots = .ok knotsGraph := rfl
  have hreply : checker.reply (.memberType (.property 2 "rest" (some 5)) ⟨"", 0⟩) knotsGraph =
      .ok { answer := 7, world := knotsGrown } := rfl
  have hreachable := Reachable.asked _ .start hreply
  have hends := (queries_end knots).2 knotsGraph knotsGrown haccepted hreachable
  obtain ⟨_, after, hproperties, -⟩ := hends.properties 7 (by decide)
  exact ⟨⟨_, rfl, ((queries_end ring).1 _ rfl).1⟩, haccepted, hreachable,
    ⟨_, after, hproperties⟩, hends.bases 7 (by decide), hends.typeOfSymbol _ (by decide)⟩

end Graph

end GraphSchema
