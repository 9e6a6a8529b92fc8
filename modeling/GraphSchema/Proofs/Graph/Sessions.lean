import Mathlib
import GraphSchema.Proofs.Fields
import GraphSchema.Proofs.Graph.Interning

/-!
# Sessions with a graph

A client of a graph looks types up by their ids, and then asks about what the graph has given out:
handles, symbols, and the handles within symbols.  Handles are places in a table that grows, and a
symbol names the object that declares it, so such a client could be told of a place that is not
there, or of a property that nobody declares.

**Main statement.**  `valid_of_session`: neither happens.  At every moment of a session all that has
been given out is there (`Given.Valid`), and every further question about it is answered, without a
notice, by more of the same kind.

Progress and preservation are one lemma for all questions, `answered_of_knows`.  That handles are
there comes from the terms, which only types in the table have; that properties are declared is
proved over terms, by induction on the walk along base types that collects them
(`Term.allListed_collectProperties`).
-/

namespace GraphSchema

/-! ## What questions and answers speak of -/

namespace Question

variable {τ σ ν : Type}

/-- The types that a question is about. -/
def types : Question τ σ ν → List τ
  | flags ty | intrinsic ty | symbol ty | properties ty | target ty | arguments ty | bases ty => [ty]
  | symbolName _ | memberNames _ | memberType _ _ | siteType _ | siteName _ => []

/-- The symbols that a question is about. -/
def symbols : Question τ σ ν → List σ
  | symbolName asked | memberNames asked | memberType asked _ => [asked]
  | _ => []

/-- The sites that a question is about; a member may be seen from anywhere. -/
def sites : Question τ σ ν → List ν
  | siteType node | siteName node => [node]
  | _ => []

/-- The types in an answer. -/
def answeredTypes : (question : Question τ σ ν) → question.Answer → List τ
  | target _, answer => answer.toList
  | arguments _, answer => answer.getD []
  | bases _, answer => answer.getD []
  | memberType _ _, answer => [answer]
  | siteType _, answer => [answer]
  | flags _, _ | intrinsic _, _ | symbol _, _ | symbolName _, _ | memberNames _, _
  | properties _, _ | siteName _, _ => []

/-- The symbols in an answer. -/
def answeredSymbols : (question : Question τ σ ν) → question.Answer → List σ
  | symbol _, answer => answer.toList
  | properties _, answer => answer
  | flags _, _ | intrinsic _, _ | symbolName _, _ | memberNames _, _ | target _, _
  | arguments _, _ | bases _, _ | memberType _ _, _ | siteType _, _ | siteName _, _ => []

end Question

namespace Graph

variable {base graph last : Graph} {owner handle : Handle} {name : String}
  {through : Option Handle} {symbol : Symbol}

/-- The handles within a symbol. -/
def Symbol.handles : Symbol → List Handle
  | type handle => [handle]
  | property owner _ through => owner :: through.toList

/-- An object of the graph declares a property of this name. -/
def Declares (graph : Graph) (owner : Handle) (name : String) : Prop :=
  ∃ decl, graph.definitions[owner]? = some (.object decl) ∧ name ∈ Fields.keys decl.properties

theorem declares_iff_isSome : graph.Declares owner name ↔ (graph.declared? owner name).isSome := by
  rw [declared?]
  constructor
  · rintro ⟨decl, hdecl, hname⟩
    rw [hdecl, Option.isSome_iff_ne_none]
    exact fun hnone => Fields.get?_eq_none_iff.mp hnone hname
  · intro h
    split at h
    · rename_i decl hdecl
      refine ⟨decl, hdecl, by_contra fun hname => ?_⟩
      rw [Fields.get?_eq_none_iff.mpr hname] at h
      cases h
    · cases h

/-- A symbol speaks of types that are there, and of a property that is declared. -/
inductive Knows (graph : Graph) : Symbol → Prop where
  | type {handle : Handle} (hlt : handle < graph.definitions.size) : Knows graph (.type handle)
  | property {owner : Handle} {name : String} {through : Option Handle}
      (howner : graph.Declares owner name)
      (hthrough : ∀ instantiation ∈ through, instantiation < graph.definitions.size) :
      Knows graph (.property owner name through)

theorem Declares.lt (h : graph.Declares owner name) : owner < graph.definitions.size := by
  obtain ⟨decl, hdecl, -⟩ := h
  obtain ⟨hlt, -⟩ := Array.getElem?_eq_some_iff.mp hdecl
  exact hlt

theorem Knows.lt_of_mem (h : graph.Knows symbol) (hmem : handle ∈ symbol.handles) :
    handle < graph.definitions.size := by
  cases h with
  | type hlt =>
    rw [Symbol.handles, List.mem_singleton] at hmem
    exact hmem ▸ hlt
  | property howner hthrough =>
    rw [Symbol.handles, List.mem_cons, Option.mem_toList] at hmem
    rcases hmem with rfl | hmem
    · exact howner.lt
    · exact hthrough handle hmem

/-! ## Symbols and their terms -/

namespace Term

/-- A property symbol is one of a property that its owner declares. -/
def Symbol.Listed (base : Graph) : Symbol → Prop
  | .type _ => True
  | .property owner name _ => (declared? base owner name).isSome

theorem listed_seenThrough {instantiation target : Term} {pairs : Bindings} {symbol : Symbol}
    (h : symbol.Listed base) : (seenThrough base instantiation target pairs symbol).Listed base := by
  cases symbol with
  | type ty => exact trivial
  | property owner name through => cases through <;> exact h

/-- All symbols that have been collected are of this kind. -/
def AllListed (base : Graph) (fields : Fields Symbol) : Prop :=
  ∀ entry ∈ fields, entry.2.Listed base

/-- The properties of a type are declared where they say, whatever base types and instantiations
they are collected through. -/
theorem allListed_collectProperties {steps : Nat} {term : Term} {known : Fields Symbol}
    (h : AllListed base known) : AllListed base (collectProperties base steps term known) := by
  induction steps generalizing term known with
  | zero => exact h
  | succ steps ih =>
    rw [collectProperties]
    split
    · rename_i decl hdecl
      refine List.foldlRecOn _ _ (List.foldlRecOn _ _ h fun _ h _ _ => ih h) ?_
      intro fields hfields property hproperty
      have hdeclared : (declared? base term property.1).isSome := by
        rw [declared?, hdecl, Option.isSome_iff_ne_none]
        intro hnone
        exact Fields.get?_eq_none_iff.mp hnone (List.mem_map_of_mem hproperty)
      exact Fields.forall_mem_put hfields hdeclared
    · rename_i target _ _
      have hinner : AllListed base (collectProperties base steps target []) :=
        ih (List.forall_mem_nil _)
      refine List.foldlRecOn _ _ h fun fields hfields entry hentry => ?_
      exact Fields.forall_mem_put hfields (listed_seenThrough (hinner entry hentry))
    · exact h

theorem listed_of_mem_properties {term : Term} {symbol : Symbol}
    (h : symbol ∈ term.properties base) : symbol.Listed base := by
  have hall : AllListed base (collectProperties base (2 * base.definitions.size + 3) term []) :=
    allListed_collectProperties (List.forall_mem_nil _)
  obtain ⟨entry, hentry, rfl⟩ := List.mem_map.mp h
  exact hall entry hentry

end Term

theorem Knows.exists_denotes (hgrown : Grown base graph) (h : graph.Knows symbol) :
    ∃ symbol', SymbolDenotes base graph symbol symbol' := by
  cases h with
  | type hlt =>
    obtain ⟨term, hterm⟩ := hgrown.exists_denotes hlt
    exact ⟨_, .type hterm⟩
  | @property owner name through howner hthrough =>
    obtain ⟨owner', howner'⟩ := hgrown.exists_denotes howner.lt
    cases through with
    | none => exact ⟨_, .property name howner' .none⟩
    | some instantiation =>
      obtain ⟨term, hterm⟩ := hgrown.exists_denotes (hthrough instantiation rfl)
      exact ⟨_, .property name howner' (.some hterm)⟩

theorem knows_of_denotes (hbase : base.Linked) (hgrown : Grown base graph) {symbol' : Term.Symbol}
    (h : SymbolDenotes base graph symbol symbol') (hlisted : symbol'.Listed base) :
    graph.Knows symbol := by
  cases h with
  | type h => exact .type (hgrown.lt_of_denotes h)
  | @property owner owner' through through' name howner hthrough =>
    have hdeclared := hgrown.declared?_rel hbase howner name
    refine .property (declares_iff_isSome.mpr ?_) ?_
    · change (Term.declared? base owner' name).isSome at hlisted
      generalize Term.declared? base owner' name = member', graph.declared? owner name = member
        at hdeclared hlisted
      cases hdeclared with
      | none => exact hlisted
      | some _ => rfl
    · cases hthrough with
      | none => exact nofun
      | some h =>
        rintro _ ⟨⟩
        exact hgrown.lt_of_denotes h

/-! ## Later graphs -/

theorem Grown.lt_later (hgrown : Grown base graph) (hgrown' : Grown base last)
    (hlater : Later base graph last) (h : handle < graph.definitions.size) :
    handle < last.definitions.size := by
  obtain ⟨term, hterm⟩ := hgrown.exists_denotes h
  exact hgrown'.lt_of_denotes (hterm.later hlater)

theorem Knows.later (hbase : base.Linked) (hgrown : Grown base graph) (hgrown' : Grown base last)
    (hlater : Later base graph last) (h : graph.Knows symbol) : last.Knows symbol := by
  cases h with
  | type hlt => exact .type (hgrown.lt_later hgrown' hlater hlt)
  | property howner hthrough =>
    obtain ⟨decl, hdecl, hname⟩ := howner
    refine .property ⟨decl, hgrown.definition_later hbase hgrown' hlater hdecl, hname⟩ ?_
    exact fun instantiation hmem => hgrown.lt_later hgrown' hlater (hthrough instantiation hmem)

/-! ## Answers -/

/-- A question is answered, without a notice, by types and symbols that are there. -/
def Answered (base graph : Graph) (question : Question Handle Symbol Site) : Prop :=
  ∃ reply, checker.reply question graph = .ok reply ∧ reply.notices = [] ∧
    Grown base reply.world ∧ Later base graph reply.world ∧
    (∀ ty ∈ question.answeredTypes reply.answer, ty < reply.world.definitions.size) ∧
    ∀ symbol ∈ question.answeredSymbols reply.answer, reply.world.Knows symbol

/-- What a query gives is an answer, if types and symbols in it are there. -/
theorem Gives.answered {question : Question Handle Symbol Site} {query : Query question.Answer}
    {related : Graph → question.Answer → Prop} (h : Gives base graph query related)
    (hreply : checker.reply question graph = quietly query graph)
    (htypes : ∀ last answer, Grown base last → related last answer →
      ∀ ty ∈ question.answeredTypes answer, ty < last.definitions.size)
    (hsymbols : ∀ last answer, Grown base last → related last answer →
      ∀ symbol ∈ question.answeredSymbols answer, last.Knows symbol) :
    Answered base graph question := by
  obtain ⟨answer, graph', hquery, hgrown, hlater, hrelated⟩ := h
  refine ⟨{ answer, world := graph' }, ?_, rfl, hgrown, hlater, htypes _ _ hgrown hrelated,
    hsymbols _ _ hgrown hrelated⟩
  rw [hreply]
  show (query graph).bind _ = _
  rw [hquery]
  rfl

/-- A query that only reads leaves the graph as it is. -/
theorem answered_of_read {question : Question Handle Symbol Site} {query : Query question.Answer}
    {answer : question.Answer} (hgrown : Grown base graph)
    (hquery : query graph = .ok (answer, graph))
    (hreply : checker.reply question graph = quietly query graph)
    (htypes : ∀ ty ∈ question.answeredTypes answer, ty < graph.definitions.size)
    (hsymbols : ∀ symbol ∈ question.answeredSymbols answer, graph.Knows symbol) :
    Answered base graph question := by
  refine ⟨{ answer, world := graph }, ?_, rfl, hgrown, .refl _ _, htypes, hsymbols⟩
  rw [hreply]
  show (query graph).bind _ = _
  rw [hquery]
  rfl

theorem Grown.lt_of_forall₂ (hgrown : Grown base graph) {handles : List Handle} {terms : List Term}
    (h : List.Forall₂ (Denotes base graph) handles terms) :
    ∀ handle ∈ handles, handle < graph.definitions.size := by
  intro handle hmem
  obtain ⟨term, -, hterm⟩ := exists_mem_of_forall₂ h.flip hmem
  exact hgrown.lt_of_denotes hterm

/-- Types that are listed or not, as in the answers about arguments and base types. -/
theorem Grown.lt_of_rel (hgrown : Grown base graph) {handles : Option (List Handle)}
    {terms : Option (List Term)}
    (h : Option.Rel (List.Forall₂ (Denotes base graph)) handles terms) :
    ∀ handle ∈ handles.getD [], handle < graph.definitions.size := by
  cases h with
  | none => exact nofun
  | some h => exact hgrown.lt_of_forall₂ h

theorem Term.listed_of_mem_symbol {term : Term} {symbol : Term.Symbol}
    (h : symbol ∈ term.symbol base) : symbol.Listed base := by
  have hmap : ∀ (named : Option String) (ty : Term),
      symbol ∈ named.map (fun _ => Term.Symbol.type ty) → symbol.Listed base := by
    intro named ty hmem
    obtain ⟨_, -, rfl⟩ := Option.map_eq_some_iff.mp hmem
    exact trivial
  rw [Term.symbol] at h
  split at h
  · exact hmap _ _ h
  · exact hmap _ _ h

/-- The type of a declared property is there, and there is nothing to report. -/
theorem answered_memberType (hbase : base.Linked) (hgrown : Grown base graph)
    (h : graph.Knows symbol) (node : Site) : Answered base graph (.memberType symbol node) := by
  obtain ⟨symbol', hsymbol⟩ := h.exists_denotes hgrown
  obtain ⟨⟨answer, notices⟩, graph', hquery, hgrown', hlater, hanswer⟩ :=
    typeOfSymbol_gives hbase hgrown hsymbol
  have hquiet : notices = [] := by
    cases h with
    | type _ =>
      cases hquery
      rfl
    | @property owner name through howner _ =>
      obtain ⟨member, hmember⟩ := Option.isSome_iff_exists.mp (declares_iff_isSome.mp howner)
      rw [typeOfSymbol, bind_get, hmember] at hquery
      cases through with
      | none =>
        cases hquery
        rfl
      | some instantiation =>
        obtain ⟨pairs, -, hsubstitute⟩ := exists_of_bind_eq_ok hquery
        obtain ⟨ty, -, hlast⟩ := exists_of_bind_eq_ok hsubstitute
        cases hlast
        rfl
  refine ⟨{ answer, world := graph', notices }, ?_, hquiet, hgrown', hlater, ?_,
    List.forall_mem_nil _⟩
  · show (typeOfSymbol symbol graph).bind _ = _
    rw [hquery]
    rfl
  · exact List.forall_mem_singleton.mpr (hgrown'.lt_of_denotes hanswer)

/-- **Progress and preservation.**  Every question about what is there is answered with what is
there. -/
theorem answered_of_knows (hbase : base.Linked) (hgrown : Grown base graph)
    {question : Question Handle Symbol Site}
    (htypes : ∀ ty ∈ question.types, ty < graph.definitions.size)
    (hsymbols : ∀ symbol ∈ question.symbols, graph.Knows symbol)
    (hsites : ∀ node ∈ question.sites, node.handle < graph.definitions.size) :
    Answered base graph question := by
  cases question with
  | flags ty =>
    obtain ⟨term, hterm⟩ := hgrown.exists_denotes (htypes ty List.mem_cons_self)
    exact answered_of_read hgrown (flags_reads hbase hgrown hterm) rfl nofun nofun
  | intrinsic ty =>
    obtain ⟨term, hterm⟩ := hgrown.exists_denotes (htypes ty List.mem_cons_self)
    exact answered_of_read hgrown (intrinsic_reads hbase hgrown hterm) rfl nofun nofun
  | symbol ty =>
    obtain ⟨term, hterm⟩ := hgrown.exists_denotes (htypes ty List.mem_cons_self)
    obtain ⟨answer, hreads, hrel⟩ := symbol_reads hbase hgrown hterm
    refine answered_of_read hgrown hreads rfl nofun fun symbol hmem => ?_
    obtain ⟨symbol', hmem', hsymbol⟩ : ∃ symbol' ∈ term.symbol base,
        SymbolDenotes base graph symbol symbol' := by
      cases Option.mem_toList.mp hmem
      generalize term.symbol base = found at hrel
      cases hrel with
      | some h => exact ⟨_, rfl, h⟩
    exact knows_of_denotes hbase hgrown hsymbol (Term.listed_of_mem_symbol hmem')
  | symbolName asked =>
    obtain ⟨symbol', hsymbol⟩ := (hsymbols asked List.mem_cons_self).exists_denotes hgrown
    exact answered_of_read hgrown (symbolName_reads hbase hgrown hsymbol) rfl nofun nofun
  | memberNames asked =>
    obtain ⟨symbol', hsymbol⟩ := (hsymbols asked List.mem_cons_self).exists_denotes hgrown
    exact answered_of_read hgrown (memberNames_reads hbase hgrown hsymbol) rfl nofun nofun
  | properties ty =>
    obtain ⟨term, hterm⟩ := hgrown.exists_denotes (htypes ty List.mem_cons_self)
    refine (properties_gives hbase hgrown hterm).answered rfl (fun _ _ _ _ => nofun) ?_
    intro last answer hgrown' hsymbols' symbol hmem
    obtain ⟨symbol', hmem', hsymbol⟩ := exists_mem_of_forall₂ hsymbols'.flip hmem
    exact knows_of_denotes hbase hgrown' hsymbol (Term.listed_of_mem_properties hmem')
  | target ty =>
    obtain ⟨term, hterm⟩ := hgrown.exists_denotes (htypes ty List.mem_cons_self)
    obtain ⟨answer, hreads, hrel⟩ := target_reads hbase hgrown hterm
    refine answered_of_read hgrown hreads rfl (fun handle hmem => ?_) nofun
    cases Option.mem_toList.mp hmem
    generalize term.target base = found at hrel
    cases hrel with
    | some h => exact hgrown.lt_of_denotes h
  | arguments ty =>
    obtain ⟨term, hterm⟩ := hgrown.exists_denotes (htypes ty List.mem_cons_self)
    obtain ⟨answer, hreads, hrel⟩ := arguments_reads hbase hgrown hterm
    exact answered_of_read hgrown hreads rfl (hgrown.lt_of_rel hrel) nofun
  | bases ty =>
    obtain ⟨term, hterm⟩ := hgrown.exists_denotes (htypes ty List.mem_cons_self)
    exact (bases_gives hbase hgrown hterm).answered rfl (fun _ _ hgrown' => hgrown'.lt_of_rel)
      fun _ _ _ _ => nofun
  | memberType asked node =>
    exact answered_memberType hbase hgrown (hsymbols asked List.mem_cons_self) node
  | siteType node =>
    have hlt := hsites node List.mem_cons_self
    exact answered_of_read hgrown rfl rfl (List.forall_mem_singleton.mpr hlt) nofun
  | siteName node => exact answered_of_read hgrown rfl rfl nofun nofun

/-! ## What a graph has given out -/

/-- What a client has been given by a graph. -/
structure Given where
  handles : Set Handle := ∅
  symbols : Set Symbol := ∅
  sites : Set Site := ∅

namespace Given

/-- A question is about nothing but what has been given out. -/
structure Allows (given : Given) (question : Question Handle Symbol Site) : Prop where
  types : ∀ ty ∈ question.types, ty ∈ given.handles
  symbols : ∀ symbol ∈ question.symbols, symbol ∈ given.symbols
  sites : ∀ node ∈ question.sites, node ∈ given.sites

/-- What has been given out when an answer is known as well.  A client may take the handles out of
a symbol. -/
def answered (given : Given) (question : Question Handle Symbol Site) (answer : question.Answer) :
    Given where
  handles := given.handles ∪ {handle | handle ∈ question.answeredTypes answer ∨
    ∃ symbol ∈ question.answeredSymbols answer, handle ∈ symbol.handles}
  symbols := given.symbols ∪ {symbol | symbol ∈ question.answeredSymbols answer}
  sites := given.sites

/-- All that has been given out is there. -/
structure Valid (given : Given) (graph : Graph) : Prop where
  /-- Handles, those within symbols included, are places in the table of definitions. -/
  handles : ∀ handle ∈ given.handles, handle < graph.definitions.size
  /-- The owner of a property symbol is an object that declares the property. -/
  symbols : ∀ symbol ∈ given.symbols, graph.Knows symbol
  sites : ∀ node ∈ given.sites, node.handle < graph.definitions.size

variable {given : Given}

theorem Valid.later (hbase : base.Linked) (hgrown : Grown base graph) (hgrown' : Grown base last)
    (hlater : Later base graph last) (h : given.Valid graph) : given.Valid last where
  handles handle hmem := hgrown.lt_later hgrown' hlater (h.handles handle hmem)
  symbols symbol hmem := (h.symbols symbol hmem).later hbase hgrown hgrown' hlater
  sites node hmem := hgrown.lt_later hgrown' hlater (h.sites node hmem)

/-- What is known with an answer is there if it was before and what is answered is. -/
theorem Valid.answered {question : Question Handle Symbol Site} {answer : question.Answer}
    (h : given.Valid graph)
    (htypes : ∀ ty ∈ question.answeredTypes answer, ty < graph.definitions.size)
    (hsymbols : ∀ symbol ∈ question.answeredSymbols answer, graph.Knows symbol) :
    (given.answered question answer).Valid graph where
  handles := by
    rintro handle (hmem | hmem | ⟨symbol, hsymbol, hmem⟩)
    · exact h.handles handle hmem
    · exact htypes handle hmem
    · exact (hsymbols symbol hsymbol).lt_of_mem hmem
  symbols := by
    rintro symbol (hmem | hmem)
    · exact h.symbols symbol hmem
    · exact hsymbols symbol hmem
  sites := h.sites

theorem Valid.exists_reply (hbase : base.Linked) (hgrown : Grown base graph)
    (h : given.Valid graph) {question : Question Handle Symbol Site}
    (hallowed : given.Allows question) :
    ∃ reply, checker.reply question graph = .ok reply ∧ reply.notices = [] ∧
      (given.answered question reply.answer).Valid reply.world := by
  obtain ⟨reply, hreply, hquiet, hgrown', hlater, htypes, hsymbols⟩ :=
    answered_of_knows hbase hgrown (fun ty hmem => h.handles ty (hallowed.types ty hmem))
      (fun symbol hmem => h.symbols symbol (hallowed.symbols symbol hmem))
      (fun node hmem => h.sites node (hallowed.sites node hmem))
  exact ⟨reply, hreply, hquiet, (h.later hbase hgrown hgrown' hlater).answered htypes hsymbols⟩

end Given

/-! ## Sessions -/

/-- A client has used a graph in this way so far, and this is what it has been given. -/
inductive Session (fresh : Graph) : Graph → Given → Prop where
  | start : Session fresh fresh {}
  /-- A type has been looked up by its id. -/
  | named {graph : Graph} {given : Given} {id : String} {handle : Handle}
      (h : Session fresh graph given) (hid : graph.handle? id = some handle) :
      Session fresh graph { given with handles := insert handle given.handles }
  /-- A site has been made of an id. -/
  | located {graph : Graph} {given : Given} {text : String} {node : Site}
      (h : Session fresh graph given) (hnode : graph.site text = .ok node) :
      Session fresh graph { given with sites := insert node given.sites }
  /-- A question about what has been given out has been answered. -/
  | asked {graph : Graph} {given : Given} {question : Question Handle Symbol Site}
      {reply : Reply Graph Handle question.Answer} (h : Session fresh graph given)
      (hallowed : given.Allows question) (hreply : checker.reply question graph = .ok reply) :
      Session fresh reply.world (given.answered question reply.answer)
  /-- Meanwhile the graph has been used otherwise: by other queries, or for resolutions. -/
  | elsewhere {graph later : Graph} {given : Given} (h : Session fresh graph given)
      (hlater : Reachable graph later) : Session fresh later given

theorem Grown.lt_of_handle? (hbase : base.Linked) (hgrown : Grown base graph) {id : String}
    (h : graph.handle? id = some handle) : handle < graph.definitions.size := by
  rw [handle?, List.idxOf?, List.findIdx?_eq_some_iff_getElem] at h
  obtain ⟨hlt, -⟩ := h
  rw [hgrown.ids_eq, hbase.size_eq] at hlt
  exact hlt.trans_le hgrown.size_le

/-- The run lemma: a session keeps the graph grown, and what it has been given valid. -/
theorem Session.grown_and_valid (hbase : base.Linked) {given : Given}
    (h : Session base graph given) : Grown base graph ∧ given.Valid graph := by
  induction h with
  | start => exact ⟨.start, nofun, nofun, nofun⟩
  | named _ hid ih =>
    obtain ⟨hgrown, hvalid⟩ := ih
    refine ⟨hgrown, ?_, hvalid.symbols, hvalid.sites⟩
    rintro handle (rfl | hmem)
    · exact hgrown.lt_of_handle? hbase hid
    · exact hvalid.handles handle hmem
  | located _ hnode ih =>
    obtain ⟨hgrown, hvalid⟩ := ih
    refine ⟨hgrown, hvalid.handles, hvalid.symbols, ?_⟩
    rintro node (rfl | hmem)
    · unfold site at hnode
      split at hnode
      · rename_i handle hid
        cases hnode
        exact hgrown.lt_of_handle? hbase hid
      · cases hnode
    · exact hvalid.sites node hmem
  | asked _ hallowed hreply ih =>
    obtain ⟨hgrown, hvalid⟩ := ih
    obtain ⟨reply, hreply', -, hvalid'⟩ := hvalid.exists_reply hbase hgrown hallowed
    cases hreply.symm.trans hreply'
    exact ⟨(hgrown.of_checker hbase hreply).1, hvalid'⟩
  | elsewhere _ hreachable ih =>
    obtain ⟨hgrown, hvalid⟩ := ih
    obtain ⟨hgrown', hlater⟩ := hreachable.later hbase hgrown
    exact ⟨hgrown', hvalid.later hbase hgrown hgrown' hlater⟩

/-- At every moment of a session over an accepted document, all that has been given out is there,
and every question about it is answered.  Nothing is reported with the answer, so no property comes
out as unknown, and what is answered is there as well. -/
theorem valid_of_session {document : Document} {fresh : Graph}
    (haccepted : ofDocument document = .ok fresh) {given : Given}
    (h : Session fresh graph given) :
    given.Valid graph ∧ ∀ question, given.Allows question →
      ∃ reply, checker.reply question graph = .ok reply ∧ reply.notices = [] ∧
        (given.answered question reply.answer).Valid reply.world := by
  have hbase := linked_of_ofDocument haccepted
  obtain ⟨hgrown, hvalid⟩ := h.grown_and_valid hbase
  exact ⟨hvalid, fun question hallowed => hvalid.exists_reply hbase hgrown hallowed⟩

/-- A client asks `Box<string>` for its properties and for the type of the one there is, which is
new in the graph, and can go on with that. -/
theorem valid_of_session_boxes :
    ∃ given, Session boxesGraph (boxesGraph.addApplication 1 [5]) given ∧ 6 ∈ given.handles ∧
      .property 1 "wrapped" (some 5) ∈ given.symbols ∧
      ∃ reply, checker.reply (.properties 6) (boxesGraph.addApplication 1 [5]) = .ok reply ∧
        reply.notices = [] ∧ (given.answered (.properties 6) reply.answer).Valid reply.world := by
  have haccepted : ofDocument boxes = .ok boxesGraph := rfl
  have hid : boxesGraph.handle? "Box<string>" = some 5 := rfl
  have hproperties : checker.reply (.properties 5) boxesGraph =
      .ok { answer := [.property 1 "wrapped" (some 5)], world := boxesGraph } := rfl
  have hmember : checker.reply (.memberType (.property 1 "wrapped" (some 5)) ⟨"", 0⟩) boxesGraph =
      .ok { answer := 6, world := boxesGraph.addApplication 1 [5] } := rfl
  have hnamed : Session boxesGraph boxesGraph { handles := {5} } := by
    simpa using Session.start.named hid
  have hlisted := hnamed.asked
    (by constructor <;> simp [Question.types, Question.symbols, Question.sites]) hproperties
  have hasked := hlisted.asked (by
    constructor <;> simp [Question.types, Question.symbols, Question.sites, Given.answered,
      Question.answeredSymbols]) hmember
  refine ⟨_, hasked, ?_, ?_, (valid_of_session haccepted hasked).2 (.properties 6) ?_⟩
  · simp [Given.answered, Question.answeredTypes]
  · simp [Given.answered, Question.answeredSymbols]
  · constructor <;> simp [Question.types, Question.symbols, Question.sites, Given.answered,
      Question.answeredTypes]

end Graph

end GraphSchema
