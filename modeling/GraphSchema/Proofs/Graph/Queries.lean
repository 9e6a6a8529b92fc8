import Mathlib
import GraphSchema.Proofs.Graph.Naming

/-!
# What the queries of a grown graph give

`Graph.Gives` is the total-correctness triple for queries of a graph that has grown from an
accepted document: the query succeeds, the graph only grows, and answer and graph are in a given
relation.  The queries here only look at a definition, or add at most one type.  Each is matched
with the function on terms that gives its answer.
-/

namespace GraphSchema

section Agreement

variable {ι κ : Type} {related : ι → κ → Prop}

theorem Definition.Agrees.symbolName?_eq {definition : Definition ι} {other : Definition κ}
    (h : definition.Agrees related other) : definition.symbolName? = other.symbolName? := by
  cases h with
  | object h => exact h.symbol
  | _ => rfl

theorem Definition.Agrees.isInterface_eq {definition : Definition ι} {other : Definition κ}
    (h : definition.Agrees related other) : definition.isInterface = other.isInterface := by
  cases h with
  | object h => exact h.interface
  | _ => rfl

theorem isEmpty_eq_of_forall₂ {items : List ι} {others : List κ}
    (h : List.Forall₂ related items others) : items.isEmpty = others.isEmpty := by
  cases h <;> rfl

theorem keys_eq_of_forall₂ {fields : Fields ι} {others : Fields κ}
    (h : List.Forall₂ (fun entry other => entry.1 = other.1 ∧ related entry.2 other.2) fields
      others) : Fields.keys fields = Fields.keys others := by
  induction h with
  | nil => rfl
  | cons hhead _ ih => exact congrArg₂ List.cons hhead.1 ih

theorem forall₂_zip {items items' : List ι} {others others' : List κ}
    (h : List.Forall₂ related items others) (h' : List.Forall₂ related items' others') :
    List.Forall₂ (fun pair pair' => related pair.1 pair'.1 ∧ related pair.2 pair'.2)
      (items.zip items') (others.zip others') := by
  induction h generalizing items' others' with
  | nil => exact .nil
  | cons hhead _ ih =>
    cases h' with
    | nil => exact .nil
    | cons hhead' hrest' => exact .cons ⟨hhead, hhead'⟩ (ih hrest')

end Agreement

namespace Graph

variable {base graph graph' : Graph} {α β : Type}

/-! ## Triples -/

/-- A query succeeds, the graph only grows, and its answer is as related. -/
def Gives (base graph : Graph) (query : Query α) (related : Graph → α → Prop) : Prop :=
  ∃ answer graph', query graph = .ok (answer, graph') ∧ Grown base graph' ∧
    Later base graph graph' ∧ related graph' answer

variable {query : Query α} {related : Graph → α → Prop}

theorem Gives.pure {answer : α} (hgrown : Grown base graph) (h : related graph answer) :
    Gives base graph (Pure.pure answer) related :=
  ⟨answer, graph, rfl, hgrown, .refl _ _, h⟩

theorem Gives.bind {rest : α → Query β} {S : Graph → β → Prop}
    (h : Gives base graph query related)
    (hrest : ∀ graph' answer, Grown base graph' → Later base graph graph' →
      related graph' answer → Gives base graph' (rest answer) S) :
    Gives base graph (query >>= rest) S := by
  obtain ⟨answer, graph', hquery, hgrown, hlater, hrelated⟩ := h
  obtain ⟨last, graph'', hlast, hgrown', hlater', hS⟩ := hrest graph' answer hgrown hlater hrelated
  refine ⟨last, graph'', ?_, hgrown', hlater.trans hlater', hS⟩
  show (query graph).bind _ = _
  rw [hquery]
  exact hlast

/-- A query that only reads may be passed over. -/
theorem bind_of_reads {answer : α} (h : query graph = .ok (answer, graph)) (rest : α → Query β) :
    (query >>= rest) graph = rest answer graph := by
  show (query graph).bind _ = _
  rw [h]
  rfl

theorem Gives.of_reads {answer : α} {rest : α → Query β} {S : Graph → β → Prop}
    (h : query graph = .ok (answer, graph)) (hrest : Gives base graph (rest answer) S) :
    Gives base graph (query >>= rest) S := by
  rwa [Gives, bind_of_reads h]

theorem bind_get (rest : Graph → Query β) : (get >>= rest) graph = rest graph graph := rfl

theorem Gives.get {rest : Graph → Query β} {S : Graph → β → Prop}
    (h : Gives base graph (rest graph) S) : Gives base graph (MonadState.get >>= rest) S := h

theorem definition_reads {handle : Handle} {found : Definition Handle}
    (h : graph.definitions[handle]? = some found) :
    definition handle graph = .ok (found, graph) := by
  rw [definition, bind_get]
  rw [h]
  rfl

/-! ## Queries that read -/

section Reads

variable {handle : Handle} {term : Term}

/-- The definition behind a handle agrees with that behind its term. -/
theorem Grown.reads_definition (hbase : base.Linked) (hgrown : Grown base graph)
    (h : Denotes base graph handle term) :
    ∃ found, definition handle graph = .ok (found, graph) ∧
      found.Agrees (Denotes base graph) (term.definition base) := by
  obtain ⟨found, hfound, hagrees⟩ := hgrown.definition_agrees hbase h
  exact ⟨found, definition_reads hfound, hagrees⟩

theorem flags_reads (hbase : base.Linked) (hgrown : Grown base graph)
    (h : Denotes base graph handle term) :
    flags handle graph = .ok (term.flags base, graph) := by
  obtain ⟨found, hreads, hagrees⟩ := hgrown.reads_definition hbase h
  rw [flags, bind_of_reads hreads, Term.flags]
  generalize term.definition base = other at hagrees
  cases hagrees with
  | intrinsic kind => rfl
  | object hdecl =>
    dsimp only
    rw [← hdecl.interface, ← isEmpty_eq_of_forall₂ hdecl.parameters]
    rfl
  | tuple helements => rfl
  | reference htarget harguments =>
    obtain ⟨found', hreads', hagrees'⟩ := hgrown.reads_definition hbase htarget
    dsimp only
    rw [bind_of_reads hreads', hagrees'.isInterface_eq]
    rfl
  | opaqueType symbol => rfl

theorem intrinsic_reads (hbase : base.Linked) (hgrown : Grown base graph)
    (h : Denotes base graph handle term) :
    intrinsic handle graph = .ok (term.intrinsic base, graph) := by
  obtain ⟨found, hreads, hagrees⟩ := hgrown.reads_definition hbase h
  rw [intrinsic, bind_of_reads hreads, Term.intrinsic]
  generalize term.definition base = other at hagrees
  cases hagrees <;> rfl

theorem target_reads (hbase : base.Linked) (hgrown : Grown base graph)
    (h : Denotes base graph handle term) :
    ∃ answer, target handle graph = .ok (answer, graph) ∧
      Option.Rel (Denotes base graph) answer (term.target base) := by
  obtain ⟨found, hreads, hagrees⟩ := hgrown.reads_definition hbase h
  rw [target, bind_of_reads hreads, Term.target]
  generalize term.definition base = other at hagrees
  cases hagrees with
  | intrinsic kind => exact ⟨none, rfl, .none⟩
  | object hdecl =>
    dsimp only
    rw [← isEmpty_eq_of_forall₂ hdecl.parameters]
    split
    · exact ⟨none, rfl, .none⟩
    · exact ⟨some handle, rfl, .some h⟩
  | tuple helements => exact ⟨none, rfl, .none⟩
  | reference htarget harguments => exact ⟨some _, rfl, .some htarget⟩
  | opaqueType symbol => exact ⟨none, rfl, .none⟩

theorem arguments_reads (hbase : base.Linked) (hgrown : Grown base graph)
    (h : Denotes base graph handle term) :
    ∃ answer, arguments handle graph = .ok (answer, graph) ∧
      Option.Rel (List.Forall₂ (Denotes base graph)) answer (term.arguments base) := by
  obtain ⟨found, hreads, hagrees⟩ := hgrown.reads_definition hbase h
  rw [arguments, bind_of_reads hreads, Term.arguments]
  generalize term.definition base = other at hagrees
  cases hagrees with
  | intrinsic kind => exact ⟨none, rfl, .none⟩
  | object hdecl =>
    dsimp only
    rw [← isEmpty_eq_of_forall₂ hdecl.parameters]
    split
    · exact ⟨none, rfl, .none⟩
    · exact ⟨some _, rfl, .some hdecl.parameters⟩
  | tuple helements => exact ⟨some _, rfl, .some helements⟩
  | reference htarget harguments => exact ⟨some _, rfl, .some harguments⟩
  | opaqueType symbol => exact ⟨none, rfl, .none⟩

theorem basesOf_reads (hbase : base.Linked) (hgrown : Grown base graph)
    (h : Denotes base graph handle term) :
    ∃ answer, basesOf handle graph = .ok (answer, graph) ∧
      List.Forall₂ (Denotes base graph) answer (term.basesOf base) := by
  obtain ⟨found, hreads, hagrees⟩ := hgrown.reads_definition hbase h
  rw [basesOf, bind_of_reads hreads, Term.basesOf]
  generalize term.definition base = other at hagrees
  cases hagrees with
  | intrinsic kind => exact ⟨[], rfl, .nil⟩
  | object hdecl =>
    dsimp only [Definition.declaration?]
    rw [bind_of_reads hreads]
    exact ⟨_, rfl, hdecl.bases⟩
  | tuple helements => exact ⟨[], rfl, .nil⟩
  | reference htarget harguments =>
    obtain ⟨found', hreads', hagrees'⟩ := hgrown.reads_definition hbase htarget
    dsimp only [Definition.declaration?]
    rw [bind_of_reads hreads']
    generalize Term.definition base _ = other' at hagrees'
    cases hagrees' with
    | object hdecl => exact ⟨_, rfl, hdecl.bases⟩
    | _ => exact ⟨[], rfl, .nil⟩
  | opaqueType symbol => exact ⟨[], rfl, .nil⟩

/-- Bindings of handles are bindings of what the handles stand for. -/
def Binds (base graph : Graph) : Bindings → Term.Bindings → Prop :=
  List.Forall₂ fun pair pair' =>
    Denotes base graph pair.1 pair'.1 ∧ Denotes base graph pair.2 pair'.2

theorem bindings_reads (hbase : base.Linked) (hgrown : Grown base graph)
    (h : Denotes base graph handle term) :
    ∃ answer, bindings handle graph = .ok (answer, graph) ∧
      Binds base graph answer (term.bindings base) := by
  obtain ⟨found, hreads, hagrees⟩ := hgrown.reads_definition hbase h
  rw [bindings, bind_of_reads hreads, Term.bindings]
  generalize term.definition base = other at hagrees
  cases hagrees with
  | reference htarget harguments =>
    obtain ⟨found', hreads', hagrees'⟩ := hgrown.reads_definition hbase htarget
    dsimp only
    rw [bind_of_reads hreads']
    generalize Term.definition base _ = other' at hagrees'
    cases hagrees' with
    | object hdecl => exact ⟨_, rfl, forall₂_zip hdecl.parameters harguments⟩
    | _ => exact ⟨[], rfl, .nil⟩
  | _ => exact ⟨[], rfl, .nil⟩

/-- A symbol of a graph stands for a symbol of the answers about terms. -/
inductive SymbolDenotes (base graph : Graph) : Symbol → Term.Symbol → Prop where
  | type {handle : Handle} {term : Term} (h : Denotes base graph handle term) :
      SymbolDenotes base graph (.type handle) (.type term)
  | property {owner : Handle} {owner' : Term} {through : Option Handle} {through' : Option Term}
      (name : String) (howner : Denotes base graph owner owner')
      (hthrough : Option.Rel (Denotes base graph) through through') :
      SymbolDenotes base graph (.property owner name through) (.property owner' name through')

theorem SymbolDenotes.later {symbol : Symbol} {symbol' : Term.Symbol}
    (h : SymbolDenotes base graph symbol symbol') (hlater : Later base graph graph') :
    SymbolDenotes base graph' symbol symbol' := by
  cases h with
  | type h => exact .type (h.later hlater)
  | property name howner hthrough =>
    refine .property name (howner.later hlater) ?_
    cases hthrough with
    | none => exact .none
    | some h => exact .some (h.later hlater)

theorem symbol_reads (hbase : base.Linked) (hgrown : Grown base graph)
    (h : Denotes base graph handle term) :
    ∃ answer, symbol handle graph = .ok (answer, graph) ∧
      Option.Rel (SymbolDenotes base graph) answer (term.symbol base) := by
  have hnamed : ∀ {named : Option String} {handle : Handle} {term : Term},
      Denotes base graph handle term → Option.Rel (SymbolDenotes base graph)
        (named.map fun _ => .type handle) (named.map fun _ => .type term) := by
    intro named handle term h
    cases named with
    | none => exact .none
    | some name => exact .some (.type h)
  obtain ⟨found, hreads, hagrees⟩ := hgrown.reads_definition hbase h
  rw [symbol, bind_of_reads hreads, Term.symbol]
  generalize term.definition base = other at hagrees
  cases hagrees with
  | reference htarget harguments =>
    obtain ⟨found', hreads', hagrees'⟩ := hgrown.reads_definition hbase htarget
    dsimp only
    rw [bind_of_reads hreads', ← hagrees'.symbolName?_eq]
    exact ⟨_, rfl, hnamed htarget⟩
  | object hdecl =>
    refine ⟨_, rfl, ?_⟩
    dsimp only
    rw [← (Definition.Agrees.object hdecl).symbolName?_eq]
    exact hnamed h
  | opaqueType symbol => exact ⟨_, rfl, hnamed h⟩
  | _ => exact ⟨_, rfl, .none⟩

/-- The id of a type is that of its term. -/
theorem Grown.key_eq (hbase : base.Linked) (hgrown : Grown base graph)
    (h : Denotes base graph handle term) : graph.key handle = term.key base := by
  rw [key, hgrown.ids_eq]
  rcases hgrown.denotes_cases h with ⟨-, rfl⟩ | ⟨hle, hadded⟩
  · rfl
  · rw [List.getElem?_eq_none (hbase.size_eq.trans_le hle)]
    cases hadded <;> rfl

theorem symbolName_reads (hbase : base.Linked) (hgrown : Grown base graph) {symbol : Symbol}
    {symbol' : Term.Symbol} (h : SymbolDenotes base graph symbol symbol') :
    symbolName symbol graph = .ok (Term.symbolName base symbol', graph) := by
  cases h with
  | type h =>
    obtain ⟨found, hreads, hagrees⟩ := hgrown.reads_definition hbase h
    rw [symbolName, bind_of_reads hreads, bind_get, Term.symbolName,
      hagrees.symbolName?_eq, hgrown.key_eq hbase h]
    rfl
  | property name howner hthrough => rfl

theorem memberNames_reads (hbase : base.Linked) (hgrown : Grown base graph) {symbol : Symbol}
    {symbol' : Term.Symbol} (h : SymbolDenotes base graph symbol symbol') :
    memberNames symbol graph = .ok (Term.memberNames base symbol', graph) := by
  cases h with
  | type h =>
    obtain ⟨found, hreads, hagrees⟩ := hgrown.reads_definition hbase h
    rw [memberNames, bind_of_reads hreads, Term.memberNames]
    generalize Term.definition base _ = other at hagrees
    cases hagrees with
    | object hdecl =>
      dsimp only
      rw [← hdecl.members, ← keys_eq_of_forall₂ hdecl.properties]
      rfl
    | _ => rfl
  | property name howner hthrough => rfl

theorem get?_of_forall₂ {ι κ : Type} {related : ι → κ → Prop} {fields : Fields ι}
    {others : Fields κ}
    (h : List.Forall₂ (fun entry other => entry.1 = other.1 ∧ related entry.2 other.2) fields
      others) (name : String) :
    Option.Rel related (Fields.get? fields name) (Fields.get? others name) := by
  induction h with
  | nil => exact .none
  | @cons entry other _ _ hhead _ ih =>
    obtain ⟨key, value⟩ := entry
    obtain ⟨key', value'⟩ := other
    obtain ⟨rfl, hvalue⟩ := hhead
    rw [Fields.get?, Fields.get?]
    split
    · exact .some hvalue
    · exact ih

/-- A declared member has the type that is declared for the term of its owner. -/
theorem Grown.declared?_rel (hbase : base.Linked) (hgrown : Grown base graph)
    (h : Denotes base graph handle term) (name : String) :
    Option.Rel (Denotes base graph) (graph.declared? handle name) (term.declared? base name) := by
  obtain ⟨found, hfound, hagrees⟩ := hgrown.definition_agrees hbase h
  rw [declared?, Term.declared?, hfound]
  generalize term.definition base = other at hagrees
  cases hagrees with
  | object hdecl => exact get?_of_forall₂ hdecl.properties name
  | _ => exact .none

end Reads

/-! ## Queries that add a type -/

theorem instantiate_gives (hbase : base.Linked) (hgrown : Grown base graph) {target : Handle}
    {decl : ObjectDecl Handle} {arguments : List Handle} {terms : List Term}
    (htarget : base.definitions[target]? = some (.object decl))
    (hterms : List.Forall₂ (Denotes base graph) arguments terms) :
    Gives base graph (instantiate target arguments)
      fun graph' handle => Denotes base graph' handle (Term.instantiate base target terms) := by
  have hinterned := hgrown.interned hbase
  cases hlookup : graph.instances.lookup (target, arguments) with
  | some handle =>
    obtain ⟨others, hothers, hhandle⟩ := hinterned.found hlookup
    refine ⟨handle, graph, ?_, hgrown, .refl _ _, ?_⟩
    · rw [instantiate, bind_get, hlookup]
      rfl
    · rwa [forall₂_denotes_unique hterms hothers]
  | none =>
    have harguments : ∀ argument ∈ arguments, argument < graph.definitions.size := by
      intro argument hmem
      obtain ⟨place, hplace⟩ := List.mem_iff_getElem?.mp hmem
      obtain ⟨term, -, hterm⟩ := exists_getElem?_of_forall₂ hterms.flip hplace
      exact hgrown.lt_of_denotes hterm
    refine ⟨graph.definitions.size, graph.addApplication target arguments, ?_,
      hgrown.application htarget harguments hlookup, hgrown.later_addApplication _ _, ?_⟩
    · rw [instantiate, bind_get, hlookup]
      rfl
    · rw [hinterned.instantiate_eq_of_lookup hbase hgrown hterms hlookup]
      exact (hgrown.denotes_append_iff (hgrown.names_addApplication hterms)).mpr (.inr ⟨rfl, rfl⟩)

theorem unknownType_gives (hbase : base.Linked) (hgrown : Grown base graph) :
    Gives base graph unknownType fun graph' handle => Denotes base graph' handle .unknown := by
  cases hunknown : graph.unknown with
  | some handle =>
    refine ⟨handle, graph, ?_, hgrown, .refl _ _, (hgrown.interned hbase).unknown.mp hunknown⟩
    rw [unknownType, bind_get, hunknown]
    rfl
  | none =>
    refine ⟨graph.definitions.size, graph.addUnknown, ?_, hgrown.unknown hunknown,
      hgrown.later_addUnknown, ?_⟩
    · rw [unknownType, bind_get, hunknown]
      rfl
    · exact (hgrown.denotes_append_iff hgrown.names_addUnknown).mpr (.inr ⟨rfl, rfl⟩)

end Graph

end GraphSchema
