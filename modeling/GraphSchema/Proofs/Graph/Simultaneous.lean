import Mathlib
import GraphSchema.Proofs.Graph.Viewing

/-!
# Substitution is simultaneous

`Graph.substitute` walks through a graph that may contain itself and that grows under its hands.
It comes to an end in every state, whatever is bound (`substitute_gives`).  What it answers is
best said of unfoldings: there the bound parameters among the leaves are replaced, each by the
unfolding of the first argument that it is bound to, and what is put in is not looked into again.
Arguments that mention the parameters themselves are therefore not captured.

The walk was followed on terms (`Term.unfoldsTo_substitute`), where nothing grows.  Handles and
the terms that they stand for have agreeing unfoldings, in the graph before and in the graph
after, and that carries the result over.

**Main statement.** `substitute_simultaneous`.
-/

namespace GraphSchema.Graph

variable {base graph : Graph} {pairs : Bindings}

/-! ## Bindings and what they unfold to -/

/-- A term that no type is named by is not bound. -/
theorem Binds.lookup_eq_none {pairs' : Term.Bindings} (hpairs : Binds base graph pairs pairs')
    {key' : Term} (h : ∀ key, ¬ Denotes base graph key key') : pairs'.lookup key' = none := by
  refine List.lookup_eq_none_iff.mpr fun pair' hmem => bne_iff_ne.mpr ?_
  rintro rfl
  obtain ⟨pair, -, hkey, -⟩ := exists_mem_of_forall₂ hpairs hmem
  exact h _ hkey

/-- What the arguments of bindings unfold to, the terms that they stand for unfold to as well. -/
theorem Binds.exists_assigned (hbase : base.Linked) (hgrown : Grown base graph)
    {pairs' : Term.Bindings} (hpairs : Binds base graph pairs pairs')
    {σ : Handle → Option (Unfolding Handle)}
    (hσ : ∀ key, Option.Rel graph.UnfoldsTo (pairs.lookup key) (σ key)) :
    ∃ σ' : Term → Option (Unfolding Term),
      (∀ key', Option.Rel (Term.UnfoldsTo base) (pairs'.lookup key') (σ' key')) ∧
      ∀ {key key'}, Denotes base graph key key' →
        Option.Rel (Unfolding.Agrees (Denotes base graph)) (σ key) (σ' key') := by
  have hassigned : ∀ key', ∃ tree',
      Option.Rel (Term.UnfoldsTo base) (pairs'.lookup key') tree' ∧
      ∀ key, Denotes base graph key key' →
        Option.Rel (Unfolding.Agrees (Denotes base graph)) (σ key) tree' := by
    intro key'
    by_cases hdenoted : ∃ key, Denotes base graph key key'
    · obtain ⟨key, hkey⟩ := hdenoted
      obtain ⟨tree', hterm, hagrees⟩ : ∃ tree',
          Option.Rel (Term.UnfoldsTo base) (pairs'.lookup key') tree' ∧
          Option.Rel (Unfolding.Agrees (Denotes base graph)) (σ key) tree' := by
        have hlookup := hpairs.lookup_rel hbase hgrown hkey
        have htree := hσ key
        generalize pairs.lookup key = argument, σ key = tree at hlookup htree
        generalize pairs'.lookup key' = argument' at hlookup ⊢
        cases hlookup with
        | none =>
          cases htree
          exact ⟨none, .none, .none⟩
        | some hargument =>
          cases htree with | some htree
          obtain ⟨tree', hterm, hagrees⟩ := hgrown.exists_term_unfoldsTo hbase hargument htree
          exact ⟨some tree', .some hterm, .some hagrees⟩
      refine ⟨tree', hterm, fun other hother => ?_⟩
      rwa [(hgrown.interned hbase).denotes_inj hother hkey]
    · have hfree : ∀ key, ¬ Denotes base graph key key' := fun key hkey => hdenoted ⟨key, hkey⟩
      refine ⟨none, ?_, fun key hkey => absurd hkey (hfree key)⟩
      rw [hpairs.lookup_eq_none hfree]
      exact .none
  choose σ' hσ' hagrees using hassigned
  exact ⟨σ', hσ', fun hkey => hagrees _ _ hkey⟩

/-- Types that are no instantiations are named by terms that are none. -/
theorem Binds.leavesBound (hbase : base.Linked) (hgrown : Grown base graph)
    {pairs' : Term.Bindings} (hpairs : Binds base graph pairs pairs')
    (hleaves : ∀ pair ∈ pairs, ∀ target arguments,
      graph.definitions[pair.1]? ≠ some (.reference target arguments)) :
    Term.LeavesBound base pairs' := by
  intro pair' hmem' target arguments heq
  obtain ⟨pair, hmem, hkey, -⟩ := exists_mem_of_forall₂ hpairs hmem'
  obtain ⟨found, hfound, hagrees⟩ := hgrown.definition_agrees hbase hkey
  rw [heq] at hagrees
  obtain ⟨target', arguments', rfl, -, -⟩ := hagrees.exists_reference
  exact hleaves pair hmem target' arguments' hfound

/-- Types that are there are bound as their terms are. -/
theorem Grown.exists_binds (hgrown : Grown base graph)
    (hpairs : ∀ pair ∈ pairs, pair.1 < graph.definitions.size ∧
      pair.2 < graph.definitions.size) : ∃ pairs', Binds base graph pairs pairs' := by
  refine exists_forall₂ fun pair hmem => ?_
  obtain ⟨key, hkey⟩ := hgrown.exists_denotes (hpairs pair hmem).1
  obtain ⟨argument, hargument⟩ := hgrown.exists_denotes (hpairs pair hmem).2
  exact ⟨(key, argument), hkey, hargument⟩

/-- What lookups find in bindings unfolds where no reference under it reaches itself. -/
theorem exists_assigned_of_acyclicBelow (hbase : base.Linked) (hgrown : Grown base graph)
    (hpairs : ∀ pair ∈ pairs, pair.2 < graph.definitions.size)
    (hacyclic : ∀ pair ∈ pairs, graph.AcyclicBelow pair.2) :
    ∃ σ : Handle → Option (Unfolding Handle),
      ∀ key, Option.Rel graph.UnfoldsTo (pairs.lookup key) (σ key) := by
  have hassigned : ∀ key, ∃ tree, Option.Rel graph.UnfoldsTo (pairs.lookup key) tree := by
    intro key
    cases hlookup : pairs.lookup key with
    | none => exact ⟨none, .none⟩
    | some argument =>
      obtain ⟨before, after, happend, -⟩ := List.lookup_eq_some_iff.mp hlookup
      have hmem : (key, argument) ∈ pairs := by
        rw [happend]
        exact List.mem_append_right _ List.mem_cons_self
      obtain ⟨tree, htree⟩ :=
        (hacyclic _ hmem).exists_unfoldsTo hbase hgrown (hpairs _ hmem)
      exact ⟨some tree, .some htree⟩
  choose σ hσ using hassigned
  exact ⟨σ, hσ⟩

/-! ## Types without bound parameters -/

section Unbound

variable {items results : List Handle} {after : Graph}

/-- Queries that answer what they are asked about and add nothing. -/
theorem mapM_eq_self {query : Handle → Query Handle}
    (hquery : ∀ item ∈ items, ∀ {result after}, query item graph = .ok (result, after) →
      result = item ∧ after = graph)
    (h : items.mapM query graph = .ok (results, after)) : results = items ∧ after = graph := by
  induction items generalizing results after with
  | nil =>
    cases h
    exact ⟨rfl, rfl⟩
  | cons item rest ih =>
    obtain ⟨hitem, hrest⟩ := List.forall_mem_cons.mp hquery
    rw [List.mapM_cons] at h
    obtain ⟨⟨result, graph₁⟩, hfirst, -⟩ := exists_of_bind_eq_ok h
    obtain ⟨rfl, rfl⟩ := hitem hfirst
    rw [bind_of_reads hfirst] at h
    obtain ⟨⟨others, graph₂⟩, hothers, -⟩ := exists_of_bind_eq_ok h
    obtain ⟨rfl, rfl⟩ := ih hrest hothers
    rw [bind_of_reads hothers] at h
    cases h
    exact ⟨rfl, rfl⟩

/-- Where no bound parameter occurs, the walk comes back with the type that it started from. -/
theorem substituteIn_eq_self {steps : Nat} {path : List Handle} {ty result : Handle}
    (hfree : ∀ pair ∈ pairs, ¬ Relation.ReflTransGen graph.HasArgument ty pair.1)
    (h : substituteIn pairs steps path ty graph = .ok (result, after)) :
    result = ty ∧ after = graph := by
  induction steps generalizing path ty result after with
  | zero => cases h
  | succ steps ih =>
    have hlookup : pairs.lookup ty = none := by
      refine List.lookup_eq_none_iff.mpr fun pair hmem => bne_iff_ne.mpr ?_
      rintro rfl
      exact hfree pair hmem .refl
    rw [substituteIn, hlookup] at h
    dsimp only at h
    cases hdefinition : graph.definitions[ty]? with
    | none =>
      have herror : definition ty graph = .error (.dangling ty) := by
        rw [definition, bind_get, hdefinition]
        rfl
      rw [bind_of_error herror] at h
      cases h
    | some found =>
      rw [bind_of_reads (definition_reads hdefinition)] at h
      cases found with
      | reference target arguments =>
        dsimp only at h
        split at h
        · cases h
          exact ⟨rfl, rfl⟩
        · obtain ⟨⟨replaced, graph₁⟩, hreplaced, -⟩ := exists_of_bind_eq_ok h
          -- The arguments are looked into in the graph as it is, since none of them adds a type.
          obtain ⟨rfl, rfl⟩ := mapM_eq_self (fun argument hmem _ _ hargument =>
            ih (fun pair hpair hreaches => hfree pair hpair
              (.head ⟨target, arguments, hdefinition, hmem⟩ hreaches)) hargument) hreplaced
          rw [bind_of_reads hreplaced, if_pos rfl] at h
          cases h
          exact ⟨rfl, rfl⟩
      | _ =>
        cases h
        exact ⟨rfl, rfl⟩

end Unbound

/-! ## Substitution in any state -/

variable {document : Document} {fresh : Graph} {ty : Handle}

/-- Substitution comes to an end in every state that queries and resolutions leave an accepted
document's graph in, also where instantiations contain themselves.  Where no instantiation is
bound, and no reference under the type or under an argument reaches itself, the answer unfolds to
what the type unfolds to, with every leaf that is bound replaced by what the first argument for it
unfolds to.  Where no bound type occurs, the type is answered as it is and nothing is added. -/
theorem substitute_simultaneous (haccepted : ofDocument document = .ok fresh)
    (hgraph : Reachable fresh graph) (hty : ty < graph.definitions.size)
    (hpairs : ∀ pair ∈ pairs, pair.1 < graph.definitions.size ∧
      pair.2 < graph.definitions.size)
    (hleaves : ∀ pair ∈ pairs, ∀ target arguments,
      graph.definitions[pair.1]? ≠ some (.reference target arguments)) :
    ∃ result after, substitute pairs ty graph = .ok (result, after) ∧
      (graph.AcyclicBelow ty → (∀ pair ∈ pairs, graph.AcyclicBelow pair.2) →
        ∃ tree σ, graph.UnfoldsTo ty tree ∧
          (∀ key, Option.Rel graph.UnfoldsTo (pairs.lookup key) (σ key)) ∧
          after.UnfoldsTo result (tree.substitute σ)) ∧
      ((∀ pair ∈ pairs, ¬ Relation.ReflTransGen graph.HasArgument ty pair.1) →
        result = ty ∧ after = graph) := by
  have hbase := linked_of_ofDocument haccepted
  have hgrown := hgraph.grown hbase
  obtain ⟨term, hterm⟩ := hgrown.exists_denotes hty
  obtain ⟨pairs', hpairs'⟩ := hgrown.exists_binds hpairs
  obtain ⟨result, after, hquery, hafter, hlater, hresult⟩ :=
    substitute_gives hbase hgrown hpairs' hterm
  refine ⟨result, after, hquery, fun hacyclic hacyclic' => ?_, fun hfree => ?_⟩
  · obtain ⟨tree, htree⟩ := hacyclic.exists_unfoldsTo hbase hgrown hty
    obtain ⟨σ, hσ⟩ := exists_assigned_of_acyclicBelow hbase hgrown
      (fun pair hmem => (hpairs pair hmem).2) hacyclic'
    refine ⟨tree, σ, htree, hσ, ?_⟩
    obtain ⟨tree', htree', hagrees⟩ := hgrown.exists_term_unfoldsTo hbase hterm htree
    obtain ⟨σ', hσ', hassigned⟩ := hpairs'.exists_assigned hbase hgrown hσ
    have hsubstituted : Term.UnfoldsTo fresh (term.substitute fresh pairs')
        (tree'.substitute σ') :=
      Term.unfoldsTo_substitute hbase hσ' (hpairs'.leavesBound hbase hgrown hleaves) htree'
    obtain ⟨last, hlast, hagrees'⟩ := hafter.exists_unfoldsTo hbase hresult hsubstituted
    have hboth : (tree.substitute σ).Agrees (Denotes fresh after) (tree'.substitute σ') :=
      (hagrees.substitute hassigned).imp fun h => h.later hlater
    rwa [hboth.left_unique hagrees' (hafter.interned hbase).denotes_inj]
  · exact substituteIn_eq_self hfree hquery

/-- With `Row<Cell<T>>` for `T`, `Row<Cell<T>>` becomes `Row<Cell<Row<Cell<T>>>>`.  The parameter
in what is put in stays. -/
theorem substitute_simultaneous_grid :
    ofDocument grid = .ok gridGraph ∧
      (∀ target arguments, gridGraph.definitions[0]? ≠ some (.reference target arguments)) ∧
      gridGraph.AcyclicBelow 4 ∧
      ∃ result after, substitute [(0, 4)] 4 gridGraph = .ok (result, after) ∧
        after.UnfoldsTo result (.node 3 [.node 1 [.node 3 [.node 1 [.leaf 0]]]]) := by
  have haccepted : ofDocument grid = .ok gridGraph := rfl
  have hparameter : ∀ target arguments,
      gridGraph.definitions[0]? ≠ some (.reference target arguments) := nofun
  have hacyclic : gridGraph.AcyclicBelow 4 := fun place _ => wellScoped_gridGraph.acyclic place
  have hrow : gridGraph.UnfoldsTo 4 (.node 3 [.node 1 [.leaf 0]]) :=
    .node rfl (.cons (.node rfl (.cons (.leaf rfl nofun) .nil)) .nil)
  have hpairs : ∀ pair ∈ ([(0, 4)] : Bindings), pair.1 < gridGraph.definitions.size ∧
      pair.2 < gridGraph.definitions.size := by decide
  obtain ⟨result, after, hquery, hunfolds, -⟩ :=
    substitute_simultaneous haccepted .start (by decide : 4 < gridGraph.definitions.size) hpairs
      (List.forall_mem_singleton.mpr hparameter)
  refine ⟨haccepted, hparameter, hacyclic, result, after, hquery, ?_⟩
  obtain ⟨tree, σ, htree, hσ, hresult⟩ :=
    hunfolds hacyclic (List.forall_mem_singleton.mpr hacyclic)
  obtain rfl := htree.unique hrow
  have hassigned : σ 0 = some (.node 3 [.node 1 [.leaf 0]]) := by
    have hbound : Option.Rel gridGraph.UnfoldsTo (some 4) (σ 0) := hσ 0
    cases hσ₀ : σ 0 with
    | none =>
      rw [hσ₀] at hbound
      cases hbound
    | some other =>
      rw [hσ₀, Option.rel_some_some] at hbound
      rw [hbound.unique hrow]
  simpa [Unfolding.substitute, hassigned] using hresult

end GraphSchema.Graph
