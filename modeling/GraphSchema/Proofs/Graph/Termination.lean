import Mathlib
import GraphSchema.Proofs.Graph.Answering
import GraphSchema.Proofs.Graph.Declarations
import GraphSchema.Proofs.Resolution.Reach

/-!
# When resolutions over a type graph come to an end

Where instantiations are resolved by their own members, base types carry the arguments of the
type that they are looked up for.  A base type that is a parameter of the object that lists it
then stands for whatever type the argument is, which the check for acyclic base types does not
look at, and the argument may be larger at every turn.  `ladder` is a document of that kind: the
resolution of its `Grow<T>` comes to no end, at no nesting (`outcome_ladder_eq_exhausted`).

A resolution over an accepted document ends exactly where its type reaches finitely many types,
and where no object lists one of its own parameters among its base types all of them do
(`exists_outcome_iff_finite`).  In the second case substitution keeps the object behind a base
type (`Term.declaration?_of_mem_baseTypes`), so the ways along base types are those that the
check has walked.
-/

namespace GraphSchema.Graph

variable {base : Graph}

/-- Ways along base types are as short as the walk that has checked them. -/
theorem finite_reaches_of_noParameterBases (hbase : base.Linked) (hfree : base.NoParameterBases)
    (location : Site) (limit : Nat) (avoid : List Term) (term : Term) :
    {other | (Term.answers base).Reaches location avoid limit term other}.Finite := by
  induction limit generalizing avoid term with
  | zero =>
    refine Set.Finite.subset Set.finite_empty fun other hother => ?_
    cases hother
  | succ limit ih =>
    have hparents : ∀ {term parent : Term}, parent ∈ (Term.answers base).parents term →
        ∃ declaration handle, term.declaration? base = some declaration ∧
          handle ∈ BaseWalk.basesOf base.definitions declaration ∧
          parent.declaration? base = BaseWalk.declaration? base.definitions handle :=
      fun h => Term.declaration?_of_mem_baseTypes hbase (hfree.unbound _)
        (Answers.parents_subset_baseTypes _ _ h)
    have hwalk : ∀ (walk : Nat) (avoid : List Term) (term : Term),
        (∀ declaration handle, term.declaration? base = some declaration →
          handle ∈ BaseWalk.basesOf base.definitions declaration →
          ∃ path, BaseWalk.visit base.definitions walk path handle = .clear) →
        {other | (Term.answers base).Reaches location avoid (limit + 1) term other}.Finite := by
      intro walk
      induction walk with
      | zero =>
        intro avoid term hclear
        refine Answers.finite_reaches (fun parent hparent => ?_) fun part _ => ih _ part
        obtain ⟨declaration, handle, hdeclaration, hmem, -⟩ := hparents hparent
        obtain ⟨path, hvisit⟩ := hclear declaration handle hdeclaration hmem
        cases hvisit
      | succ walk ihwalk =>
        intro avoid term hclear
        refine Answers.finite_reaches (fun parent hparent => ?_) fun part _ => ih _ part
        obtain ⟨declaration, handle, hdeclaration, hmem, hparent'⟩ := hparents hparent
        obtain ⟨path, hvisit⟩ := hclear declaration handle hdeclaration hmem
        refine ihwalk _ parent fun declaration' handle' hdeclaration' hmem' => ?_
        rw [hparent'] at hdeclaration'
        exact ⟨_, BaseWalk.visit_eq_clear_of_mem hvisit hdeclaration' hmem'⟩
    refine hwalk (base.definitions.size + 1) avoid term fun declaration handle _ hmem => ?_
    refine ⟨[], hbase.clear handle ?_⟩
    unfold BaseWalk.basesOf at hmem
    split at hmem
    · rename_i decl hdecl
      exact hbase.lt_of_mem_bases hdecl hmem
    · cases hmem

/-! ## Ends -/

/-- A resolution ends where the value of its type does. -/
theorem exists_outcome_iff_exists_isSome (hbase : base.Linked) {node : Site}
    (hnode : node.handle < base.definitions.size) (options : Options) :
    (∃ fuel schema, (Resolver.shipped checker options).outcome fuel node base = .ok schema) ↔
      ∃ fuel, ((Term.answers base).siteValue Registry.shipped options fuel node).isSome := by
  refine exists_congr fun fuel => ?_
  rw [Option.isSome_iff_exists]
  exact exists_congr fun schema => outcome_eq_ok_iff hbase .start hnode

theorem exists_isSome_iff_finite_reaches {node : Site} (maxDepth : Nat) :
    (∃ fuel, ((Term.answers base).siteValue Registry.shipped ⟨.instantiated, maxDepth⟩ fuel
        node).isSome) ↔
      {term | (Term.answers base).Reaches node [] maxDepth (.declared node.handle) term}.Finite :=
  Answers.exists_isSome_iff_finite rfl fun _ => Term.intrinsic_eq_none_of_object

/-- With instantiations resolved by their own members, the resolution of a declared type comes to
an end exactly where the type reaches finitely many types, whatever the nesting limit.  It does
so for all types of a document in which no object lists one of its own parameters among its base
types. -/
theorem exists_outcome_iff_finite {document : Document} {graph : Graph}
    (haccepted : ofDocument document = .ok graph) {text : String} {node : Site}
    (hnode : graph.site text = .ok node) (maxDepth : Nat) :
    ((∃ fuel schema, (Resolver.shipped checker ⟨.instantiated, maxDepth⟩).outcome fuel node
        graph = .ok schema) ↔
      {term | (Term.answers graph).Reaches node [] maxDepth (.declared node.handle)
        term}.Finite) ∧
    (graph.NoParameterBases →
      ∃ fuel schema, (Resolver.shipped checker ⟨.instantiated, maxDepth⟩).outcome fuel node
        graph = .ok schema) := by
  have hbase := linked_of_ofDocument haccepted
  have hiff := (exists_outcome_iff_exists_isSome hbase (site_handle_lt hbase hnode)
    ⟨.instantiated, maxDepth⟩).trans (exists_isSome_iff_finite_reaches maxDepth)
  exact ⟨hiff, fun hfree => hiff.mpr (finite_reaches_of_noParameterBases hbase hfree _ _ _ _)⟩

/-- A document whose base types grow: `Grow<X>` has the base type `Pass<Grow<Grow<X>>>`, and
`Pass<Y>` has the base type `Y`. -/
def ladder : Document where
  types := [
    ("T", .opaqueType none),
    ("Pass", .object {
      symbol := some "Pass"
      interface := true
      bases := ["T"]
      parameters := ["T"]
      properties := []
      members := [] }),
    ("Grow", .object {
      symbol := some "Grow"
      interface := true
      bases := ["Pass<Grow<Grow<T>>>"]
      parameters := ["T"]
      properties := []
      members := [] }),
    ("Grow<T>", .reference "Grow" ["T"]),
    ("Grow<Grow<T>>", .reference "Grow" ["Grow<T>"]),
    ("Pass<Grow<Grow<T>>>", .reference "Pass" ["Grow<Grow<T>>"])]

/-- The graph of `ladder`. -/
def ladderGraph : Graph where
  ids := ["T", "Pass", "Grow", "Grow<T>", "Grow<Grow<T>>", "Pass<Grow<Grow<T>>>"]
  definitions := #[
    .opaqueType none,
    .object {
      symbol := some "Pass"
      interface := true
      bases := [0]
      parameters := [0]
      properties := []
      members := [] },
    .object {
      symbol := some "Grow"
      interface := true
      bases := [5]
      parameters := [0]
      properties := []
      members := [] },
    .reference 2 [0],
    .reference 2 [3],
    .reference 1 [4]]
  instances := [((2, [0]), 3), ((2, [3]), 4), ((1, [4]), 5)]
  unknown := none

/-- `Grow` around a type, so many times. -/
def rung (inner : Term) : Nat → Term
  | 0 => inner
  | steps + 1 => .applied 2 [rung inner steps]

theorem rung_succ (inner : Term) (steps : Nat) :
    rung (.applied 2 [inner]) steps = rung inner (steps + 1) := by
  induction steps with
  | zero => rfl
  | succ steps ih => exact congrArg (fun term => Term.applied 2 [term]) ih

theorem rung_injective (inner : Term) : Function.Injective (rung inner) := by
  have hmono : StrictMono fun steps => sizeOf (rung inner steps) := by
    refine strictMono_nat_of_lt_succ fun steps => ?_
    simp only [rung, Term.applied.sizeOf_spec, List.cons.sizeOf_spec]
    omega
  exact fun _ _ h => hmono.injective (congrArg sizeOf h)

theorem parents_grow (target : Handle) (arguments : List Term) :
    (Term.answers ladderGraph).parents (.applied 2 [.applied target arguments]) =
      [.applied 1 [.applied 2 [.applied 2 [.applied target arguments]]]] := by
  rfl

theorem parents_pass (target : Handle) (arguments : List Term) :
    (Term.answers ladderGraph).parents (.applied 1 [.applied target arguments]) =
      [.applied target arguments] := by
  rfl

/-- Every step up the ladder is two base types away from the one below. -/
theorem reaches_rung (location : Site) (limit steps target : Nat) (arguments : List Term) :
    (Term.answers ladderGraph).Reaches location [] (limit + 1)
      (.applied 2 [.applied target arguments])
      (rung (.applied 2 [.applied target arguments]) steps) := by
  induction steps generalizing target arguments with
  | zero => exact .here List.not_mem_nil
  | succ steps ih =>
    have hgrow := parents_grow target arguments
    have hpass := parents_pass 2 [.applied 2 [.applied target arguments]]
    refine .parent List.not_mem_nil (hgrow ▸ List.mem_singleton_self _)
      (.parent List.not_mem_nil (hpass ▸ List.mem_singleton_self _) ?_)
    rw [← rung_succ]
    exact ih 2 [.applied target arguments]

/-- The types that `Grow<T>` reaches have no bound. -/
theorem infinite_reaches_ladder (location : Site) (limit : Nat) :
    {term | (Term.answers ladderGraph).Reaches location [] (limit + 1) (.declared 3)
      term}.Infinite := by
  have hinjective := rung_injective (.applied 2 [.applied 2 [.declared 4]])
  refine Set.infinite_of_injective_forall_mem hinjective fun steps => ?_
  have hparent : ∀ {ty parent other : Term},
      (Term.answers ladderGraph).parents ty = [parent] →
      (Term.answers ladderGraph).Reaches location [] (limit + 1) parent other →
      (Term.answers ladderGraph).Reaches location [] (limit + 1) ty other :=
    fun hparents h => .parent List.not_mem_nil (hparents ▸ List.mem_singleton_self _) h
  -- The first steps are among the declared types, and from then on each one is added.
  have hdeclared : (Term.answers ladderGraph).parents (.declared 3) = [.declared 5] := rfl
  have hpass : (Term.answers ladderGraph).parents (.declared 5) = [.declared 4] := rfl
  have hgrow : (Term.answers ladderGraph).parents (.declared 4) =
      [.applied 1 [.applied 2 [.declared 4]]] := rfl
  have hnext : (Term.answers ladderGraph).parents (.applied 2 [.declared 4]) =
      [.applied 1 [.applied 2 [.applied 2 [.declared 4]]]] := rfl
  exact hparent hdeclared (hparent hpass (hparent hgrow (hparent (parents_pass _ _)
    (hparent hnext (hparent (parents_pass _ _) (reaches_rung location limit steps _ _))))))

/-- The document `ladder` is accepted, and the resolution of its `Grow<T>` exhausts every bound on
the nesting of calls, at every nesting limit. -/
theorem outcome_ladder_eq_exhausted :
    ofDocument ladder = .ok ladderGraph ∧
      ladderGraph.site "Grow<T>" = .ok ⟨"Grow<T>", 3⟩ ∧
      ∀ limit fuel, (Resolver.shipped checker ⟨.instantiated, limit + 1⟩).outcome fuel
        ⟨"Grow<T>", 3⟩ ladderGraph = .error .exhausted := by
  have haccepted : ofDocument ladder = .ok ladderGraph := rfl
  have hbase := linked_of_ofDocument haccepted
  refine ⟨haccepted, rfl, fun limit fuel => ?_⟩
  have hnever : ¬ ((Term.answers ladderGraph).siteValue Registry.shipped
      ⟨.instantiated, limit + 1⟩ fuel ⟨"Grow<T>", 3⟩).isSome := fun h =>
    infinite_reaches_ladder _ limit ((exists_isSome_iff_finite_reaches (limit + 1)).mp ⟨fuel, h⟩)
  rw [outcome_eq_ofValue hbase .start (by decide), Option.not_isSome_iff_eq_none.mp hnever]
  rfl

/-- The condition at `ladder`, where some resolutions end and some do not. -/
theorem exists_outcome_ladder_iff_finite :
    ofDocument ladder = .ok ladderGraph ∧
      ladderGraph.site "Pass" = .ok ⟨"Pass", 1⟩ ∧
      ((∃ fuel schema, (Resolver.shipped checker ⟨.instantiated, 64⟩).outcome fuel ⟨"Pass", 1⟩
          ladderGraph = .ok schema) ↔
        {term | (Term.answers ladderGraph).Reaches ⟨"Pass", 1⟩ [] 64 (.declared 1)
          term}.Finite) ∧
      (ladderGraph.NoParameterBases →
        ∃ fuel schema, (Resolver.shipped checker ⟨.instantiated, 64⟩).outcome fuel ⟨"Pass", 1⟩
          ladderGraph = .ok schema) := by
  have haccepted : ofDocument ladder = .ok ladderGraph := rfl
  have hnode : ladderGraph.site "Pass" = .ok ⟨"Pass", 1⟩ := rfl
  exact ⟨haccepted, hnode, exists_outcome_iff_finite haccepted hnode 64⟩

end GraphSchema.Graph
