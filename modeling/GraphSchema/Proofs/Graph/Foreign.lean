import Mathlib
import GraphSchema.Proofs.Graph.Sessions

/-!
# Symbols of other graphs

A property symbol is three things that can each be foreign to a graph: an owner, a name, and the
type that the property is seen through.  The owner is looked up with care, and the name among the
properties of an object, so whatever the two are, an undeclared property has the unknown type, the
same one for all of them and for good.  The third is used as it is, once the property is declared: a
symbol of a larger graph stops the query where its last part names no type of this one.

**Main statement.**  `memberType_foreign_iff` says exactly when a property symbol has a type, and
what the type of an undeclared property is.  `dangling_of_foreign_boxes` is a symbol of another graph
that has none.
-/

namespace GraphSchema.Graph

variable {base graph : Graph} {owner handle : Handle} {name : String} {through : Option Handle}

/-- The unknown type is opaque. -/
theorem Grown.definition_of_unknown (hbase : base.Linked) (hgrown : Grown base graph)
    (h : Denotes base graph handle .unknown) :
    graph.definitions[handle]? = some (.opaqueType none) := by
  obtain ⟨found, hfound, hagrees⟩ := hgrown.definition_agrees hbase h
  rw [hfound]
  cases hagrees
  rfl

/-- An undeclared property has the unknown type, whatever it is seen through, and is reported. -/
theorem memberType_of_undeclared (hbase : base.Linked) (hgrown : Grown base graph)
    (h : ¬ graph.Declares owner name) (through : Option Handle) (node : Site) :
    ∃ reply, checker.reply (.memberType (.property owner name through) node) graph = .ok reply ∧
      Grown base reply.world ∧ Later base graph reply.world ∧
      Denotes base reply.world reply.answer .unknown ∧
      reply.notices = [.unknownProperty name owner] := by
  obtain ⟨handle, graph', hunknown, hgrown', hlater, hdenotes⟩ := unknownType_gives hbase hgrown
  have hnone : graph.declared? owner name = none := by
    rw [declares_iff_isSome] at h
    exact Option.not_isSome_iff_eq_none.mp h
  have hquery : typeOfSymbol (.property owner name through) graph =
      .ok ((handle, [.unknownProperty name owner]), graph') := by
    rw [typeOfSymbol, bind_get, hnone]
    show (unknownType graph).bind _ = _
    rw [hunknown]
    rfl
  refine ⟨⟨handle, graph', [.unknownProperty name owner]⟩, ?_, hgrown', hlater, hdenotes, rfl⟩
  show (typeOfSymbol (.property owner name through) graph).bind _ = _
  rw [hquery]
  rfl

/-- A declared property that is seen through no type of the graph stops the query. -/
theorem typeOfSymbol_of_dangling {instantiation : Handle} (h : graph.Declares owner name)
    (hdangling : graph.definitions.size ≤ instantiation) :
    typeOfSymbol (.property owner name (some instantiation)) graph =
      .error (.dangling instantiation) := by
  obtain ⟨member, hmember⟩ := Option.isSome_iff_exists.mp (declares_iff_isSome.mp h)
  have herror : definition instantiation graph = .error (.dangling instantiation) := by
    rw [definition, bind_get, Array.getElem?_eq_none hdangling]
    rfl
  rw [typeOfSymbol, bind_get, hmember]
  exact bind_of_error (bind_of_error herror _) _

theorem memberType_of_dangling {instantiation : Handle} (h : graph.Declares owner name)
    (hdangling : graph.definitions.size ≤ instantiation) (node : Site) :
    checker.reply (.memberType (.property owner name (some instantiation)) node) graph =
      .error (.dangling instantiation) := by
  show (typeOfSymbol (.property owner name (some instantiation)) graph).bind _ = _
  rw [typeOfSymbol_of_dangling h hdangling]
  rfl

/-- In every reachable graph a property symbol of any origin has a type exactly if its property is
not declared there, or if the type that it is seen through, where there is one, is a type of this
graph.  An undeclared property has the one unknown type, which is opaque, and so have all undeclared
properties from then on. -/
theorem memberType_foreign_iff {document : Document} {fresh : Graph}
    (haccepted : ofDocument document = .ok fresh) (hreachable : Reachable fresh graph)
    (owner : Handle) (name : String) (through : Option Handle) (node : Site) :
    ((∃ reply, checker.reply (.memberType (.property owner name through) node) graph = .ok reply ∧
        reply.answer < reply.world.definitions.size) ↔
      (graph.Declares owner name →
        ∀ instantiation ∈ through, instantiation < graph.definitions.size)) ∧
    (¬ graph.Declares owner name →
      ∃ reply, checker.reply (.memberType (.property owner name through) node) graph = .ok reply ∧
        reply.world.definitions[reply.answer]? = some (.opaqueType none) ∧
        reply.world.unknown = some reply.answer ∧
        reply.notices = [.unknownProperty name owner] ∧
        ∀ later, Reachable reply.world later → ∀ owner' name' through' node',
          ¬ later.Declares owner' name' →
          ∃ reply', checker.reply (.memberType (.property owner' name' through') node') later =
            .ok reply' ∧ reply'.answer = reply.answer) := by
  have hbase := linked_of_ofDocument haccepted
  have hgrown := hreachable.grown hbase
  constructor
  · constructor
    · rintro ⟨reply, hreply, -⟩ hdeclares instantiation hmem
      by_contra hlt
      cases hmem
      rw [memberType_of_dangling hdeclares (Nat.le_of_not_lt hlt)] at hreply
      cases hreply
    · intro hthrough
      by_cases hdeclares : graph.Declares owner name
      · obtain ⟨reply, hreply, -, -, -, htypes, -⟩ :=
          answered_memberType hbase hgrown (.property hdeclares (hthrough hdeclares)) node
        exact ⟨reply, hreply, htypes _ List.mem_cons_self⟩
      · obtain ⟨reply, hreply, hgrown', -, hunknown, -⟩ :=
          memberType_of_undeclared hbase hgrown hdeclares through node
        exact ⟨reply, hreply, hgrown'.lt_of_denotes hunknown⟩
  · intro hundeclared
    obtain ⟨reply, hreply, hgrown', -, hunknown, hnotices⟩ :=
      memberType_of_undeclared hbase hgrown hundeclared through node
    refine ⟨reply, hreply, hgrown'.definition_of_unknown hbase hunknown,
      (hgrown'.interned hbase).unknown.mpr hunknown, hnotices, ?_⟩
    intro later hlater owner' name' through' node' hundeclared'
    obtain ⟨hgrown'', hlater'⟩ := hlater.later hbase hgrown'
    obtain ⟨reply', hreply', hgrown₃, hlater₃, hunknown', -⟩ :=
      memberType_of_undeclared hbase hgrown'' hundeclared' through' node'
    refine ⟨reply', hreply', (hgrown₃.interned hbase).denotes_inj hunknown' ?_⟩
    exact hunknown.later (hlater'.trans hlater₃)

/-- `boxes` without `string` and what depends on it. -/
def bareBoxes : Document where
  types := boxes.types.take 4

/-- The graph of `bareBoxes`. -/
def bareBoxesGraph : Graph where
  ids := ["T", "Box", "Box<T>", "Box<Box<T>>"]
  definitions := boxesGraph.definitions.take 4
  instances := [((1, [0]), 2), ((1, [2]), 3)]
  unknown := none

theorem declares_wrapped : bareBoxesGraph.Declares 1 "wrapped" :=
  declares_iff_isSome.mpr rfl

theorem not_declares_none : ¬ bareBoxesGraph.Declares 7 "wrapped" := by
  rw [declares_iff_isSome]
  exact Bool.false_ne_true

/-- The symbol that `boxes` has for the member of `Box<string>` has no type here, and one of an
object that is not here has the unknown type. -/
theorem memberType_foreign_iff_boxes :
    ofDocument bareBoxes = .ok bareBoxesGraph ∧ Reachable bareBoxesGraph bareBoxesGraph ∧
      (¬ ∃ reply,
        checker.reply (.memberType (.property 1 "wrapped" (some 5)) ⟨"Box", 1⟩) bareBoxesGraph =
          .ok reply ∧ reply.answer < reply.world.definitions.size) ∧
      ∃ reply,
        checker.reply (.memberType (.property 7 "wrapped" (some 5)) ⟨"Box", 1⟩) bareBoxesGraph =
          .ok reply ∧ reply.world.unknown = some reply.answer := by
  have haccepted : ofDocument bareBoxes = .ok bareBoxesGraph := rfl
  refine ⟨haccepted, .start, ?_, ?_⟩
  · rw [(memberType_foreign_iff haccepted .start 1 "wrapped" (some 5) ⟨"Box", 1⟩).1]
    intro hthrough
    exact absurd (hthrough declares_wrapped 5 rfl) (by decide)
  · obtain ⟨reply, hreply, -, hunknown, -⟩ :=
      (memberType_foreign_iff haccepted .start 7 "wrapped" (some 5) ⟨"Box", 1⟩).2 not_declares_none
    exact ⟨reply, hreply, hunknown⟩

/-- A symbol that one graph has given out stops the query of another, although both declare the
property. -/
theorem dangling_of_foreign_boxes :
    ofDocument boxes = .ok boxesGraph ∧ ofDocument bareBoxes = .ok bareBoxesGraph ∧
      checker.reply (.properties 5) boxesGraph =
        .ok { answer := [.property 1 "wrapped" (some 5)], world := boxesGraph } ∧
      checker.reply (.memberType (.property 1 "wrapped" (some 5)) ⟨"Box", 1⟩) bareBoxesGraph =
        .error (.dangling 5) :=
  ⟨rfl, rfl, rfl, rfl⟩

end GraphSchema.Graph
