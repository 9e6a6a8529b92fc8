import Mathlib
import GraphSchema.Proofs.Graph.History

/-!
# One handle for each instantiation

A document may declare an instantiation several times, and queries add instantiations from within
each other.  Whatever has been asked, the table of instances finds the lowest handle of every
application, and what queries have added is there once: an instantiation that is declared nowhere
else, or the one unknown type (`Graph.Canonical`).  A handle keeps its definition, and a property
symbol keeps the handle of its type.

The graph names its types by terms, and these carry the proof.  A term stands for the same type in
every graph that comes later (`Denotes.later`), and no two handles stand for one term
(`Interned.denotes_inj`).  `canonical_of_reachable` gathers what follows for all reachable graphs.
-/

namespace GraphSchema.Graph

variable {base graph later : Graph}

/-- Applications are found under their lowest handle, and nothing is added twice. -/
structure Canonical (base graph : Graph) : Prop where
  /-- An instantiation is found, under the first handle with its target and arguments. -/
  lowest : ∀ {handle target : Handle} {arguments : List Handle},
    graph.definitions[handle]? = some (.reference target arguments) →
    ∃ first, graph.instances.lookup (target, arguments) = some first ∧
      graph.definitions[first]? = some (.reference target arguments) ∧
      ∀ other, graph.definitions[other]? = some (.reference target arguments) → first ≤ other
  /-- Behind the document's types, an instantiation has no double, and the only other type is the
  unknown one. -/
  added : ∀ {handle : Handle}, base.size ≤ handle → handle < graph.definitions.size →
    (∃ target arguments, graph.definitions[handle]? = some (.reference target arguments) ∧
      ∀ other, graph.definitions[other]? = some (.reference target arguments) →
        other = handle) ∨
    graph.definitions[handle]? = some (.opaqueType none) ∧ graph.unknown = some handle

/-! ## Lookups -/

/-- The application that a definition is. -/
def application? : Definition Handle → Option Application
  | .reference target arguments => some (target, arguments)
  | _ => none

theorem declaredInstances_eq (definitions : List (Definition Handle)) :
    declaredInstances definitions = definitions.zipIdx.filterMap fun entry =>
      (application? entry.1).map (·, entry.2) := by
  rw [declaredInstances]
  refine congrArg (List.filterMap · _) (funext fun entry => ?_)
  obtain ⟨definition, handle⟩ := entry
  cases definition <;> rfl

/-- A table of places, counted from any start, finds a key at its first place or before. -/
theorem exists_lookup_zipIdx {α κ : Type} [BEq κ] [LawfulBEq κ] {key? : α → Option κ}
    {items : List α} {place : Nat} {item : α} {key : κ} (hitem : items[place]? = some item)
    (hkey : key? item = some key) (start : Nat) :
    ∃ first ≤ place,
      ((items.zipIdx start).filterMap fun entry => (key? entry.1).map (·, entry.2)).lookup key =
        some (start + first) := by
  induction items generalizing place start with
  | nil => cases hitem
  | cons head rest ih =>
    rw [List.zipIdx_cons, List.filterMap_cons]
    by_cases hhead : key? head = some key
    · refine ⟨0, Nat.zero_le _, ?_⟩
      simp [hhead]
    · cases place with
      | zero =>
        cases hitem
        exact absurd hkey hhead
      | succ place =>
        obtain ⟨first, hfirst, hlookup⟩ := ih hitem (start + 1)
        refine ⟨first + 1, Nat.succ_le_succ hfirst, ?_⟩
        rw [Nat.add_right_comm, Nat.add_assoc] at hlookup
        cases hother : key? head with
        | none => exact hlookup
        | some other =>
          have hne : (key == other) = false := by
            rw [beq_eq_false_iff_ne]
            rintro rfl
            exact hhead hother
          rw [Option.map_some, List.lookup_cons, hne]
          exact hlookup

/-- The table of a document finds an application at its first place or before. -/
theorem exists_lookup_declaredInstances {definitions : List (Definition Handle)}
    {place target : Handle} {arguments : List Handle}
    (h : definitions[place]? = some (.reference target arguments)) :
    ∃ first ≤ place,
      (declaredInstances definitions).lookup (target, arguments) = some first := by
  have hkey : application? (.reference target arguments) = some (target, arguments) := rfl
  obtain ⟨first, hfirst, hlookup⟩ := exists_lookup_zipIdx h hkey 0
  rw [Nat.zero_add] at hlookup
  rw [declaredInstances_eq]
  exact ⟨first, hfirst, hlookup⟩

/-- An instantiation is found at its handle or before, and at its handle if it was added. -/
theorem Grown.exists_lookup (hbase : base.Linked) (hgrown : Grown base graph)
    {handle target : Handle} {arguments : List Handle}
    (h : graph.definitions[handle]? = some (.reference target arguments)) :
    ∃ first, graph.instances.lookup (target, arguments) = some first ∧ first ≤ handle ∧
      (base.definitions.size ≤ handle → first = handle) ∧
      graph.definitions[first]? = some (.reference target arguments) := by
  have hinterned := hgrown.interned hbase
  obtain ⟨hlt, -⟩ := Array.getElem?_eq_some_iff.mp h
  obtain ⟨term, hterm⟩ := hgrown.exists_denotes hlt
  rcases hgrown.denotes_cases hterm with ⟨hdeclared, rfl⟩ | ⟨hle, hadded⟩
  · have hdefinition := hgrown.definition_eq (Array.getElem?_eq_getElem hdeclared)
    rw [h] at hdefinition
    have hplace : base.definitions.toList[handle]? = some (.reference target arguments) := by
      rw [Array.getElem?_toList, Array.getElem?_eq_getElem hdeclared, hdefinition]
    obtain ⟨first, hfirst, hlookup⟩ := exists_lookup_declaredInstances hplace
    rw [← hbase.instances_eq] at hlookup
    exact ⟨first, hinterned.declared hlookup, hfirst,
      fun hle => absurd hdeclared (Nat.not_lt.mpr hle),
      hgrown.definition_eq (hbase.definition_of_lookup hlookup)⟩
  · cases hadded with
    | application htarget hdefinition _ hterms =>
      cases h.symm.trans hdefinition
      obtain ⟨others, hothers, hlookup⟩ := hinterned.applied hterm
      rw [hinterned.forall₂_inj hothers hterms] at hlookup
      exact ⟨handle, hlookup, le_rfl, fun _ => rfl, h⟩
    | unknown hdefinition => cases h.symm.trans hdefinition

theorem Grown.canonical (hbase : base.Linked) (hgrown : Grown base graph) :
    Canonical base graph := by
  refine ⟨fun {handle target arguments} h => ?_, fun {handle} hsize hlt => ?_⟩
  · obtain ⟨first, hlookup, -, -, hfirst⟩ := hgrown.exists_lookup hbase h
    refine ⟨first, hlookup, hfirst, fun other hother => ?_⟩
    obtain ⟨first', hlookup', hle, -⟩ := hgrown.exists_lookup hbase hother
    cases hlookup.symm.trans hlookup'
    exact hle
  · have hle : base.definitions.size ≤ handle := hbase.size_eq ▸ hsize
    obtain ⟨term, hterm⟩ := hgrown.exists_denotes hlt
    rcases hgrown.denotes_cases hterm with ⟨hdeclared, -⟩ | ⟨-, hadded⟩
    · exact absurd hdeclared (Nat.not_lt.mpr hle)
    · cases hadded with
      | unknown hdefinition =>
        exact .inr ⟨hdefinition, (hgrown.interned hbase).unknown.mpr hterm⟩
      | @application target _ arguments _ _ hdefinition =>
        refine .inl ⟨target, arguments, hdefinition, fun other hother => ?_⟩
        obtain ⟨first, hlookup, -, hfirst, -⟩ := hgrown.exists_lookup hbase hdefinition
        obtain ⟨first', hlookup', hother', hadded', -⟩ := hgrown.exists_lookup hbase hother
        cases hlookup.symm.trans hlookup'
        cases hfirst hle
        exact (hadded' (hle.trans hother')).symm

/-! ## Later graphs -/

/-- A handle keeps its definition. -/
theorem Grown.definition_later (hbase : base.Linked) (hgrown : Grown base graph)
    (hgrown' : Grown base later) (hlater : Later base graph later) {handle : Handle}
    {definition : Definition Handle} (h : graph.definitions[handle]? = some definition) :
    later.definitions[handle]? = some definition := by
  obtain ⟨hlt, -⟩ := Array.getElem?_eq_some_iff.mp h
  obtain ⟨term, hterm⟩ := hgrown.exists_denotes hlt
  rcases hgrown.denotes_cases hterm with ⟨hdeclared, -⟩ | ⟨hle, hadded⟩
  · have hdefinition := Array.getElem?_eq_getElem hdeclared
    cases h.symm.trans (hgrown.definition_eq hdefinition)
    exact hgrown'.definition_eq hdefinition
  · rcases hgrown'.denotes_cases (hterm.later hlater) with ⟨hdeclared, -⟩ | ⟨-, hadded'⟩
    · exact absurd hdeclared (Nat.not_lt.mpr hle)
    · cases hadded with
      | unknown hdefinition =>
        cases hadded' with
        | unknown hdefinition' =>
          cases h.symm.trans hdefinition
          exact hdefinition'
      | application _ hdefinition _ hterms =>
        cases hadded' with
        | application _ hdefinition' _ hterms' =>
          cases h.symm.trans hdefinition
          have hsame := (hgrown'.interned hbase).forall₂_inj
            (hterms.imp fun _ _ h => h.later hlater) hterms'
          rwa [hsame]

/-- What an object does not declare it does not declare later. -/
theorem Grown.declared?_eq_none_later (hbase : base.Linked) (hgrown : Grown base graph)
    (hgrown' : Grown base later) (hlater : Later base graph later) {owner : Handle}
    {name : String} (h : graph.declared? owner name = none) :
    later.declared? owner name = none := by
  rcases Nat.lt_or_ge owner graph.definitions.size with hlt | hle
  · have hdefinition := Array.getElem?_eq_getElem hlt
    rw [declared?, hdefinition] at h
    rwa [declared?, hgrown.definition_later hbase hgrown' hlater hdefinition]
  · rw [declared?]
    split
    · rename_i decl hdecl
      have hadded : base.size ≤ owner := hbase.size_eq.trans_le (hgrown.size_le.trans hle)
      obtain ⟨hlt, -⟩ := Array.getElem?_eq_some_iff.mp hdecl
      rcases (hgrown'.canonical hbase).added hadded hlt with ⟨_, _, hreference, -⟩ | ⟨hunknown, -⟩
      · cases hdecl.symm.trans hreference
      · cases hdecl.symm.trans hunknown
    · rfl

/-- The type behind a symbol has the same handle later. -/
theorem Grown.typeOfSymbol_later (hbase : base.Linked) (hgrown : Grown base graph)
    {symbol : Symbol} {answer : Handle × List (Event Handle)} {graph' : Graph}
    (h : typeOfSymbol symbol graph = .ok (answer, graph')) (hearlier : Later base graph graph')
    (hgrown' : Grown base later) (hlater : Later base graph' later) :
    ∃ answer' later', typeOfSymbol symbol later = .ok (answer', later') ∧
      answer'.1 = answer.1 := by
  have hsame : ∀ {term},
      Gives base graph (typeOfSymbol symbol) (fun last answer => Denotes base last answer.1 term) →
      Gives base later (typeOfSymbol symbol) (fun last answer => Denotes base last answer.1 term) →
      ∃ answer' later', typeOfSymbol symbol later = .ok (answer', later') ∧
        answer'.1 = answer.1 := by
    rintro term ⟨_, _, hquery, -, -, hdenotes⟩
      ⟨answer', later', hquery', hgrown'', hlater', hdenotes'⟩
    cases h.symm.trans hquery
    exact ⟨answer', later', hquery', (hgrown''.interned hbase).denotes_inj hdenotes'
      (hdenotes.later (hlater.trans hlater'))⟩
  cases symbol with
  | type handle =>
    cases h
    exact ⟨_, later, rfl, rfl⟩
  | property owner name through =>
    cases hmember : graph.declared? owner name with
    | some member =>
      obtain ⟨symbol', hsymbol⟩ := hgrown.exists_symbolDenotes hmember h
      exact hsame (typeOfSymbol_gives hbase hgrown hsymbol)
        (typeOfSymbol_gives hbase hgrown' (hsymbol.later (hearlier.trans hlater)))
    | none =>
      have hmember' :=
        hgrown.declared?_eq_none_later hbase hgrown' (hearlier.trans hlater) hmember
      exact hsame (typeOfSymbol_gives_unknown hbase hgrown hmember through)
        (typeOfSymbol_gives_unknown hbase hgrown' hmember' through)

/-! ## Reachable graphs -/

/-- In every reachable graph applications are found under their lowest handle and nothing is added
twice, and from then on handles keep their definitions.  A property symbol always has the type
that it had when it was first asked for, and every symbol that a graph gives has one. -/
theorem canonical_of_reachable {document : Document} {fresh : Graph}
    (haccepted : ofDocument document = .ok fresh) (hreachable : Reachable fresh graph) :
    Canonical fresh graph ∧
    (∀ later, Reachable graph later → ∀ (handle : Handle) (definition : Definition Handle),
      graph.definitions[handle]? = some definition →
      later.definitions[handle]? = some definition) ∧
    (∀ symbol node reply, checker.reply (.memberType symbol node) graph = .ok reply →
      ∀ later, Reachable reply.world later → ∀ node', ∃ reply',
        checker.reply (.memberType symbol node') later = .ok reply' ∧
          reply'.answer = reply.answer) ∧
    (∀ ty reply, checker.reply (.properties ty) graph = .ok reply →
      ∀ later, Reachable reply.world later → ∀ symbol ∈ reply.answer, ∀ node, ∃ reply',
        checker.reply (.memberType symbol node) later = .ok reply') := by
  have hbase := linked_of_ofDocument haccepted
  have hgrown := hreachable.grown hbase
  -- A query that succeeds makes the checker reply.
  have hreply : ∀ {symbol answer graph graph'} (node : Site),
      typeOfSymbol symbol graph = .ok (answer, graph') →
      checker.reply (.memberType symbol node) graph =
        .ok { answer := answer.1, world := graph', notices := answer.2 } := by
    intro symbol answer graph graph' node hquery
    show (typeOfSymbol symbol graph).bind _ = _
    rw [hquery]
    rfl
  refine ⟨hgrown.canonical hbase, ?_, ?_, ?_⟩
  · intro later hlater handle definition hdefinition
    obtain ⟨hgrown', hlater'⟩ := hlater.later hbase hgrown
    exact hgrown.definition_later hbase hgrown' hlater' hdefinition
  · intro symbol node reply hasked later hlater node'
    obtain ⟨hgrown₁, hlater₁⟩ := hgrown.of_checker hbase hasked
    obtain ⟨hgrown', hlater'⟩ := hlater.later hbase hgrown₁
    obtain ⟨⟨answer, graph'⟩, hquery, heq⟩ := exists_of_bind_eq_ok hasked
    cases heq
    obtain ⟨answer', later', hquery', hsame⟩ :=
      hgrown.typeOfSymbol_later hbase hquery hlater₁ hgrown' hlater'
    exact ⟨_, hreply node' hquery', hsame⟩
  · intro ty reply hasked later hlater symbol hmem node
    obtain ⟨hgrown₁, -⟩ := hgrown.of_checker hbase hasked
    obtain ⟨hgrown', hlater'⟩ := hlater.later hbase hgrown₁
    rcases hgrown.dangling_or_denotes ty with herror | ⟨term, hterm⟩
    · rw [properties_of_dangling herror] at hasked
      cases hasked
    · obtain ⟨reply', hasked', -, -, hsymbols⟩ := (Term.models hbase).properties hgrown hterm
      cases hasked.symm.trans hasked'
      obtain ⟨symbol', -, hsymbol⟩ := exists_mem_of_forall₂ hsymbols.flip hmem
      obtain ⟨answer, later', hquery, -⟩ :=
        typeOfSymbol_gives hbase hgrown' (SymbolDenotes.later hsymbol hlater')
      exact ⟨_, hreply node hquery⟩

/-- The member of `Box<string>` keeps its handle while its own member is asked for. -/
theorem canonical_of_reachable_boxes :
    ofDocument boxes = .ok boxesGraph ∧
      Reachable boxesGraph (boxesGraph.addApplication 1 [5]) ∧
      Canonical boxesGraph (boxesGraph.addApplication 1 [5]) ∧
      Reachable (boxesGraph.addApplication 1 [5])
        ((boxesGraph.addApplication 1 [5]).addApplication 1 [6]) ∧
      ∃ reply, checker.reply (.memberType (.property 1 "wrapped" (some 5)) ⟨"", 0⟩)
          ((boxesGraph.addApplication 1 [5]).addApplication 1 [6]) = .ok reply ∧
        reply.answer = 6 := by
  have haccepted : ofDocument boxes = .ok boxesGraph := rfl
  have hadded : checker.reply (.memberType (.property 1 "wrapped" (some 5)) ⟨"", 0⟩) boxesGraph =
      .ok { answer := 6, world := boxesGraph.addApplication 1 [5] } := rfl
  have hasked : checker.reply (.memberType (.property 1 "wrapped" (some 5)) ⟨"", 0⟩)
      (boxesGraph.addApplication 1 [5]) =
      .ok { answer := 6, world := boxesGraph.addApplication 1 [5] } := rfl
  have hnext : checker.reply (.memberType (.property 1 "wrapped" (some 6)) ⟨"", 0⟩)
      (boxesGraph.addApplication 1 [5]) =
      .ok { answer := 7, world := (boxesGraph.addApplication 1 [5]).addApplication 1 [6] } := rfl
  have hreachable := Reachable.asked _ .start hadded
  have hlater := Reachable.asked _ .start hnext
  obtain ⟨hcanonical, -, hkept, -⟩ := canonical_of_reachable haccepted hreachable
  exact ⟨haccepted, hreachable, hcanonical, hlater, hkept _ _ _ hasked _ hlater _⟩

end GraphSchema.Graph
