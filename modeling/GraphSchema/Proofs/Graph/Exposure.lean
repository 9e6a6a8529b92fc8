import Mathlib
import GraphSchema.Proofs.Graph.BackReferences
import GraphSchema.Proofs.Graph.History

/-!
# The names that base types hand on

Two queries go along base types.  `bases` puts the arguments of an instantiation into the base
types of its target; `properties` goes through the base types as they are declared, and arguments
only matter for the types of what it finds.  The two come to the same objects as long as a base
type is no bound parameter, and then a type has the names of all properties of its base types.
For a bound parameter `bases` answers the argument, which `properties` never looks at: its names
are there only where the definition has them in any case (`exposes_bases_iff`).
-/

namespace GraphSchema.Graph

variable {base graph : Graph} {ty other : Handle} {term other' : Term}

/-! ## Names of properties -/

/-- The names of the properties of a type. -/
def propertyNames (ty : Handle) : Query (List String) := do
  (← properties ty).mapM symbolName

/-- The properties of a type have these names, whatever is asked first. -/
def HasNames (graph : Graph) (ty : Handle) (names : List String) : Prop :=
  ∀ later, Reachable graph later → ∃ last, propertyNames ty later = .ok (names, last)

/-- A type has the names of all properties of another. -/
def Exposes (graph : Graph) (ty other : Handle) : Prop :=
  ∃ names inherited, HasNames graph ty names ∧ HasNames graph other inherited ∧
    inherited ⊆ names

theorem HasNames.unique {names names' : List String} (h : HasNames graph ty names)
    (h' : HasNames graph ty names') : names = names' := by
  obtain ⟨last, hlast⟩ := h graph .start
  obtain ⟨last', hlast'⟩ := h' graph .start
  cases hlast.symm.trans hlast'
  rfl

theorem mapM_symbolName_reads (hbase : base.Linked) (hgrown : Grown base graph)
    {symbols : List Symbol} {symbols' : List Term.Symbol}
    (h : List.Forall₂ (SymbolDenotes base graph) symbols symbols') :
    symbols.mapM symbolName graph = .ok (symbols'.map (Term.symbolName base), graph) := by
  induction h with
  | nil => rfl
  | cons hhead _ ih =>
    rw [List.mapM_cons, bind_of_reads (symbolName_reads hbase hgrown hhead), bind_of_reads ih]
    rfl

/-- The names of a type's properties are those of its term. -/
theorem Grown.hasNames (hbase : base.Linked) (hgrown : Grown base graph)
    (h : Denotes base graph ty term) :
    HasNames graph ty ((Term.answers base).memberNames term) := by
  intro later hreachable
  obtain ⟨hgrown', hlater⟩ := hreachable.later hbase hgrown
  obtain ⟨symbols, last, hquery, hlast, -, hsymbols⟩ :=
    properties_gives hbase hgrown' (h.later hlater)
  refine ⟨last, ?_⟩
  show (properties ty later).bind _ = _
  rw [hquery]
  exact mapM_symbolName_reads hbase hlast hsymbols

theorem Grown.exposes_iff (hbase : base.Linked) (hgrown : Grown base graph)
    (h : Denotes base graph ty term) (hother : Denotes base graph other other') :
    Exposes graph ty other ↔
      (Term.answers base).memberNames other' ⊆ (Term.answers base).memberNames term := by
  have hnames := hgrown.hasNames hbase h
  have hinherited := hgrown.hasNames hbase hother
  constructor
  · rintro ⟨names, inherited, hnames', hinherited', hsubset⟩
    rwa [hnames.unique hnames', hinherited.unique hinherited']
  · exact fun hsubset => ⟨_, _, hnames, hinherited, hsubset⟩

/-! ## Base types -/

/-- What the base type `parent` of an answer hands on to `ty`.  It is made of the base type
`general` that the object `target` behind `ty` lists, with the bindings `pairs` of `ty`. -/
structure HandsOn (graph : Graph) (pairs : Bindings) (ty target general parent : Handle) :
    Prop where
  /-- The names of a base type that is not bound are all there. -/
  unbound : pairs.lookup general = none → Exposes graph ty parent
  /-- For a bound parameter the answer is the argument, and its names are there as far as the
  definition has them. -/
  bound : ∀ argument, pairs.lookup general = some argument →
    parent = argument ∧ (Exposes graph ty parent ↔ Exposes graph target parent)

namespace Term

theorem substitute_of_lookup {pairs : Bindings} {handle : Handle} {argument : Term}
    (h : pairs.lookup (declared handle) = some argument) :
    substitute base pairs (declared handle) = argument := by
  rw [substitute, substituteDeclared, h]

/-- What has base types has an object behind it. -/
theorem exists_object_of_interface (hbase : base.Linked) (hknown : Known base term)
    (h : (term.flags base).interface) :
    ∃ target decl, term.declaration? base = some target ∧
      base.definitions[target]? = some (.object decl) := by
  rw [flags] at h
  cases hdefinition : term.definition base with
  | object decl =>
    cases term with
    | declared handle =>
      obtain ⟨decl', hdecl, -, -⟩ := exists_object_of_definition hdefinition
      exact ⟨handle, decl', BaseWalk.declaration?_eq hdecl, hdecl⟩
    | applied target arguments => cases hdefinition
    | unknown => cases hdefinition
  | reference target' arguments =>
    obtain ⟨target, rfl, hdeclaration⟩ := exists_reference_of_definition hdefinition
    obtain ⟨decl, hdecl⟩ := hknown.target_object hbase hdefinition
    exact ⟨target, decl, hdeclaration, hdecl⟩
  | _ =>
    rw [hdefinition] at h
    cases h

end Term

variable {target general parent : Handle} {pairs : Bindings} {decl : ObjectDecl Handle}

theorem eq_none_of_none_rel {α β : Type} {related : α → β → Prop} {other : Option β}
    (h : Option.Rel related none other) : other = none := by
  cases h
  rfl

theorem exists_of_some_rel {α β : Type} {related : α → β → Prop} {item : α} {other : Option β}
    (h : Option.Rel related (some item) other) :
    ∃ value, other = some value ∧ related item value := by
  cases h with | some h => exact ⟨_, rfl, h⟩

/-- Every base type of an answer hands on its names as described, since terms do. -/
theorem Grown.handsOn {after : Graph} (hbase : base.Linked) (hgrown : Grown base graph)
    (hafter : Grown base after) (hlater : Later base graph after)
    (hterm : Denotes base graph ty term) (hpairs : Binds base graph pairs (term.bindings base))
    (htarget : term.declaration? base = some target)
    (hdecl : base.definitions[target]? = some (.object decl)) (hgeneral : general ∈ decl.bases)
    (hparent : Denotes base after parent
      ((Term.declared general).substitute base (term.bindings base))) :
    HandsOn after pairs ty target general parent := by
  have hlt := (Array.getElem?_eq_some_iff.mp hdecl).1
  have hmentioned := hbase.lt_of_mem_bases hdecl hgeneral
  have hty := hterm.later hlater
  have hknown : Term.Known base term := ⟨after, ty, hafter, hty⟩
  have hlookup := hpairs.lookup_rel hbase hgrown (hgrown.denotes_declared hmentioned)
  constructor
  · intro hnone
    rw [hnone] at hlookup
    have hmem : .declared general ∈ term.basesOf base := by
      rw [Term.basesOf_eq htarget hdecl]
      exact List.mem_map_of_mem hgeneral
    refine (hafter.exposes_iff hbase hty hparent).mpr fun name hname => ?_
    exact Term.mem_memberNames_of_mem_basesOf hbase hknown hmem (eq_none_of_none_rel hlookup)
      ⟨after, parent, hafter, hparent⟩ hname
  · intro argument hsome
    rw [hsome] at hlookup
    obtain ⟨argument', hfound, hargument⟩ := exists_of_some_rel hlookup
    rw [Term.substitute_of_lookup hfound] at hparent
    refine ⟨(hafter.interned hbase).denotes_inj hparent (hargument.later hlater), ?_⟩
    -- An instantiation has the names of its definition, whatever its arguments are.
    have hsame : ∀ name, name ∈ (Term.answers base).memberNames term ↔
        name ∈ (Term.answers base).memberNames (.declared target) := fun name =>
      Term.mem_memberNames_congr hbase hknown (.declared hlt)
        (htarget.trans (BaseWalk.declaration?_eq hdecl).symm)
    rw [hafter.exposes_iff hbase hty hparent,
      hafter.exposes_iff hbase (hafter.denotes_declared hlt) hparent]
    exact forall₂_congr fun name _ => hsame name

/-- A type has the names of its base types exactly if the object behind it has those of the
arguments that stand for some of them. -/
theorem exposes_iff_of_handsOn {generals parents : List Handle}
    (h : List.Forall₂ (HandsOn graph pairs ty target) generals parents) :
    (∀ parent ∈ parents, Exposes graph ty parent) ↔
      ∀ general ∈ generals, ∀ argument, pairs.lookup general = some argument →
        Exposes graph target argument := by
  constructor
  · intro hexposes general hgeneral argument hbound
    obtain ⟨parent, hparent, hhands⟩ := exists_mem_of_forall₂ h.flip hgeneral
    obtain ⟨rfl, hiff⟩ := hhands.bound argument hbound
    exact hiff.mp (hexposes parent hparent)
  · intro hexposes parent hparent
    obtain ⟨general, hgeneral, hhands⟩ := exists_mem_of_forall₂ h hparent
    cases hbound : pairs.lookup general with
    | none => exact hhands.unbound hbound
    | some argument =>
      obtain ⟨rfl, hiff⟩ := hhands.bound argument hbound
      exact hiff.mpr (hexposes general hgeneral parent hbound)

/-- A definition binds nothing, and an instantiation binds no base type that is no parameter. -/
theorem Grown.lookup_eq_none (hbase : base.Linked) (hgrown : Grown base graph)
    (hterm : Denotes base graph ty term) (hpairs : Binds base graph pairs (term.bindings base))
    (htarget : term.declaration? base = some target)
    (hdecl : base.definitions[target]? = some (.object decl))
    (hfree : ty = target ∨ ∀ general ∈ decl.bases, general ∉ decl.parameters)
    (hgeneral : general ∈ decl.bases) : pairs.lookup general = none := by
  have hmentioned := hbase.lt_of_mem_bases hdecl hgeneral
  have hmem : .declared general ∈ term.basesOf base := by
    rw [Term.basesOf_eq htarget hdecl]
    exact List.mem_map_of_mem hgeneral
  have hunbound : term.Unbound base := by
    rcases hfree with rfl | hfree
    · have hlt := (Array.getElem?_eq_some_iff.mp hdecl).1
      obtain rfl := hterm.unique (hgrown.denotes_declared hlt)
      intro general' _
      rw [Term.bindings, Term.definition_declared hdecl]
      rfl
    · exact Term.unbound_of_declaration htarget hdecl hfree
  have hlookup := hpairs.lookup_rel hbase hgrown (hgrown.denotes_declared hmentioned)
  rw [hunbound _ hmem] at hlookup
  cases hbound : pairs.lookup general with
  | none => rfl
  | some argument =>
    rw [hbound] at hlookup
    cases hlookup

/-- Whatever a graph has been asked before, a type has the property names of the object behind it
and of the base types that this object lists.  As `HandsOn` says, the base types in an answer hand
on their names unless they are arguments.  So a type has the names of all its base types exactly if
the object behind it has those of every argument that stands for one of them.  A definition always
does, and so does an instantiation of an object that lists none of its own parameters among its
base types. -/
theorem exposes_bases_iff {document : Document} {fresh : Graph}
    (haccepted : ofDocument document = .ok fresh) (hgraph : Reachable fresh graph)
    (hty : ty < graph.definitions.size) :
    ∃ pairs answer after names, bindings ty graph = .ok (pairs, graph) ∧
      bases ty graph = .ok (answer, after) ∧ HasNames after ty names ∧
      ∀ parents, answer = some parents → ∃ target decl,
        BaseWalk.declaration? graph.definitions ty = some target ∧
        graph.definitions[target]? = some (.object decl) ∧
        (∀ name, name ∈ names ↔ name ∈ Fields.keys decl.properties ∨
          ∃ general ∈ decl.bases, ∃ inherited, HasNames after general inherited ∧
            name ∈ inherited) ∧
        List.Forall₂ (HandsOn after pairs ty target) decl.bases parents ∧
        ((∀ parent ∈ parents, Exposes after ty parent) ↔
          ∀ general ∈ decl.bases, ∀ argument, pairs.lookup general = some argument →
            Exposes after target argument) ∧
        (ty = target ∨ (∀ general ∈ decl.bases, general ∉ decl.parameters) →
          ∀ parent ∈ parents, Exposes after ty parent) := by
  have hbase := linked_of_ofDocument haccepted
  have hgrown := hgraph.grown hbase
  obtain ⟨term, hterm⟩ := hgrown.exists_denotes hty
  obtain ⟨pairs, hreads, hpairs⟩ := bindings_reads hbase hgrown hterm
  obtain ⟨answer, after, hanswer, hafter, hlater, hrel⟩ := bases_gives hbase hgrown hterm
  refine ⟨pairs, answer, after, _, hreads, hanswer, hafter.hasNames hbase (hterm.later hlater), ?_⟩
  rintro parents rfl
  obtain ⟨parents', hparents', hparents⟩ := exists_of_some_rel hrel
  rw [Term.bases] at hparents'
  split at hparents'
  · rename_i hinterface
    cases hparents'
    have hknown : Term.Known fresh term := ⟨graph, ty, hgrown, hterm⟩
    obtain ⟨target, decl, htarget, hdecl⟩ :=
      Term.exists_object_of_interface hbase hknown hinterface
    rw [Term.basesOf_eq htarget hdecl, List.map_map, List.forall₂_map_right_iff] at hparents
    have hhands : List.Forall₂ (HandsOn after pairs ty target) decl.bases parents := by
      have hlisted := (List.forall₂_and_left _ _).mpr ⟨fun general hmem => hmem, hparents.flip⟩
      exact hlisted.imp fun general parent h =>
        hgrown.handsOn hbase hafter hlater hterm hpairs htarget hdecl h.1 h.2
    have hiff := exposes_iff_of_handsOn hhands
    refine ⟨target, decl, (hgrown.declaration?_eq hterm).trans htarget,
      hgrown.definition_eq hdecl, fun name => ?_, hhands, hiff, fun hfree => ?_⟩
    · rw [Term.mem_memberNames_iff_of_declaration hbase hknown htarget hdecl]
      refine or_congr_right (exists_congr fun general => and_congr_right fun hmem => ?_)
      have hmentioned := hbase.lt_of_mem_bases hdecl hmem
      have hnames := hafter.hasNames hbase (hafter.denotes_declared hmentioned)
      constructor
      · exact fun hname => ⟨_, hnames, hname⟩
      · rintro ⟨inherited, hinherited, hname⟩
        rwa [hnames.unique hinherited]
    · refine hiff.mpr fun general hgeneral argument hbound => ?_
      have hnone := hgrown.lookup_eq_none hbase hterm hpairs htarget hdecl hfree hgeneral
      cases hnone.symm.trans hbound
  · cases hparents'

/-- `Mixin<Loop>` has the base type `Loop`, whose name the definition lacks. -/
theorem exposes_bases_iff_mixin_tangles :
    ofDocument tangles = .ok tanglesGraph ∧ 7 < tanglesGraph.definitions.size ∧
      bases 7 tanglesGraph = .ok (some [5], tanglesGraph) ∧ ¬ Exposes tanglesGraph 6 5 ∧
      ¬ ∀ parent ∈ [5], Exposes tanglesGraph 7 parent := by
  have hbase := linked_of_ofDocument accepted_tangles
  have hstart : Grown tanglesGraph tanglesGraph := .start
  have hlt : 7 < tanglesGraph.definitions.size := by decide
  have hanswer : bases 7 tanglesGraph = .ok (some [5], tanglesGraph) := rfl
  have hpairs : bindings 7 tanglesGraph = .ok ([(0, 5)], tanglesGraph) := rfl
  have htarget : BaseWalk.declaration? tanglesGraph.definitions 7 = some 6 := rfl
  have hlacks : ¬ Exposes tanglesGraph 6 5 := by
    rw [hstart.exposes_iff hbase (hstart.denotes_declared (by decide))
      (hstart.denotes_declared (by decide))]
    decide
  refine ⟨accepted_tangles, hlt, hanswer, hlacks, ?_⟩
  obtain ⟨pairs, answer, after, names, hpairs', hanswer', -, hhands⟩ :=
    exposes_bases_iff accepted_tangles .start hlt
  cases hanswer.symm.trans hanswer'
  cases hpairs.symm.trans hpairs'
  obtain ⟨target, decl, htarget', hdecl, -, -, hiff, -⟩ := hhands [5] rfl
  cases htarget.symm.trans htarget'
  cases hdecl
  rw [hiff]
  exact fun h => hlacks (h 0 (List.mem_singleton_self _) 5 rfl)

/-- The property of `Loop` has no counterpart in `Mixin<Loop>`, which has `Loop` for a base
type. -/
theorem not_exposes_loop_tangles :
    ofDocument tangles = .ok tanglesGraph ∧
      bases 7 tanglesGraph = .ok (some [5], tanglesGraph) ∧
      HasNames tanglesGraph 5 ["next"] ∧ HasNames tanglesGraph 7 [] ∧
      ¬ Exposes tanglesGraph 7 5 := by
  have hbase := linked_of_ofDocument accepted_tangles
  have hstart : Grown tanglesGraph tanglesGraph := .start
  have hloop : HasNames tanglesGraph 5 ["next"] :=
    hstart.hasNames hbase (hstart.denotes_declared (by decide))
  have hmixin : HasNames tanglesGraph 7 [] :=
    hstart.hasNames hbase (hstart.denotes_declared (by decide))
  refine ⟨accepted_tangles, rfl, hloop, hmixin, ?_⟩
  rintro ⟨names, inherited, hnames, hinherited, hsubset⟩
  cases hmixin.unique hnames
  cases hloop.unique hinherited
  cases hsubset (List.mem_singleton_self _)

end GraphSchema.Graph
