import Mathlib
import GraphSchema.Proofs.Graph.Linked
import GraphSchema.Proofs.Graph.Terms

/-!
# Graphs that grow, and the names of their types

Queries add types to a graph in two ways only, and `Graph.Grown` is closed under them: an
instantiation of a declared object that is not there yet, or the one unknown type.  `Graph.names`
gives every type of a grown graph its term, by its place, and `Graph.Denotes` is the relation
between the two.

A name is never given to two types (`Grown.denotes_inj`), a type keeps its name when more types
are added (`Denotes.later`), and the table of instances finds an application exactly where its
name is taken (`Grown.lookup_iff`).  That makes a term a name for one type in every graph that
has grown from the same document, whatever its handle is there.
-/

namespace GraphSchema

/-! ## Agreement of definitions -/

section Agreement

variable {ι κ : Type}

/-- The mentions of one declaration stand for those of another; all else is the same. -/
structure ObjectDecl.Agrees (related : ι → κ → Prop) (decl : ObjectDecl ι)
    (other : ObjectDecl κ) : Prop where
  symbol : decl.symbol = other.symbol
  interface : decl.interface = other.interface
  bases : List.Forall₂ related decl.bases other.bases
  parameters : List.Forall₂ related decl.parameters other.parameters
  properties : List.Forall₂ (fun property property' =>
    property.1 = property'.1 ∧ related property.2 property'.2) decl.properties other.properties
  members : decl.members = other.members

/-- The mentions of one definition stand for those of another; all else is the same. -/
inductive Definition.Agrees (related : ι → κ → Prop) : Definition ι → Definition κ → Prop where
  | intrinsic (kind : Intrinsic) : Agrees related (.intrinsic kind) (.intrinsic kind)
  | object {decl : ObjectDecl ι} {other : ObjectDecl κ} (h : decl.Agrees related other) :
      Agrees related (.object decl) (.object other)
  | tuple {elements : List ι} {others : List κ} (h : List.Forall₂ related elements others) :
      Agrees related (.tuple elements) (.tuple others)
  | reference {target : ι} {other : κ} {arguments : List ι} {others : List κ}
      (htarget : related target other) (harguments : List.Forall₂ related arguments others) :
      Agrees related (.reference target arguments) (.reference other others)
  | opaqueType (symbol : Option String) : Agrees related (.opaqueType symbol) (.opaqueType symbol)

theorem forall₂_map_right {related : ι → κ → Prop} {f : ι → κ} {items : List ι}
    (h : ∀ item ∈ items, related item (f item)) : List.Forall₂ related items (items.map f) := by
  rw [List.forall₂_map_right_iff, List.forall₂_same]
  exact h

/-- A definition agrees with the definition in which every mention is replaced. -/
theorem Definition.agrees_map {related : ι → κ → Prop} {f : ι → κ} {definition : Definition ι}
    (h : ∀ mention ∈ definition.mentions, related mention (f mention)) :
    definition.Agrees related (definition.map f) := by
  cases definition with
  | intrinsic kind => exact .intrinsic kind
  | object decl =>
    simp only [mentions, List.mem_append, List.mem_map] at h
    refine .object ⟨rfl, rfl, forall₂_map_right fun mention hmem => h mention (.inl (.inl hmem)),
      forall₂_map_right fun mention hmem => h mention (.inl (.inr hmem)),
      forall₂_map_right fun property hmem => ⟨rfl, h _ (.inr ⟨property, hmem, rfl⟩)⟩, rfl⟩
  | tuple elements => exact .tuple (forall₂_map_right h)
  | reference target arguments =>
    obtain ⟨htarget, harguments⟩ := List.forall_mem_cons.mp h
    exact .reference htarget (forall₂_map_right harguments)
  | opaqueType symbol => exact .opaqueType symbol

end Agreement

namespace Graph

variable {base graph graph' : Graph}

/-! ## Growth -/

/-- A graph with one more instantiation. -/
def addApplication (graph : Graph) (target : Handle) (arguments : List Handle) : Graph :=
  { graph with
    definitions := graph.definitions.push (.reference target arguments)
    instances := ((target, arguments), graph.definitions.size) :: graph.instances }

/-- A graph with the unknown type. -/
def addUnknown (graph : Graph) : Graph :=
  { graph with
    definitions := graph.definitions.push (.opaqueType none)
    unknown := some graph.definitions.size }

/-- A graph to which queries have added types. -/
inductive Grown (base : Graph) : Graph → Prop where
  | start : Grown base base
  | application {graph : Graph} {target : Handle} {decl : ObjectDecl Handle}
      {arguments : List Handle} (hgrown : Grown base graph)
      (htarget : base.definitions[target]? = some (.object decl))
      (harguments : ∀ argument ∈ arguments, argument < graph.definitions.size)
      (hnew : graph.instances.lookup (target, arguments) = none) :
      Grown base (graph.addApplication target arguments)
  | unknown {graph : Graph} (hgrown : Grown base graph) (hnew : graph.unknown = none) :
      Grown base graph.addUnknown

theorem Grown.ids_eq (h : Grown base graph) : graph.ids = base.ids := by
  induction h with
  | start => rfl
  | application _ _ _ _ ih => exact ih
  | unknown _ _ ih => exact ih

theorem Grown.size_le (h : Grown base graph) : base.definitions.size ≤ graph.definitions.size := by
  induction h with
  | start => exact le_rfl
  | application _ _ _ _ ih =>
    rw [addApplication, Array.size_push]
    exact ih.trans (Nat.le_succ _)
  | unknown _ _ ih =>
    rw [addUnknown, Array.size_push]
    exact ih.trans (Nat.le_succ _)

/-- The types that are there stay as they are. -/
theorem getElem?_push_of_some {definitions : Array (Definition Handle)} {handle : Handle}
    {old : Definition Handle} (h : definitions[handle]? = some old) (new : Definition Handle) :
    (definitions.push new)[handle]? = some old := by
  obtain ⟨hlt, heq⟩ := Array.getElem?_eq_some_iff.mp h
  rw [Array.getElem?_push_lt hlt, heq]

theorem Grown.definition_eq (h : Grown base graph) {handle : Handle}
    {definition : Definition Handle} (hdefinition : base.definitions[handle]? = some definition) :
    graph.definitions[handle]? = some definition := by
  induction h with
  | start => exact hdefinition
  | application _ _ _ _ ih => exact getElem?_push_of_some ih _
  | unknown _ _ ih => exact getElem?_push_of_some ih _

/-! ## Names -/

/-- The name of a type that is added to types with these names. -/
def nameOf (names : List Term) : Definition Handle → Term
  | .reference target arguments =>
    .applied target (arguments.map fun argument => names[argument]?.getD .unknown)
  | _ => .unknown

/-- The names of types, by handle: those of the document, and one for each type added. -/
def names (base : Graph) (definitions : Array (Definition Handle)) : List Term :=
  (definitions.toList.drop base.definitions.size).foldl
    (fun names definition => names ++ [nameOf names definition])
    ((List.range base.definitions.size).map .declared)

/-- A handle of a graph stands for the type that a term describes. -/
def Denotes (base graph : Graph) (handle : Handle) (term : Term) : Prop :=
  (names base graph.definitions)[handle]? = some term

/-- All types of a graph have the same name in another. -/
def Later (base graph graph' : Graph) : Prop :=
  names base graph.definitions <+: names base graph'.definitions

theorem names_start :
    names base base.definitions = (List.range base.definitions.size).map .declared := by
  rw [names, ← Array.length_toList, List.drop_length, List.foldl_nil]

theorem names_push {definitions : Array (Definition Handle)}
    (h : base.definitions.size ≤ definitions.size) (definition : Definition Handle) :
    names base (definitions.push definition) =
      names base definitions ++ [nameOf (names base definitions) definition] := by
  rw [names, Array.toList_push, List.drop_append_of_le_length (by simpa using h),
    List.foldl_append]
  rfl

theorem Grown.length_names (h : Grown base graph) :
    (names base graph.definitions).length = graph.definitions.size := by
  induction h with
  | start => simp [names_start]
  | application hgrown _ _ _ ih => simp [addApplication, names_push hgrown.size_le, ih]
  | unknown hgrown _ ih => simp [addUnknown, names_push hgrown.size_le, ih]

theorem Later.refl (base graph : Graph) : Later base graph graph := List.prefix_refl _

theorem Later.trans {last : Graph} (h : Later base graph graph')
    (hlast : Later base graph' last) : Later base graph last :=
  List.IsPrefix.trans h hlast

/-- A type keeps its name. -/
theorem Denotes.later {handle : Handle} {term : Term} (h : Denotes base graph handle term)
    (hlater : Later base graph graph') : Denotes base graph' handle term := by
  obtain ⟨added, hadded⟩ := hlater
  obtain ⟨hlt, -⟩ := List.getElem?_eq_some_iff.mp h
  rw [Denotes, ← hadded, List.getElem?_append_left hlt]
  exact h

theorem Denotes.unique {handle : Handle} {term other : Term}
    (h : Denotes base graph handle term) (hother : Denotes base graph handle other) :
    term = other :=
  Option.some.inj (h.symm.trans hother)

theorem Grown.lt_of_denotes (hgrown : Grown base graph) {handle : Handle} {term : Term}
    (h : Denotes base graph handle term) : handle < graph.definitions.size := by
  obtain ⟨hlt, -⟩ := List.getElem?_eq_some_iff.mp h
  rwa [← hgrown.length_names]

theorem Grown.exists_denotes (hgrown : Grown base graph) {handle : Handle}
    (h : handle < graph.definitions.size) : ∃ term, Denotes base graph handle term :=
  ⟨_, List.getElem?_eq_getElem (by rwa [hgrown.length_names])⟩

theorem Grown.names_addApplication (hgrown : Grown base graph) {target : Handle}
    {arguments : List Handle} {terms : List Term}
    (hterms : List.Forall₂ (Denotes base graph) arguments terms) :
    names base (graph.addApplication target arguments).definitions =
      names base graph.definitions ++ [.applied target terms] := by
  have hmap : arguments.map (fun argument =>
      (names base graph.definitions)[argument]?.getD .unknown) = terms := by
    induction hterms with
    | nil => rfl
    | cons hhead _ ih =>
      rw [List.map_cons, ih]
      exact congrArg (· :: _) (by rw [show _[_]? = some _ from hhead]; rfl)
  rw [addApplication, names_push hgrown.size_le, nameOf, hmap]

theorem Grown.names_addUnknown (hgrown : Grown base graph) :
    names base graph.addUnknown.definitions = names base graph.definitions ++ [.unknown] := by
  rw [addUnknown, names_push hgrown.size_le]
  rfl

/-- Adding a type names it and leaves the names of the others. -/
theorem Grown.denotes_append_iff (hgrown : Grown base graph) {added : Term}
    (h : names base graph'.definitions = names base graph.definitions ++ [added])
    {handle : Handle} {term : Term} :
    Denotes base graph' handle term ↔
      Denotes base graph handle term ∨ handle = graph.definitions.size ∧ term = added := by
  rw [Denotes, Denotes, h, ← hgrown.length_names]
  rcases lt_trichotomy handle (names base graph.definitions).length with hlt | heq | hgt
  · simp [List.getElem?_append_left hlt, hlt.ne]
  · subst heq
    simp [eq_comm]
  · rw [List.getElem?_eq_none (by simpa using hgt), List.getElem?_eq_none hgt.le]
    simp [hgt.ne']

theorem Grown.later_addApplication (hgrown : Grown base graph) (target : Handle)
    (arguments : List Handle) : Later base graph (graph.addApplication target arguments) := by
  rw [Later, addApplication, names_push hgrown.size_le]
  exact List.prefix_append _ _

theorem Grown.later_addUnknown (hgrown : Grown base graph) :
    Later base graph graph.addUnknown := by
  rw [Later, addUnknown, names_push hgrown.size_le]
  exact List.prefix_append _ _

theorem denotes_start_iff {handle : Handle} {term : Term} :
    Denotes base base handle term ↔ handle < base.definitions.size ∧ term = .declared handle := by
  rw [Denotes, names_start, List.getElem?_map, Option.map_eq_some_iff]
  constructor
  · rintro ⟨place, hplace, rfl⟩
    obtain ⟨hlt, rfl⟩ := List.getElem?_eq_some_iff.mp hplace
    rw [List.getElem_range]
    exact ⟨by simpa using hlt, rfl⟩
  · rintro ⟨hlt, rfl⟩
    exact ⟨handle, List.getElem?_range hlt, rfl⟩

/-- The types of the document are named by their handles. -/
theorem Grown.denotes_declared (hgrown : Grown base graph) {handle : Handle}
    (hlt : handle < base.definitions.size) : Denotes base graph handle (.declared handle) := by
  induction hgrown with
  | start => exact denotes_start_iff.mpr ⟨hlt, rfl⟩
  | application hgrown _ _ _ ih => exact ih.later (hgrown.later_addApplication _ _)
  | unknown hgrown _ ih => exact ih.later hgrown.later_addUnknown

/-- Types that are there have names. -/
theorem Grown.exists_forall₂_denotes (hgrown : Grown base graph) {handles : List Handle}
    (h : ∀ handle ∈ handles, handle < graph.definitions.size) :
    ∃ terms, List.Forall₂ (Denotes base graph) handles terms := by
  induction handles with
  | nil => exact ⟨[], .nil⟩
  | cons handle rest ih =>
    obtain ⟨hhandle, hrest⟩ := List.forall_mem_cons.mp h
    obtain ⟨term, hterm⟩ := hgrown.exists_denotes hhandle
    obtain ⟨terms, hterms⟩ := ih hrest
    exact ⟨term :: terms, .cons hterm hterms⟩

/-- What a type that queries have added is. -/
inductive Added (base graph : Graph) (handle : Handle) : Term → Prop where
  | application {target : Handle} {decl : ObjectDecl Handle} {arguments : List Handle}
      {terms : List Term} (htarget : base.definitions[target]? = some (.object decl))
      (hdefinition : graph.definitions[handle]? = some (.reference target arguments))
      (hlt : ∀ argument ∈ arguments, argument < handle)
      (hterms : List.Forall₂ (Denotes base graph) arguments terms) :
      Added base graph handle (.applied target terms)
  | unknown (hdefinition : graph.definitions[handle]? = some (.opaqueType none)) :
      Added base graph handle .unknown

theorem Added.later {handle : Handle} {term : Term} (h : Added base graph handle term)
    (hlater : Later base graph graph') {definition : Definition Handle}
    (hdefinitions : graph'.definitions = graph.definitions.push definition) :
    Added base graph' handle term := by
  cases h with
  | application htarget hdefinition hlt hterms =>
    exact .application htarget (hdefinitions ▸ getElem?_push_of_some hdefinition _) hlt
      (hterms.imp fun _ _ h => h.later hlater)
  | unknown hdefinition => exact .unknown (hdefinitions ▸ getElem?_push_of_some hdefinition _)

/-- A type of a grown graph is one of the document's or has been added. -/
theorem Grown.denotes_cases (hgrown : Grown base graph) {handle : Handle} {term : Term}
    (h : Denotes base graph handle term) :
    handle < base.definitions.size ∧ term = .declared handle ∨
      base.definitions.size ≤ handle ∧ Added base graph handle term := by
  induction hgrown generalizing handle term with
  | start => exact .inl (denotes_start_iff.mp h)
  | @application graph target decl arguments hgrown htarget harguments hnew ih =>
    have hlater := hgrown.later_addApplication target arguments
    obtain ⟨terms, hterms⟩ := hgrown.exists_forall₂_denotes harguments
    rcases (hgrown.denotes_append_iff (hgrown.names_addApplication hterms)).mp h with
      hold | ⟨rfl, rfl⟩
    · exact (ih hold).imp_right fun ⟨hle, hadded⟩ => ⟨hle, hadded.later hlater rfl⟩
    · exact .inr ⟨hgrown.size_le, .application htarget Array.getElem?_push_size harguments
        (hterms.imp fun _ _ h => h.later hlater)⟩
  | @unknown graph hgrown hnew ih =>
    have hlater := hgrown.later_addUnknown
    rcases (hgrown.denotes_append_iff hgrown.names_addUnknown).mp h with hold | ⟨rfl, rfl⟩
    · exact (ih hold).imp_right fun ⟨hle, hadded⟩ => ⟨hle, hadded.later hlater rfl⟩
    · exact .inr ⟨hgrown.size_le, .unknown Array.getElem?_push_size⟩

/-- A term has the definition of the type that it names. -/
theorem Grown.definition_agrees (hbase : base.Linked) (hgrown : Grown base graph)
    {handle : Handle} {term : Term} (h : Denotes base graph handle term) :
    ∃ definition, graph.definitions[handle]? = some definition ∧
      definition.Agrees (Denotes base graph) (term.definition base) := by
  rcases hgrown.denotes_cases h with ⟨hlt, rfl⟩ | ⟨-, hadded⟩
  · have hdefinition := Array.getElem?_eq_getElem hlt
    refine ⟨_, hgrown.definition_eq hdefinition, ?_⟩
    rw [Term.definition_declared hdefinition]
    exact Definition.agrees_map fun mention hmem =>
      hgrown.denotes_declared (hbase.mentions_lt hdefinition mention hmem)
  · cases hadded with
    | application htarget hdefinition _ hterms =>
      obtain ⟨hlt, -⟩ := Array.getElem?_eq_some_iff.mp htarget
      exact ⟨_, hdefinition, .reference (hgrown.denotes_declared hlt) hterms⟩
    | unknown hdefinition => exact ⟨_, hdefinition, .opaqueType none⟩

/-! ## One name, one type -/

/-- What keeps the names of a graph apart, and what its tables find. -/
structure Interned (base graph : Graph) : Prop where
  nodup : (names base graph.definitions).Nodup
  /-- An instance that is found carries the name of the application. -/
  found : ∀ {target : Handle} {arguments : List Handle} {handle : Handle},
    graph.instances.lookup (target, arguments) = some handle →
    ∃ terms, List.Forall₂ (Denotes base graph) arguments terms ∧
      Denotes base graph handle (Term.instantiate base target terms)
  /-- The instances of the document are found first. -/
  declared : ∀ {application : Application} {handle : Handle},
    base.instances.lookup application = some handle →
    graph.instances.lookup application = some handle
  /-- An instance that was added is found. -/
  applied : ∀ {handle target : Handle} {terms : List Term},
    Denotes base graph handle (.applied target terms) →
    ∃ arguments, List.Forall₂ (Denotes base graph) arguments terms ∧
      graph.instances.lookup (target, arguments) = some handle
  unknown : ∀ {handle : Handle},
    graph.unknown = some handle ↔ Denotes base graph handle .unknown

theorem Interned.denotes_inj (h : Interned base graph) {handle other : Handle} {term : Term}
    (hhandle : Denotes base graph handle term) (hother : Denotes base graph other term) :
    handle = other := by
  obtain ⟨hlt, -⟩ := List.getElem?_eq_some_iff.mp hhandle
  exact (List.getElem?_inj hlt h.nodup).mp (hhandle.trans hother.symm)

theorem Interned.forall₂_inj (h : Interned base graph) {handles others : List Handle}
    {terms : List Term} (hhandles : List.Forall₂ (Denotes base graph) handles terms)
    (hothers : List.Forall₂ (Denotes base graph) others terms) : handles = others :=
  Relator.LeftUnique.forall₂ (R := Denotes base graph) (fun _ _ _ => h.denotes_inj) hhandles
    hothers

theorem forall₂_denotes_unique {handles : List Handle} {terms others : List Term}
    (hterms : List.Forall₂ (Denotes base graph) handles terms)
    (hothers : List.Forall₂ (Denotes base graph) handles others) : terms = others :=
  Relator.RightUnique.forall₂ (R := Denotes base graph) (fun _ _ _ => Denotes.unique) hterms
    hothers

theorem mapM_handle?_eq_some_iff {terms : List Term} {handles : List Handle} :
    terms.mapM Term.handle? = some handles ↔ terms = handles.map .declared := by
  induction terms generalizing handles with
  | nil => cases handles <;> simp
  | cons term rest ih =>
    rw [List.mapM_cons, Option.bind_eq_bind, Option.bind_eq_some_iff]
    simp only [Option.bind_eq_bind, Option.bind_eq_some_iff, ih]
    cases term <;> cases handles <;> simp [Term.handle?, and_comm]

theorem Term.declaredInstance?_eq_some_iff {target : Handle} {terms : List Term}
    {handle : Handle} :
    Term.declaredInstance? base target terms = some handle ↔
      ∃ arguments : List Handle, terms = arguments.map .declared ∧
        base.instances.lookup (target, arguments) = some handle := by
  simp only [declaredInstance?, Option.bind_eq_some_iff, mapM_handle?_eq_some_iff]

/-- The instances of a document are its references. -/
theorem Linked.definition_of_lookup (hbase : base.Linked) {target : Handle}
    {arguments : List Handle} {handle : Handle}
    (h : base.instances.lookup (target, arguments) = some handle) :
    base.definitions[handle]? = some (.reference target arguments) := by
  obtain ⟨before, after, happend, -⟩ := List.lookup_eq_some_iff.mp h
  have hmem : ((target, arguments), handle) ∈ declaredInstances base.definitions.toList := by
    rw [← hbase.instances_eq, happend]
    exact List.mem_append_right _ List.mem_cons_self
  obtain ⟨⟨definition, place⟩, hplace, hentry⟩ := List.mem_filterMap.mp hmem
  rw [List.mk_mem_zipIdx_iff_getElem?, Array.getElem?_toList] at hplace
  cases definition with
  | reference other others =>
    cases hentry
    exact hplace
  | _ => cases hentry

theorem Linked.interned_start (hbase : base.Linked) : Interned base base := by
  refine ⟨?_, ?_, id, ?_, ?_⟩
  · rw [names_start]
    exact List.nodup_range.map fun _ _ h => Term.declared.inj h
  · intro target arguments handle h
    have hdefinition := hbase.definition_of_lookup h
    obtain ⟨hlt, -⟩ := Array.getElem?_eq_some_iff.mp hdefinition
    refine ⟨arguments.map .declared, forall₂_map_right fun argument hmem =>
      Grown.start.denotes_declared (hbase.mentions_lt hdefinition argument (.tail _ hmem)), ?_⟩
    rw [Term.instantiate, Term.declaredInstance?_eq_some_iff.mpr ⟨arguments, rfl, h⟩]
    exact Grown.start.denotes_declared hlt
  · intro handle target terms h
    cases (denotes_start_iff.mp h).2
  · intro handle
    rw [hbase.unknown_eq]
    constructor
    · intro h
      cases h
    · intro h
      cases (denotes_start_iff.mp h).2

/-- The name of an application that is not found is the application itself. -/
theorem Interned.instantiate_eq_of_lookup (hbase : base.Linked) (hgrown : Grown base graph)
    (h : Interned base graph) {target : Handle} {arguments : List Handle} {terms : List Term}
    (hterms : List.Forall₂ (Denotes base graph) arguments terms)
    (hnew : graph.instances.lookup (target, arguments) = none) :
    Term.instantiate base target terms = .applied target terms := by
  cases hdeclared : Term.declaredInstance? base target terms with
  | none => rw [Term.instantiate, hdeclared]; rfl
  | some handle =>
    obtain ⟨others, rfl, hlookup⟩ := Term.declaredInstance?_eq_some_iff.mp hdeclared
    have hdefinition := hbase.definition_of_lookup hlookup
    have hothers : List.Forall₂ (Denotes base graph) others (others.map .declared) :=
      forall₂_map_right fun other hmem =>
        hgrown.denotes_declared (hbase.mentions_lt hdefinition other (.tail _ hmem))
    rw [h.forall₂_inj hterms hothers, h.declared hlookup] at hnew
    cases hnew

/-- No type has the name of an application that is not found. -/
theorem Interned.not_denotes_of_lookup (h : Interned base graph) {target : Handle}
    {arguments : List Handle} {terms : List Term}
    (hterms : List.Forall₂ (Denotes base graph) arguments terms)
    (hnew : graph.instances.lookup (target, arguments) = none) (handle : Handle) :
    ¬ Denotes base graph handle (.applied target terms) := by
  intro hdenotes
  obtain ⟨others, hothers, hlookup⟩ := h.applied hdenotes
  rw [h.forall₂_inj hterms hothers, hlookup] at hnew
  cases hnew

theorem nodup_append_singleton {names : List Term} {term : Term} (hnodup : names.Nodup)
    (hnew : ∀ place : Nat, names[place]? ≠ some term) : (names ++ [term]).Nodup := by
  refine hnodup.append (List.nodup_singleton _) (List.disjoint_singleton.mpr fun hmem => ?_)
  obtain ⟨place, hplace⟩ := List.mem_iff_getElem?.mp hmem
  exact hnew place hplace

theorem lookup_addApplication (target : Handle) (arguments : List Handle)
    (application : Application) :
    (graph.addApplication target arguments).instances.lookup application =
      if application = (target, arguments) then some graph.definitions.size
      else graph.instances.lookup application := by
  rw [addApplication, List.lookup_cons]
  split
  · rename_i heq
    rw [if_pos (beq_iff_eq.mp heq)]
  · rename_i hne
    rw [if_neg (by simpa using hne)]

theorem Interned.addApplication (hbase : base.Linked) (hgrown : Grown base graph)
    (h : Interned base graph) {target : Handle} {arguments : List Handle}
    (harguments : ∀ argument ∈ arguments, argument < graph.definitions.size)
    (hnew : graph.instances.lookup (target, arguments) = none) :
    Interned base (graph.addApplication target arguments) := by
  have hlater := hgrown.later_addApplication target arguments
  obtain ⟨terms, hterms⟩ := hgrown.exists_forall₂_denotes harguments
  have hinstantiate := h.instantiate_eq_of_lookup hbase hgrown hterms hnew
  have hother : ∀ {application : Application} {handle : Handle},
      graph.instances.lookup application = some handle →
      (graph.addApplication target arguments).instances.lookup application = some handle := by
    intro application handle hlookup
    rw [lookup_addApplication, if_neg, hlookup]
    rintro rfl
    rw [hnew] at hlookup
    cases hlookup
  refine ⟨?_, ?_, fun hlookup => hother (h.declared hlookup), ?_, ?_⟩
  · rw [hgrown.names_addApplication hterms]
    exact nodup_append_singleton h.nodup (h.not_denotes_of_lookup hterms hnew)
  · intro other others handle hlookup
    rw [lookup_addApplication] at hlookup
    split at hlookup
    · rename_i heq
      cases heq
      cases hlookup
      refine ⟨terms, hterms.imp fun _ _ h => h.later hlater, ?_⟩
      rw [hinstantiate, hgrown.denotes_append_iff (hgrown.names_addApplication hterms)]
      exact .inr ⟨rfl, rfl⟩
    · obtain ⟨others', hothers, hhandle⟩ := h.found hlookup
      exact ⟨others', hothers.imp fun _ _ h => h.later hlater, hhandle.later hlater⟩
  · intro handle other others hdenotes
    rcases (hgrown.denotes_append_iff (hgrown.names_addApplication hterms)).mp hdenotes with
      hold | ⟨rfl, heq⟩
    · obtain ⟨arguments', harguments', hlookup⟩ := h.applied hold
      exact ⟨arguments', harguments'.imp fun _ _ h => h.later hlater, hother hlookup⟩
    · cases heq
      refine ⟨arguments, hterms.imp fun _ _ h => h.later hlater, ?_⟩
      rw [lookup_addApplication, if_pos rfl]
  · intro handle
    rw [hgrown.denotes_append_iff (hgrown.names_addApplication hterms), ← h.unknown]
    simp [Graph.addApplication]

theorem Interned.addUnknown (hgrown : Grown base graph) (h : Interned base graph)
    (hnew : graph.unknown = none) : Interned base graph.addUnknown := by
  have hlater := hgrown.later_addUnknown
  refine ⟨?_, ?_, h.declared, ?_, ?_⟩
  · rw [hgrown.names_addUnknown]
    refine nodup_append_singleton h.nodup fun handle hdenotes => ?_
    rw [h.unknown.mpr hdenotes] at hnew
    cases hnew
  · intro target arguments handle hlookup
    obtain ⟨terms, hterms, hhandle⟩ := h.found hlookup
    exact ⟨terms, hterms.imp fun _ _ h => h.later hlater, hhandle.later hlater⟩
  · intro handle target terms hdenotes
    rcases (hgrown.denotes_append_iff hgrown.names_addUnknown).mp hdenotes with hold | ⟨-, heq⟩
    · obtain ⟨arguments, harguments, hlookup⟩ := h.applied hold
      exact ⟨arguments, harguments.imp fun _ _ h => h.later hlater, hlookup⟩
    · cases heq
  · intro handle
    rw [hgrown.denotes_append_iff hgrown.names_addUnknown, ← h.unknown, hnew]
    simp [Graph.addUnknown, eq_comm]

/-- In a graph that has grown, names are kept apart. -/
theorem Grown.interned (hbase : base.Linked) (hgrown : Grown base graph) :
    Interned base graph := by
  induction hgrown with
  | start => exact hbase.interned_start
  | application hgrown _ harguments hnew ih =>
    exact ih.addApplication hbase hgrown harguments hnew
  | unknown hgrown hnew ih => exact ih.addUnknown hgrown hnew

end Graph

end GraphSchema
