import Mathlib
import GraphSchema.Proofs.Graph.History
import GraphSchema.Proofs.Graph.Unfolding

/-!
# Members seen through instantiations

A member of an instantiation has the type that its generic definition gives it, with the arguments
put in.  The graph does not compute it that way: an inherited member is seen through an
instantiation of its owner, and that instantiation is rewritten at every generic base type on the
way down to the type at hand, before the declared type of the member is looked at once.

In a document whose definitions mention no parameters but their own (`Graph.WellScoped`) both ways
lead to the same unfolding (`sameUnfolding_of_instantiation`).  What a collected symbol is seen
through supplies all parameters of the owner (`Term.Settled`), so no parameter of the type at hand
is left for it to be taken for another (`Term.exists_unfoldsTo_seenThrough`).
-/

namespace GraphSchema.Graph

variable {base graph : Graph}

/-! ## Well-scoped documents -/

/-- A type is a parameter of some definition. -/
def IsParameter (graph : Graph) (handle : Handle) : Prop :=
  ∃ (place : Handle) (decl : ObjectDecl Handle),
    graph.definitions[place]? = some (.object decl) ∧ handle ∈ decl.parameters

/-- Parameters are used as parameters. -/
structure WellScoped (graph : Graph) : Prop where
  /-- Parameters are opaque types. -/
  parameter_eq : ∀ {handle : Handle} {decl : ObjectDecl Handle},
    graph.definitions[handle]? = some (.object decl) →
    ∀ parameter ∈ decl.parameters,
      ∃ symbol, graph.definitions[parameter]? = some (.opaqueType symbol)
  /-- They are distinct within a definition. -/
  parameters_nodup : ∀ {handle : Handle} {decl : ObjectDecl Handle},
    graph.definitions[handle]? = some (.object decl) → decl.parameters.Nodup
  /-- Every reference supplies as many arguments as its target has parameters. -/
  arity : ∀ {handle target : Handle} {arguments : List Handle} {decl : ObjectDecl Handle},
    graph.definitions[handle]? = some (.reference target arguments) →
    graph.definitions[target]? = some (.object decl) →
    arguments.length = decl.parameters.length
  /-- No reference reaches itself through arguments. -/
  acyclic : ∀ handle, ¬ Relation.TransGen graph.HasArgument handle handle
  /-- The only parameters in the base types and property types of an object are its own. -/
  mentions : ∀ {handle : Handle} {decl : ObjectDecl Handle},
    graph.definitions[handle]? = some (.object decl) →
    ∀ mention ∈ decl.bases ++ decl.properties.map Prod.snd, ∀ parameter,
      Relation.ReflTransGen graph.HasArgument mention parameter →
      graph.IsParameter parameter → parameter ∈ decl.parameters
  /-- A generic definition is never a base type as it is. -/
  bases : ∀ {handle : Handle} {decl : ObjectDecl Handle},
    graph.definitions[handle]? = some (.object decl) →
    ∀ parent ∈ decl.bases, ∀ {general : ObjectDecl Handle},
      graph.definitions[parent]? = some (.object general) → general.parameters = []

/-! ## Lookups in bindings -/

section Lookups

variable {α β γ : Type} [DecidableEq α]

theorem lookup_zip_rel {related : β → γ → Prop} {values : List β} {others : List γ}
    (h : List.Forall₂ related values others) (keys : List α) (key : α) :
    Option.Rel related ((keys.zip values).lookup key) ((keys.zip others).lookup key) := by
  induction keys generalizing values others with
  | nil => exact .none
  | cons first rest ih =>
    cases h with
    | nil => exact .none
    | cons hhead hrest =>
      rw [List.zip_cons_cons, List.zip_cons_cons, List.lookup_cons, List.lookup_cons]
      cases key == first with
      | true => exact .some hhead
      | false => exact ih hrest

theorem lookup_zip_map (f : β → γ) (keys : List α) (values : List β) (key : α) :
    (keys.zip (values.map f)).lookup key = ((keys.zip values).lookup key).map f := by
  induction keys generalizing values with
  | nil => rfl
  | cons first rest ih =>
    cases values with
    | nil => rfl
    | cons value values =>
      rw [List.map_cons, List.zip_cons_cons, List.zip_cons_cons, List.lookup_cons,
        List.lookup_cons]
      cases key == first with
      | true => rfl
      | false => exact ih values

theorem mem_of_lookup_zip {keys : List α} {values : List β} {key : α} {value : β}
    (h : (keys.zip values).lookup key = some value) : key ∈ keys := by
  obtain ⟨before, after, happend, -⟩ := List.lookup_eq_some_iff.mp h
  have hmem : (key, value) ∈ keys.zip values := by
    rw [happend]
    exact List.mem_append_right _ List.mem_cons_self
  exact (List.of_mem_zip hmem).1

/-- A key is found where there is a value for every key. -/
theorem not_mem_of_lookup_zip {keys : List α} {values : List β} {key : α}
    (hlength : values.length = keys.length) (h : (keys.zip values).lookup key = none) :
    key ∉ keys := by
  have hkeys : (keys.zip values).map Prod.fst = keys := List.map_fst_zip hlength.ge
  intro hmem
  rw [← hkeys] at hmem
  obtain ⟨pair, hpair, rfl⟩ := List.mem_map.mp hmem
  exact bne_iff_ne.mp (List.lookup_eq_none_iff.mp h pair hpair) rfl

end Lookups

/-! ## Leaves -/

namespace Term

variable {instantiation : Term} {target : Handle} {arguments : List Term}
  {decl : ObjectDecl Handle} {trees : List (Unfolding Term)}

/-- A leaf of the unfolding of a declared type is a declared type that occurs in it. -/
theorem exists_of_hasLeaf {handle : Handle} {tree : Unfolding Term} {leaf : Term}
    (htree : UnfoldsTo base (declared handle) tree) (h : tree.HasLeaf leaf) :
    ∃ place, leaf = declared place ∧ Relation.ReflTransGen base.HasArgument handle place := by
  induction tree generalizing handle with
  | leaf type =>
    cases h
    cases htree
    exact ⟨handle, rfl, .refl⟩
  | node target trees ih =>
    cases htree with | node hdefinition harguments
    cases h with | node hmem hleaf
    obtain ⟨argument', hargument', hunfolds⟩ := exists_mem_of_forall₂ harguments hmem
    obtain ⟨target', others, hreference, -⟩ :=
      exists_getElem?_of_reference (Option.some.inj hdefinition)
    rw [definition_declared hreference] at hdefinition
    cases hdefinition
    obtain ⟨argument, hargument, rfl⟩ := List.mem_map.mp hargument'
    obtain ⟨place, hplace, hoccurs⟩ := ih _ hmem hunfolds hleaf
    exact ⟨place, hplace, .head ⟨target', others, hreference, hargument⟩ hoccurs⟩

/-- The unfoldings that parameters stand for. -/
def assigned (parameters : List Handle) (trees : List (Unfolding Term)) (key : Term) :
    Option (Unfolding Term) :=
  ((parameters.map declared).zip trees).lookup key

/-- No parameter is left in the type of a property when those of its owner are assigned. -/
theorem assigned_eq_none (hscoped : base.WellScoped) {owner : Handle}
    {ownerDecl : ObjectDecl Handle} (howner : base.definitions[owner]? = some (.object ownerDecl))
    {member : Handle} (hmember : member ∈ ownerDecl.properties.map Prod.snd)
    {tree : Unfolding Term} (htree : UnfoldsTo base (declared member) tree)
    {others : List (Unfolding Term)} (hlength : others.length = ownerDecl.parameters.length)
    (hdecl : base.definitions[target]? = some (.object decl)) {leaf : Term}
    (hleaf : tree.HasLeaf leaf) (hnone : assigned ownerDecl.parameters others leaf = none) :
    assigned decl.parameters trees leaf = none := by
  obtain ⟨place, rfl, hoccurs⟩ := exists_of_hasLeaf htree hleaf
  rw [Option.eq_none_iff_forall_ne_some]
  intro tree' hsome
  obtain ⟨parameter, hparameter, heq⟩ := List.mem_map.mp (mem_of_lookup_zip hsome)
  cases heq
  have hown := hscoped.mentions howner member (List.mem_append_right _ hmember) place hoccurs
    ⟨target, decl, hdecl, hparameter⟩
  exact not_mem_of_lookup_zip (by rw [hlength, List.length_map]) hnone
    (List.mem_map_of_mem hown)

/-! ## Bindings of an instantiation -/

theorem bindings_eq (hinstantiation : instantiation.definition base =
      .reference (declared target) arguments)
    (hdecl : base.definitions[target]? = some (.object decl)) :
    instantiation.bindings base = (decl.parameters.map declared).zip arguments := by
  rw [bindings, hinstantiation]
  dsimp only
  rw [definition_declared hdecl]
  rfl

theorem lookup_bindings_eq_none (hinstantiation : instantiation.definition base =
      .reference (declared target) arguments)
    (hdecl : base.definitions[target]? = some (.object decl)) {term : Term}
    (h : term ∉ decl.parameters.map declared) :
    (instantiation.bindings base).lookup term = none := by
  rw [bindings_eq hinstantiation hdecl, Option.eq_none_iff_forall_ne_some]
  exact fun argument hsome => h (mem_of_lookup_zip hsome)

/-- Putting the arguments of an instantiation into a type replaces the parameters among the leaves
of its unfolding. -/
theorem unfoldsTo_instantiated (hbase : base.Linked) (hscoped : base.WellScoped)
    (hinstantiation : instantiation.definition base = .reference (declared target) arguments)
    (hdecl : base.definitions[target]? = some (.object decl))
    (harguments : List.Forall₂ (UnfoldsTo base) arguments trees) {term : Term}
    {tree : Unfolding Term} (htree : UnfoldsTo base term tree) :
    UnfoldsTo base (term.substitute base (instantiation.bindings base))
      (tree.substitute (assigned decl.parameters trees)) := by
  rw [bindings_eq hinstantiation hdecl]
  refine unfoldsTo_substitute hbase (lookup_zip_rel harguments _) (fun pair hpair => ?_) htree
  obtain ⟨parameter, hparameter, heq⟩ := List.mem_map.mp (List.of_mem_zip hpair).1
  obtain ⟨symbol, hsymbol⟩ := hscoped.parameter_eq hdecl parameter hparameter
  rw [← heq, definition_declared hsymbol]
  exact nofun

/-! ## Symbols of members -/

/-- A symbol whose type mentions no parameter but through what it is seen: its owner has none, or
an instantiation supplies them all. -/
inductive Settled (base : Graph) : Symbol → Prop where
  | plain {owner : Handle} {decl : ObjectDecl Handle} (name : String)
      (howner : base.definitions[owner]? = some (.object decl)) (hplain : decl.parameters = []) :
      Settled base (.property (declared owner) name none)
  | inner {owner : Handle} {decl : ObjectDecl Handle} {through : Term}
      {trees : List (Unfolding Term)} (name : String)
      (howner : base.definitions[owner]? = some (.object decl))
      (hthrough : UnfoldsTo base through (.node (declared owner) trees))
      (hlength : trees.length = decl.parameters.length) :
      Settled base (.property (declared owner) name (some through))

theorem seenThrough_own (instantiation target : Term) (pairs : Bindings) (name : String) :
    seenThrough base instantiation target pairs (.property target name none) =
      .property target name (some instantiation) := by
  rw [seenThrough, if_pos rfl]

/-- The declared type of a property is a type of the document. -/
theorem exists_of_declared? {owner : Handle}
    (howner : base.definitions[owner]? = some (.object decl)) {name : String} {member : Term}
    (h : declared? base (declared owner) name = some member) :
    ∃ handle ∈ decl.properties.map Prod.snd, member = declared handle := by
  rw [declared?, definition_declared howner] at h
  change Fields.get? (Fields.mapValues declared decl.properties) name = some member at h
  rw [Fields.get?_mapValues, Option.map_eq_some_iff] at h
  obtain ⟨handle, hhandle, rfl⟩ := h
  exact ⟨handle, List.mem_map.mpr ⟨_, Fields.mem_of_get? hhandle, rfl⟩, rfl⟩

/-- An instantiation that unfolds has arguments that unfold. -/
theorem exists_of_unfoldsTo_node {term : Term} {target : Term}
    (h : UnfoldsTo base term (.node target trees)) :
    ∃ arguments, term.definition base = .reference target arguments ∧
      List.Forall₂ (UnfoldsTo base) arguments trees := by
  cases h with | node h harguments
  exact ⟨_, Option.some.inj h, harguments⟩

theorem assigned_map (parameters : List Handle) (f : Unfolding Term → Unfolding Term) :
    assigned parameters (trees.map f) = fun key => (assigned parameters trees key).map f :=
  funext fun key => lookup_zip_map f (parameters.map declared) trees key

section Seen

variable (hinstantiation : instantiation.definition base =
    .reference (declared target) arguments)
  (hdecl : base.definitions[target]? = some (.object decl))

include hinstantiation hdecl

theorem substitute_unknown : unknown.substitute base (instantiation.bindings base) = unknown := by
  have hunknown : (instantiation.bindings base).lookup unknown = none :=
    lookup_bindings_eq_none hinstantiation hdecl (by simp)
  rw [substitute, hunknown]
  rfl

/-- A member that the generic definition declares itself. -/
theorem typeOfSymbol_seenThrough_own (name : String) :
    typeOfSymbol base (seenThrough base instantiation (declared target)
        (instantiation.bindings base) (.property (declared target) name none)) =
      (typeOfSymbol base (.property (declared target) name none)).substitute base
        (instantiation.bindings base) := by
  rw [seenThrough_own, typeOfSymbol, typeOfSymbol]
  cases declared? base (declared target) name with
  | some member => rfl
  | none => exact (substitute_unknown hinstantiation hdecl).symm

variable (hbase : base.Linked) (hscoped : base.WellScoped)

include hbase hscoped

/-- A member of a definition without parameters, which stays as it is. -/
theorem exists_unfoldsTo_plain {owner : Handle} {ownerDecl : ObjectDecl Handle}
    (howner : base.definitions[owner]? = some (.object ownerDecl))
    (hplain : ownerDecl.parameters = []) (name : String) :
    ∃ tree, UnfoldsTo base (typeOfSymbol base (.property (declared owner) name none)) tree ∧
      UnfoldsTo base ((typeOfSymbol base (.property (declared owner) name none)).substitute base
        (instantiation.bindings base)) tree := by
  rw [typeOfSymbol]
  cases hmember : declared? base (declared owner) name with
  | none =>
    dsimp only
    rw [substitute_unknown hinstantiation hdecl]
    exact ⟨_, unfoldsTo_unknown, unfoldsTo_unknown⟩
  | some member =>
    obtain ⟨handle, hhandle, rfl⟩ := exists_of_declared? howner hmember
    obtain ⟨trees, htrees⟩ := exists_forall₂_unfoldsTo hbase hscoped.acyclic arguments
    obtain ⟨tree, htree⟩ := exists_unfoldsTo hbase hscoped.acyclic (declared handle)
    have hsubstituted := unfoldsTo_instantiated hbase hscoped hinstantiation hdecl htrees htree
    rw [Unfolding.substitute_eq_self] at hsubstituted
    · exact ⟨tree, htree, hsubstituted⟩
    · intro leaf hleaf
      have hlength : ([] : List (Unfolding Term)).length = ownerDecl.parameters.length := by
        rw [hplain, List.length_nil, List.length_nil]
      refine assigned_eq_none hscoped howner hhandle htree hlength hdecl hleaf ?_
      rw [hplain]
      rfl

/-- A member that is seen through an instantiation of its owner.  The arguments are put into the
arguments of that instantiation on one side, and into the type of the member on the other. -/
theorem exists_unfoldsTo_inner {owner : Handle} {ownerDecl : ObjectDecl Handle} {through : Term}
    {others : List (Unfolding Term)}
    (howner : base.definitions[owner]? = some (.object ownerDecl))
    (hthrough : UnfoldsTo base through (.node (declared owner) others))
    (hlength : others.length = ownerDecl.parameters.length) (name : String) :
    ∃ tree,
      UnfoldsTo base (typeOfSymbol base (.property (declared owner) name
        (some (through.substitute base (instantiation.bindings base))))) tree ∧
      UnfoldsTo base ((typeOfSymbol base (.property (declared owner) name
        (some through))).substitute base (instantiation.bindings base)) tree := by
  rw [typeOfSymbol, typeOfSymbol]
  cases hmember : declared? base (declared owner) name with
  | none =>
    dsimp only
    rw [substitute_unknown hinstantiation hdecl]
    exact ⟨_, unfoldsTo_unknown, unfoldsTo_unknown⟩
  | some member =>
    obtain ⟨handle, hhandle, rfl⟩ := exists_of_declared? howner hmember
    obtain ⟨trees, htrees⟩ := exists_forall₂_unfoldsTo hbase hscoped.acyclic arguments
    obtain ⟨tree, htree⟩ := exists_unfoldsTo hbase hscoped.acyclic (declared handle)
    have hthrough' := unfoldsTo_instantiated hbase hscoped hinstantiation hdecl htrees hthrough
    rw [Unfolding.substitute] at hthrough'
    obtain ⟨arguments₁, hdefinition₁, harguments₁⟩ := exists_of_unfoldsTo_node hthrough
    obtain ⟨arguments₂, hdefinition₂, harguments₂⟩ := exists_of_unfoldsTo_node hthrough'
    have hviewed := unfoldsTo_instantiated hbase hscoped hdefinition₂ howner harguments₂ htree
    have hsubstituted := unfoldsTo_instantiated hbase hscoped hinstantiation hdecl htrees
      (unfoldsTo_instantiated hbase hscoped hdefinition₁ howner harguments₁ htree)
    rw [Unfolding.substitute_substitute fun leaf hleaf =>
      assigned_eq_none hscoped howner hhandle htree hlength hdecl hleaf] at hsubstituted
    rw [assigned_map] at hviewed
    exact ⟨_, hviewed, hsubstituted⟩

/-- Seen through an instantiation, a member has the unfolding that putting the arguments into its
type gives. -/
theorem exists_unfoldsTo_seenThrough {symbol : Symbol}
    (hsymbol : Settled base symbol ∨ ∃ name, symbol = .property (declared target) name none) :
    ∃ tree,
      UnfoldsTo base (typeOfSymbol base (seenThrough base instantiation (declared target)
        (instantiation.bindings base) symbol)) tree ∧
      UnfoldsTo base ((typeOfSymbol base symbol).substitute base
        (instantiation.bindings base)) tree := by
  have hown : ∀ name, ∃ tree,
      UnfoldsTo base (typeOfSymbol base (seenThrough base instantiation (declared target)
        (instantiation.bindings base) (.property (declared target) name none))) tree ∧
      UnfoldsTo base ((typeOfSymbol base (.property (declared target) name none)).substitute base
        (instantiation.bindings base)) tree := by
    intro name
    rw [typeOfSymbol_seenThrough_own hinstantiation hdecl]
    obtain ⟨tree, htree⟩ := exists_unfoldsTo hbase hscoped.acyclic _
    exact ⟨tree, htree, htree⟩
  rcases hsymbol with hsettled | ⟨name, rfl⟩
  · cases hsettled with
    | @plain owner ownerDecl name howner hplain =>
      by_cases hsame : owner = target
      · subst hsame
        exact hown name
      · rw [seenThrough, if_neg fun h => hsame (declared.inj h)]
        exact exists_unfoldsTo_plain hinstantiation hdecl hbase hscoped howner hplain name
    | inner name howner hthrough hlength =>
      rw [seenThrough]
      exact exists_unfoldsTo_inner hinstantiation hdecl hbase hscoped howner hthrough hlength name
  · exact hown name

/-- What is settled in the generic definition is settled in an instantiation, and so is what the
definition declares itself. -/
theorem settled_seenThrough (hlength : arguments.length = decl.parameters.length) {symbol : Symbol}
    (hsymbol : Settled base symbol ∨ ∃ name, symbol = .property (declared target) name none) :
    Settled base (seenThrough base instantiation (declared target)
      (instantiation.bindings base) symbol) := by
  obtain ⟨trees, htrees⟩ := exists_forall₂_unfoldsTo hbase hscoped.acyclic arguments
  have hown : ∀ name, Settled base (seenThrough base instantiation (declared target)
      (instantiation.bindings base) (.property (declared target) name none)) := by
    intro name
    rw [seenThrough_own]
    exact .inner name hdecl (unfoldsTo_node hinstantiation htrees)
      (htrees.length_eq.symm.trans hlength)
  rcases hsymbol with hsettled | ⟨name, rfl⟩
  · cases hsettled with
    | @plain owner ownerDecl name howner hplain =>
      by_cases hsame : owner = target
      · subst hsame
        exact hown name
      · rw [seenThrough, if_neg fun h => hsame (declared.inj h)]
        exact .plain name howner hplain
    | inner name howner hthrough hothers =>
      rw [seenThrough]
      have hthrough' := unfoldsTo_instantiated hbase hscoped hinstantiation hdecl htrees hthrough
      rw [Unfolding.substitute] at hthrough'
      exact .inner name howner hthrough' (by rw [List.length_map, hothers])
  · exact hown name

end Seen

/-! ## Collected symbols -/

/-- A symbol among those of a declared type: settled, or of a property that the type declares
itself. -/
def SettledOrOwn (base : Graph) (handle : Handle) (symbol : Symbol) : Prop :=
  Settled base symbol ∨ ∃ (decl : ObjectDecl Handle) (name : String),
    base.definitions[handle]? = some (.object decl) ∧
      symbol = .property (declared handle) name none

/-- What is collected for a base type is settled. -/
theorem settled_of_base (hscoped : base.WellScoped) {handle parent : Handle}
    (hdecl : base.definitions[handle]? = some (.object decl)) (hparent : parent ∈ decl.bases)
    {symbol : Symbol} (h : SettledOrOwn base parent symbol) : Settled base symbol := by
  rcases h with hsettled | ⟨general, name, hgeneral, rfl⟩
  · exact hsettled
  · exact .plain name hgeneral (hscoped.bases hdecl parent hparent hgeneral)

theorem settledOrOwn_collectProperties (hbase : base.Linked) (hscoped : base.WellScoped)
    {steps : Nat} {handle : Handle} {known : Fields Symbol}
    (hknown : ∀ entry ∈ known, Settled base entry.2) :
    ∀ entry ∈ collectProperties base steps (declared handle) known,
      SettledOrOwn base handle entry.2 := by
  induction steps generalizing handle known with
  | zero => exact fun entry hmem => .inl (hknown entry hmem)
  | succ steps ih =>
    rw [collectProperties]
    cases hdefinition : base.definitions[handle]? with
    | none =>
      rw [definition, hdefinition]
      exact fun entry hmem => .inl (hknown entry hmem)
    | some found =>
      rw [definition_declared hdefinition]
      cases found with
      | object decl =>
        have hbases : ∀ entry ∈ (decl.bases.map declared).foldl
            (fun known parent => collectProperties base steps parent known) known,
            Settled base entry.2 := by
          rw [List.foldl_map]
          refine List.foldlRecOn
            (motive := fun fields : Fields Symbol => ∀ entry ∈ fields, Settled base entry.2)
            _ _ hknown fun known hknown parent hparent entry hentry => ?_
          exact settled_of_base hscoped hdefinition hparent (ih hknown entry hentry)
        refine List.foldlRecOn
          (motive := fun fields : Fields Symbol => ∀ entry ∈ fields, SettledOrOwn base handle entry.2)
          _ _ (fun entry hmem => .inl (hbases entry hmem)) fun known hknown property _ => ?_
        exact Fields.forall_mem_put hknown (.inr ⟨decl, property.1, hdefinition, rfl⟩)
      | reference target arguments =>
        obtain ⟨decl, hdecl⟩ := hbase.target_object hdefinition
        have hlength : (arguments.map declared).length = decl.parameters.length := by
          rw [List.length_map]
          exact hscoped.arity hdefinition hdecl
        have hinner : ∀ entry ∈ collectProperties base steps (declared target) [],
            SettledOrOwn base target entry.2 := ih (List.forall_mem_nil _)
        refine List.foldlRecOn
          (motive := fun fields : Fields Symbol => ∀ entry ∈ fields, SettledOrOwn base handle entry.2)
          _ _ (fun entry hmem => .inl (hknown entry hmem)) fun known hknown entry hentry => ?_
        refine Fields.forall_mem_put hknown (.inl ?_)
        refine settled_seenThrough (definition_declared hdefinition) hdecl hbase hscoped hlength ?_
        refine (hinner entry hentry).imp_right ?_
        rintro ⟨_, name, -, heq⟩
        exact ⟨name, heq⟩
      | _ => exact fun entry hmem => .inl (hknown entry hmem)

/-- Any number of steps that is enough for the walk along base types collects the same. -/
theorem collectProperties_congr (hbase : base.Linked) {walk steps more : Nat}
    {path : List Handle} {handle : Handle} {known : Fields Symbol}
    (hclear : BaseWalk.visit base.definitions walk path handle = .clear)
    (hsteps : 2 * walk ≤ steps) (hmore : 2 * walk ≤ more) :
    collectProperties base steps (declared handle) known =
      collectProperties base more (declared handle) known := by
  induction walk generalizing steps more path handle known with
  | zero => cases hclear
  | succ walk ih =>
    obtain ⟨steps, rfl⟩ : ∃ rest, steps = rest + 2 := ⟨steps - 2, by omega⟩
    obtain ⟨more, rfl⟩ : ∃ rest, more = rest + 2 := ⟨more - 2, by omega⟩
    have hobject : ∀ {declaration decl steps more known}, 2 * walk ≤ steps → 2 * walk ≤ more →
        BaseWalk.declaration? base.definitions handle = some declaration →
        base.definitions[declaration]? = some (.object decl) →
        collectProperties base (steps + 1) (declared declaration) known =
          collectProperties base (more + 1) (declared declaration) known := by
      intro declaration decl steps more known hsteps hmore hdeclaration hdecl
      rw [collectProperties, collectProperties, definition_declared hdecl]
      dsimp only [Definition.map]
      congr 1
      rw [List.foldl_map, List.foldl_map]
      refine List.foldl_ext _ _ _ fun known parent hparent => ?_
      refine ih (BaseWalk.visit_eq_clear_of_mem hclear hdeclaration ?_) hsteps hmore
      rwa [BaseWalk.basesOf_eq hdecl]
    cases hdefinition : base.definitions[handle]? with
    | none => simp [collectProperties, definition, hdefinition]
    | some found =>
      cases found with
      | object decl =>
        exact hobject (by omega) (by omega) (BaseWalk.declaration?_eq hdefinition) hdefinition
      | reference target arguments =>
        obtain ⟨decl, hdecl⟩ := hbase.target_object hdefinition
        rw [collectProperties, collectProperties, definition_declared hdefinition]
        dsimp only [Definition.map]
        have hinner : collectProperties base (steps + 1) (declared target) [] =
            collectProperties base (more + 1) (declared target) [] :=
          hobject (by omega) (by omega) (BaseWalk.declaration?_eq hdefinition) hdecl
        rw [hinner]
      | _ => simp [collectProperties, definition, hdefinition, Definition.map]

/-- The properties of an instantiation are those of its target, seen through it. -/
theorem properties_of_instantiation (hbase : base.Linked)
    (hinstantiation : instantiation.definition base = .reference (declared target) arguments)
    (hdecl : base.definitions[target]? = some (.object decl)) :
    instantiation.properties base = ((declared target).properties base).map
      (seenThrough base instantiation (declared target) (instantiation.bindings base)) := by
  obtain ⟨hlt, -⟩ := Array.getElem?_eq_some_iff.mp hdecl
  have hsteps : collectProperties base (2 * base.definitions.size + 3) (declared target) [] =
      collectProperties base (2 * base.definitions.size + 2) (declared target) [] :=
    collectProperties_congr hbase (hbase.clear target hlt) (by omega) (by omega)
  have hnodup : (Fields.keys (collectProperties base (2 * base.definitions.size + 2)
      (declared target) [])).Nodup := nodup_collectProperties List.nodup_nil
  rw [properties, properties, hsteps, collectProperties, hinstantiation]
  dsimp only
  generalize collectProperties base (2 * base.definitions.size + 2) (declared target) [] = inner
    at hnodup
  have hmerge : inner.foldl (fun known entry => Fields.put known entry.1
      (seenThrough base instantiation (declared target) (instantiation.bindings base) entry.2)) [] =
      Fields.mapValues (seenThrough base instantiation (declared target)
        (instantiation.bindings base)) inner := by
    rw [← Fields.keys_mapValues] at hnodup
    rw [← List.nil_append (Fields.mapValues _ inner), ← Fields.merge_of_nodup hnodup,
      Fields.merge, Fields.mapValues, List.foldl_map]
  rw [hmerge, Fields.mapValues, List.map_map, List.map_map]
  rfl

/-- The symbols of a generic definition are settled, but for those of its own properties. -/
theorem settledOrOwn_of_mem_properties (hbase : base.Linked) (hscoped : base.WellScoped)
    {handle : Handle} {symbol : Symbol} (h : symbol ∈ (declared handle).properties base) :
    SettledOrOwn base handle symbol := by
  obtain ⟨entry, hentry, rfl⟩ := List.mem_map.mp h
  exact settledOrOwn_collectProperties hbase hscoped (List.forall_mem_nil _) entry hentry

/-- A symbol is that of a property with this name. -/
def Symbol.isNamed (name : String) : Symbol → Bool
  | .type _ => false
  | .property _ other _ => other == name

theorem isNamed_seenThrough (name : String) (instantiation target : Term) (pairs : Bindings)
    (symbol : Symbol) :
    (seenThrough base instantiation target pairs symbol).isNamed name = symbol.isNamed name := by
  cases symbol with
  | type ty => rfl
  | property owner other through => cases through <;> rfl

/-- The type of a property, by its name. -/
def memberNamed (base : Graph) (ty : Term) (name : String) : Option Term :=
  ((ty.properties base).find? (Symbol.isNamed name)).map (typeOfSymbol base)

/-- The member of an instantiation and that of the generic definition, with the arguments put in,
have the same unfolding. -/
theorem memberNamed_rel (hbase : base.Linked) (hscoped : base.WellScoped)
    (hinstantiation : instantiation.definition base = .reference (declared target) arguments)
    (hdecl : base.definitions[target]? = some (.object decl)) (name : String) :
    Option.Rel (fun viewed substituted =>
        ∃ tree, UnfoldsTo base viewed tree ∧ UnfoldsTo base substituted tree)
      (memberNamed base instantiation name)
      ((memberNamed base (declared target) name).map
        (substitute base (instantiation.bindings base))) := by
  have hnamed : Symbol.isNamed name ∘ seenThrough base instantiation (declared target)
      (instantiation.bindings base) = Symbol.isNamed name :=
    funext (isNamed_seenThrough name instantiation (declared target) _)
  rw [memberNamed, memberNamed, properties_of_instantiation hbase hinstantiation hdecl,
    List.find?_map, hnamed]
  cases hfind : ((declared target).properties base).find? (Symbol.isNamed name) with
  | none => exact .none
  | some symbol =>
    refine .some (exists_unfoldsTo_seenThrough hinstantiation hdecl hbase hscoped ?_)
    refine (settledOrOwn_of_mem_properties hbase hscoped (List.mem_of_find?_eq_some hfind)).imp_right
      ?_
    rintro ⟨_, name, -, heq⟩
    exact ⟨name, heq⟩

end Term

/-! ## Members on a graph -/

/-- A symbol is that of a property with this name. -/
def Symbol.isNamed (name : String) : Symbol → Bool
  | .type _ => false
  | .property _ other _ => other == name

/-- The type of a property, by its name. -/
def memberNamed (ty : Handle) (name : String) : Query (Option Handle) := do
  match (← properties ty).find? (Symbol.isNamed name) with
  | none => return none
  | some symbol => return some (← typeOfSymbol symbol).1

/-- The type of a property of a generic definition, with the arguments of an instantiation. -/
def memberSubstituted (instantiation target : Handle) (name : String) :
    Query (Option Handle) := do
  match ← memberNamed target name with
  | none => return none
  | some member => return some (← substitute (← bindings instantiation) member)

theorem find?_rel {α β : Type} {related : α → β → Prop} {p : α → Bool} {q : β → Bool}
    {items : List α} {others : List β} (h : List.Forall₂ related items others)
    (hsame : ∀ {item other}, related item other → p item = q other) :
    Option.Rel related (items.find? p) (others.find? q) := by
  induction h with
  | nil => exact .none
  | @cons item other _ _ hhead _ ih =>
    rw [List.find?_cons, List.find?_cons, hsame hhead]
    cases q other with
    | true => exact .some hhead
    | false => exact ih

theorem SymbolDenotes.isNamed_eq {symbol : Symbol} {symbol' : Term.Symbol}
    (h : SymbolDenotes base graph symbol symbol') (name : String) :
    symbol.isNamed name = symbol'.isNamed name := by
  cases h <;> rfl

theorem memberNamed_gives (hbase : base.Linked) (hgrown : Grown base graph) {ty : Handle}
    {term : Term} (hterm : Denotes base graph ty term) (name : String) :
    Gives base graph (memberNamed ty name) fun last answer =>
      Option.Rel (Denotes base last) answer (Term.memberNamed base term name) := by
  refine (properties_gives hbase hgrown hterm).bind fun graph₁ symbols hgrown₁ _ hsymbols => ?_
  have hfind := find?_rel hsymbols fun h => SymbolDenotes.isNamed_eq h name
  rw [Term.memberNamed]
  generalize symbols.find? _ = symbol, (term.properties base).find? _ = symbol' at hfind
  cases hfind with
  | none => exact .pure hgrown₁ .none
  | some hsymbol =>
    refine (typeOfSymbol_gives hbase hgrown₁ hsymbol).bind fun graph₂ answer hgrown₂ _ h => ?_
    exact .pure hgrown₂ (.some h)

theorem memberSubstituted_gives (hbase : base.Linked) (hgrown : Grown base graph)
    {instantiation target : Handle} {term target' : Term}
    (hterm : Denotes base graph instantiation term) (htarget : Denotes base graph target target')
    (name : String) :
    Gives base graph (memberSubstituted instantiation target name) fun last answer =>
      Option.Rel (Denotes base last) answer
        ((Term.memberNamed base target' name).map (Term.substitute base (term.bindings base))) := by
  refine (memberNamed_gives hbase hgrown htarget name).bind
    fun graph₁ member hgrown₁ hlater₁ hmember => ?_
  generalize Term.memberNamed base target' name = member' at hmember
  cases hmember with
  | none => exact .pure hgrown₁ .none
  | some hmember =>
    obtain ⟨pairs, hreads, hpairs⟩ := bindings_reads hbase hgrown₁ (hterm.later hlater₁)
    refine Gives.of_reads hreads ((substitute_gives hbase hgrown₁ hpairs hmember).bind
      fun graph₂ answer hgrown₂ _ h => ?_)
    exact .pure hgrown₂ (.some h)

/-- In a well-scoped document, a member that is looked at through an instantiation has the
unfolding that putting the arguments into the member of the generic definition gives.  Both are
there or both are not, in every reachable graph, whatever is asked in between. -/
theorem sameUnfolding_of_instantiation {document : Document} {fresh : Graph}
    (haccepted : ofDocument document = .ok fresh) (hscoped : fresh.WellScoped)
    (hreachable : Reachable fresh graph) {instantiation target : Handle}
    {arguments : List Handle}
    (hinstantiation : graph.definitions[instantiation]? = some (.reference target arguments))
    (name : String) :
    ∃ viewed graph₁, memberNamed instantiation name graph = .ok (viewed, graph₁) ∧
      ∀ graph₂, Reachable graph₁ graph₂ → ∃ substituted last,
        memberSubstituted instantiation target name graph₂ = .ok (substituted, last) ∧
          Option.Rel last.SameUnfolding viewed substituted := by
  have hbase := linked_of_ofDocument haccepted
  have hgrown := hreachable.grown hbase
  obtain ⟨term, terms, hterm, hdefinition⟩ :=
    hgrown.exists_denotes_of_reference hbase hinstantiation
  have hknown : Term.Known fresh term := ⟨graph, instantiation, hgrown, hterm⟩
  obtain ⟨decl, hdecl⟩ := hknown.target_object hbase hdefinition
  obtain ⟨viewed, graph₁, hviewed, hgrown₁, hlater₁, hdenotes⟩ :=
    memberNamed_gives hbase hgrown hterm name
  refine ⟨viewed, graph₁, hviewed, fun graph₂ hreachable₂ => ?_⟩
  obtain ⟨hgrown₂, hlater₂⟩ := hreachable₂.later hbase hgrown₁
  have htarget := hgrown₂.denotes_declared (Array.getElem?_eq_some_iff.mp hdecl).1
  obtain ⟨substituted, last, hsubstituted, hgrown₃, hlater₃, hdenotes'⟩ :=
    memberSubstituted_gives hbase hgrown₂ (hterm.later (hlater₁.trans hlater₂)) htarget name
  refine ⟨substituted, last, hsubstituted, ?_⟩
  have hrel := Term.memberNamed_rel hbase hscoped hdefinition hdecl name
  generalize Term.memberNamed fresh term name = viewed' at hdenotes hrel
  generalize (Term.memberNamed fresh (.declared target) name).map _ = substituted'
    at hdenotes' hrel
  cases hrel with
  | none =>
    cases hdenotes
    cases hdenotes'
    exact .none
  | some hrel =>
    cases hdenotes with | some hdenotes
    cases hdenotes' with | some hdenotes'
    obtain ⟨tree, htree, htree'⟩ := hrel
    exact .some (hgrown₃.sameUnfolding hbase (hdenotes.later (hlater₂.trans hlater₃)) hdenotes'
      htree htree')

/-- Generic definitions that inherit from each other under one parameter. -/
def grid : Document where
  types := [
    ("T", .opaqueType none),
    ("Cell", .object {
      symbol := some "Cell"
      interface := true
      bases := []
      parameters := ["T"]
      properties := [("content", "T")]
      members := [] }),
    ("Cell<T>", .reference "Cell" ["T"]),
    ("Row", .object {
      symbol := some "Row"
      interface := true
      bases := ["Cell<T>"]
      parameters := ["T"]
      properties := []
      members := [] }),
    ("Row<Cell<T>>", .reference "Row" ["Cell<T>"]),
    ("Grid", .object {
      symbol := some "Grid"
      interface := true
      bases := ["Row<Cell<T>>"]
      parameters := ["T"]
      properties := []
      members := [] }),
    ("string", .intrinsic .string),
    ("Grid<string>", .reference "Grid" ["string"])]

/-- The graph of `grid`. -/
def gridGraph : Graph where
  ids := ["T", "Cell", "Cell<T>", "Row", "Row<Cell<T>>", "Grid", "string", "Grid<string>"]
  definitions := #[
    .opaqueType none,
    .object {
      symbol := some "Cell"
      interface := true
      bases := []
      parameters := [0]
      properties := [("content", 0)]
      members := [] },
    .reference 1 [0],
    .object {
      symbol := some "Row"
      interface := true
      bases := [2]
      parameters := [0]
      properties := []
      members := [] },
    .reference 3 [2],
    .object {
      symbol := some "Grid"
      interface := true
      bases := [4]
      parameters := [0]
      properties := []
      members := [] },
    .intrinsic .string,
    .reference 5 [6]]
  instances := [((1, [0]), 2), ((3, [2]), 4), ((5, [6]), 7)]
  unknown := none

theorem parameters_gridGraph {handle : Handle} {decl : ObjectDecl Handle}
    (h : gridGraph.definitions[handle]? = some (.object decl)) :
    decl.parameters = [0] ∧ ∀ parent ∈ decl.bases, parent = 2 ∨ parent = 4 := by
  have hlt : handle < 8 := (Array.getElem?_eq_some_iff.mp h).1
  interval_cases handle <;> cases h <;> decide

theorem arguments_gridGraph {handle target : Handle} {arguments : List Handle}
    (h : gridGraph.definitions[handle]? = some (.reference target arguments)) :
    arguments.length = 1 ∧ ∀ argument ∈ arguments, argument < handle := by
  have hlt : handle < 8 := (Array.getElem?_eq_some_iff.mp h).1
  interval_cases handle <;> cases h <;> decide

theorem wellScoped_gridGraph : gridGraph.WellScoped := by
  have hbelow : ∀ {instantiation argument},
      Relation.TransGen gridGraph.HasArgument instantiation argument →
      argument < instantiation := by
    intro instantiation argument h
    induction h with
    | single hstep =>
      obtain ⟨_, _, hdefinition, hmem⟩ := hstep
      exact (arguments_gridGraph hdefinition).2 _ hmem
    | tail _ hstep ih =>
      obtain ⟨_, _, hdefinition, hmem⟩ := hstep
      exact ((arguments_gridGraph hdefinition).2 _ hmem).trans ih
  refine ⟨?_, ?_, ?_, fun handle h => lt_irrefl handle (hbelow h), ?_, ?_⟩
  · intro handle decl hdecl parameter hparameter
    rw [(parameters_gridGraph hdecl).1, List.mem_singleton] at hparameter
    exact hparameter ▸ ⟨none, rfl⟩
  · intro handle decl hdecl
    rw [(parameters_gridGraph hdecl).1]
    exact List.nodup_singleton 0
  · intro handle target arguments decl hdefinition hdecl
    rw [(arguments_gridGraph hdefinition).1, (parameters_gridGraph hdecl).1]
    rfl
  · rintro handle decl hdecl mention - parameter - ⟨place, other, hother, hparameter⟩
    rw [(parameters_gridGraph hother).1] at hparameter
    rwa [(parameters_gridGraph hdecl).1]
  · intro handle decl hdecl parent hparent general hgeneral
    rcases (parameters_gridGraph hdecl).2 parent hparent with rfl | rfl <;> cases hgeneral

/-- The member that `Grid<string>` inherits through two instantiations is a `Cell<string>`, as is
that of `Grid` with `string` for its parameter. -/
theorem sameUnfolding_of_instantiation_grid :
    ofDocument grid = .ok gridGraph ∧ gridGraph.WellScoped ∧
      gridGraph.definitions[7]? = some (.reference 5 [6]) ∧
      ∃ viewed graph₁, memberNamed 7 "content" gridGraph = .ok (viewed, graph₁) ∧
        ∀ graph₂, Reachable graph₁ graph₂ → ∃ substituted last,
          memberSubstituted 7 5 "content" graph₂ = .ok (substituted, last) ∧
            Option.Rel last.SameUnfolding viewed substituted := by
  have haccepted : ofDocument grid = .ok gridGraph := rfl
  have hinstantiation : gridGraph.definitions[7]? = some (.reference 5 [6]) := rfl
  exact ⟨haccepted, wellScoped_gridGraph, hinstantiation,
    sameUnfolding_of_instantiation haccepted wellScoped_gridGraph .start hinstantiation "content"⟩

end GraphSchema.Graph
