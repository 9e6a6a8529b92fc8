import Mathlib
import GraphSchema.Proofs.Graph.Declarations
import GraphSchema.Proofs.Graph.Substituting

/-!
# Unfoldings

Two handles may describe one type: a document can declare an instantiation twice, and arguments
may be taken from either declaration.  What they have in common is the `Unfolding`, the tree of
targets and arguments down to the types that are no instantiations.  A type has at most one
(`Unfolds.unique`), and it has one where no instantiation under it contains itself through its
arguments (`AcyclicBelow.exists_unfoldsTo`).  A handle and the term that it stands for have
unfoldings of the same shape (`Grown.exists_term_unfoldsTo`, `Grown.exists_unfoldsTo`).

Substitution looks different from here.  On a graph it keeps what does not change, looks up what
is there and stops at what it has met on its way down; on unfoldings it replaces leaves, all at
once.  `Term.unfoldsTo_substitute` says that these are the same.
-/

namespace GraphSchema

/-! ## Lists item by item -/

/-- Items that each have another make a list that has one. -/
theorem exists_forall₂ {α β : Type} {related : α → β → Prop} {items : List α}
    (h : ∀ item ∈ items, ∃ other, related item other) :
    ∃ others, List.Forall₂ related items others := by
  induction items with
  | nil => exact ⟨[], .nil⟩
  | cons item rest ih =>
    obtain ⟨⟨other, hother⟩, hrest⟩ := List.forall_mem_cons.mp h
    obtain ⟨others, hothers⟩ := ih hrest
    exact ⟨other :: others, .cons hother hothers⟩

theorem forall₂_and_mem {α β : Type} {related : α → β → Prop} {items : List α} {others : List β}
    (h : List.Forall₂ related items others) :
    List.Forall₂ (fun item other => other ∈ others ∧ related item other) items others := by
  have hflip : List.Forall₂ (fun other item => other ∈ others ∧ related item other) others items :=
    (List.forall₂_and_left _ _).mpr ⟨fun _ hmem => hmem, h.flip⟩
  exact hflip.flip

theorem forall₂_trans {α β γ : Type} {first : α → β → Prop} {second : β → γ → Prop}
    {both : α → γ → Prop} {items : List α} {others : List β} {lasts : List γ}
    (h : List.Forall₂ first items others) (hlasts : List.Forall₂ second others lasts)
    (hboth : ∀ {item other last}, first item other → second other last → both item last) :
    List.Forall₂ both items lasts := by
  induction h generalizing lasts with
  | nil =>
    cases hlasts
    exact .nil
  | cons hhead _ ih =>
    cases hlasts with | cons hhead' hrest'
    exact .cons (hboth hhead hhead') (ih hrest')

/-- Lists that agree with one list agree with each other, where their items are determined. -/
theorem eq_of_forall₂_of_mem {α β : Type} {related : α → β → Prop} {items : List α}
    {others others' : List β} (h : List.Forall₂ related items others)
    (h' : List.Forall₂ related items others')
    (hunique : ∀ other ∈ others, ∀ item other', related item other → related item other' →
      other = other') : others = others' := by
  induction h generalizing others' with
  | nil =>
    cases h'
    rfl
  | cons hhead _ ih =>
    cases h' with | cons hhead' hrest'
    obtain ⟨hfirst, hothers⟩ := List.forall_mem_cons.mp hunique
    rw [hfirst _ _ hhead hhead', ih hrest' hothers]

/-- Lists whose items have one in between have a list in between. -/
theorem exists_forall₂_between {α β γ : Type} {first : α → β → Prop} {second : β → γ → Prop}
    {items : List α} {lasts : List γ}
    (h : List.Forall₂ (fun item last => ∃ other, first item other ∧ second other last) items
      lasts) : ∃ others, List.Forall₂ first items others ∧ List.Forall₂ second others lasts := by
  induction h with
  | nil => exact ⟨[], .nil, .nil⟩
  | cons hhead _ ih =>
    obtain ⟨other, hfirst, hsecond⟩ := hhead
    obtain ⟨others, hfirsts, hseconds⟩ := ih
    exact ⟨other :: others, .cons hfirst hfirsts, .cons hsecond hseconds⟩

/-! ## Trees -/

/-- What a type unfolds to: an instantiation to its target over what its arguments unfold to, and
any other type to itself. -/
inductive Unfolding (ι : Type) where
  | leaf (type : ι)
  | node (target : ι) (arguments : List (Unfolding ι))

namespace Unfolding

variable {ι : Type} {σ τ : ι → Option (Unfolding ι)} {tree : Unfolding ι}

/-- Induction over an unfolding, with a hypothesis for every argument. -/
@[elab_as_elim, induction_eliminator]
theorem recursion {motive : Unfolding ι → Prop} (leaf : ∀ type, motive (.leaf type))
    (node : ∀ target arguments, (∀ argument ∈ arguments, motive argument) →
      motive (.node target arguments)) : ∀ tree, motive tree
  | .leaf type => leaf type
  | .node target arguments => node target arguments fun argument _ =>
    recursion leaf node argument

/-- Replace leaves by unfoldings, all at once. -/
def substitute (σ : ι → Option (Unfolding ι)) : Unfolding ι → Unfolding ι
  | .leaf type => (σ type).getD (.leaf type)
  | .node target arguments => .node target (arguments.map (substitute σ))

/-- A type is among the leaves of an unfolding. -/
inductive HasLeaf (type : ι) : Unfolding ι → Prop where
  | leaf : HasLeaf type (.leaf type)
  | node {target : ι} {arguments : List (Unfolding ι)} {argument : Unfolding ι}
      (hmem : argument ∈ arguments) (h : HasLeaf type argument) :
      HasLeaf type (.node target arguments)

/-- An unfolding without leaves that are replaced stays as it is. -/
theorem substitute_eq_self (h : ∀ type, tree.HasLeaf type → σ type = none) :
    tree.substitute σ = tree := by
  induction tree with
  | leaf type => rw [substitute, h type .leaf, Option.getD_none]
  | node target arguments ih =>
    rw [substitute]
    congr 1
    rw [List.map_congr_left fun argument hmem =>
      ih argument hmem fun type hleaf => h type (.node hmem hleaf), List.map_id']

/-- Two substitutions are one, which replaces leaves by what the second makes of the first. -/
theorem substitute_substitute (h : ∀ type, tree.HasLeaf type → σ type = none → τ type = none) :
    (tree.substitute σ).substitute τ = tree.substitute fun type => (σ type).map (substitute τ) := by
  induction tree with
  | leaf type =>
    rw [substitute, substitute]
    cases hreplaced : σ type with
    | none => rw [Option.getD_none, substitute, h type .leaf hreplaced]; rfl
    | some replaced => rfl
  | node target arguments ih =>
    rw [substitute, substitute, substitute, List.map_map]
    congr 1
    exact List.map_congr_left fun argument hmem => ih argument hmem fun type hleaf =>
      h type (.node hmem hleaf)

/-! ### Agreement -/

/-- The types of one unfolding stand for those of another, which has the same shape. -/
inductive Agrees {κ : Type} (related : ι → κ → Prop) : Unfolding ι → Unfolding κ → Prop where
  | leaf {type : ι} {other : κ} (h : related type other) :
      Agrees related (.leaf type) (.leaf other)
  | node {target : ι} {other : κ} {arguments : List (Unfolding ι)} {others : List (Unfolding κ)}
      (htarget : related target other)
      (harguments : List.Forall₂ (Agrees related) arguments others) :
      Agrees related (.node target arguments) (.node other others)

section Agreement

variable {κ : Type} {related S : ι → κ → Prop} {other : Unfolding κ}

theorem Agrees.imp (h : tree.Agrees related other)
    (himp : ∀ {type other}, related type other → S type other) : tree.Agrees S other := by
  induction tree generalizing other with
  | leaf type =>
    cases h with | leaf h
    exact .leaf (himp h)
  | node target arguments ih =>
    cases h with | node htarget harguments
    refine .node (himp htarget) ?_
    exact ((List.forall₂_and_left _ _).mpr ⟨ih, harguments⟩).imp fun _ _ h => h.1 h.2

/-- Substitutions that agree make agreeing unfoldings. -/
theorem Agrees.substitute {σ' : κ → Option (Unfolding κ)} (h : tree.Agrees related other)
    (hσ : ∀ {type other}, related type other →
      Option.Rel (Agrees related) (σ type) (σ' other)) :
    (tree.substitute σ).Agrees related (other.substitute σ') := by
  induction tree generalizing other with
  | leaf type =>
    cases h with | @leaf _ other h
    rw [Unfolding.substitute, Unfolding.substitute]
    have hreplaced := hσ h
    generalize σ type = replaced, σ' other = replaced' at hreplaced
    cases hreplaced with
    | none => exact .leaf h
    | some hreplaced => exact hreplaced
  | node target arguments ih =>
    cases h with | node htarget harguments
    rw [Unfolding.substitute, Unfolding.substitute]
    refine .node htarget ?_
    rw [List.forall₂_map_left_iff, List.forall₂_map_right_iff]
    exact ((List.forall₂_and_left _ _).mpr ⟨ih, harguments⟩).imp fun _ _ h => h.1 h.2

/-- Where a type stands for at most one other, an unfolding agrees with at most one. -/
theorem Agrees.left_unique {tree' : Unfolding ι} (h : tree.Agrees related other)
    (h' : tree'.Agrees related other)
    (hunique : ∀ {type type' other}, related type other → related type' other → type = type') :
    tree = tree' := by
  induction tree generalizing other tree' with
  | leaf type =>
    cases h with | leaf h
    cases h' with | leaf h'
    rw [hunique h h']
  | node target arguments ih =>
    cases h with | node htarget harguments
    cases h' with | node htarget' harguments'
    rw [hunique htarget htarget', eq_of_forall₂_of_mem harguments.flip harguments'.flip
      fun argument hmem _ _ h h' => ih argument hmem h h']

end Agreement

end Unfolding

/-- A type unfolds to a tree, where types have the definitions that are looked up for them. -/
inductive Unfolds {ι : Type} (look : ι → Option (Definition ι)) : ι → Unfolding ι → Prop where
  | leaf {type : ι} {definition : Definition ι} (h : look type = some definition)
      (hleaf : ∀ target arguments, definition ≠ .reference target arguments) :
      Unfolds look type (.leaf type)
  | node {type target : ι} {arguments : List ι} {trees : List (Unfolding ι)}
      (h : look type = some (.reference target arguments))
      (harguments : List.Forall₂ (Unfolds look) arguments trees) :
      Unfolds look type (.node target trees)

/-- A type unfolds to one tree at most. -/
theorem Unfolds.unique {ι : Type} {look : ι → Option (Definition ι)} {type : ι}
    {tree other : Unfolding ι} (h : Unfolds look type tree) (hother : Unfolds look type other) :
    tree = other := by
  induction tree generalizing type other with
  | leaf _ =>
    cases h with | leaf h hleaf
    cases hother with
    | leaf => rfl
    | node h' => exact absurd (Option.some.inj (h.symm.trans h')) (hleaf _ _)
  | node target trees ih =>
    cases h with | node h harguments
    cases hother with
    | leaf h' hleaf => exact absurd (Option.some.inj (h'.symm.trans h)) (hleaf _ _)
    | node h' hothers =>
      cases h.symm.trans h'
      rw [eq_of_forall₂_of_mem harguments hothers fun tree hmem _ _ => ih tree hmem]

theorem Definition.Agrees.exists_reference {ι κ : Type} {related : ι → κ → Prop}
    {definition : Definition ι} {target' : κ} {others : List κ}
    (h : definition.Agrees related (.reference target' others)) :
    ∃ target arguments, definition = .reference target arguments ∧ related target target' ∧
      List.Forall₂ related arguments others := by
  cases h with
  | reference htarget harguments => exact ⟨_, _, rfl, htarget, harguments⟩

namespace Graph

variable {base graph : Graph}

/-! ## Unfoldings of handles -/

/-- An instantiation has a type among its arguments. -/
def HasArgument (graph : Graph) (instantiation argument : Handle) : Prop :=
  ∃ target arguments, graph.definitions[instantiation]? = some (.reference target arguments) ∧
    argument ∈ arguments

/-- No reference under a type reaches itself through arguments. -/
def AcyclicBelow (graph : Graph) (ty : Handle) : Prop :=
  ∀ place, Relation.ReflTransGen graph.HasArgument ty place →
    ¬ Relation.TransGen graph.HasArgument place place

/-- A handle unfolds to a tree. -/
abbrev UnfoldsTo (graph : Graph) : Handle → Unfolding Handle → Prop :=
  Unfolds fun handle => graph.definitions[handle]?

/-- Two handles have the same unfolding. -/
def SameUnfolding (graph : Graph) (first second : Handle) : Prop :=
  ∃ tree, graph.UnfoldsTo first tree ∧ graph.UnfoldsTo second tree

/-- The unfolding of an argument comes before that of the instantiation. -/
theorem AcyclicBelow.wellFounded {ty : Handle} (h : graph.AcyclicBelow ty) :
    WellFounded fun argument instantiation : Fin graph.definitions.size =>
      Relation.ReflTransGen graph.HasArgument ty instantiation ∧
        Relation.TransGen graph.HasArgument instantiation argument :=
  have : IsTrans (Fin graph.definitions.size) fun argument instantiation =>
      Relation.ReflTransGen graph.HasArgument ty instantiation ∧
        Relation.TransGen graph.HasArgument instantiation argument :=
    ⟨fun _ _ _ h h' => ⟨h'.1, h'.2.trans h.2⟩⟩
  have : Std.Irrefl fun argument instantiation : Fin graph.definitions.size =>
      Relation.ReflTransGen graph.HasArgument ty instantiation ∧
        Relation.TransGen graph.HasArgument instantiation argument :=
    ⟨fun place hplace => h place hplace.1 hplace.2⟩
  Finite.wellFounded_of_trans_of_irrefl _

/-- The arguments of an instantiation are there. -/
theorem Grown.lt_of_hasArgument (hbase : base.Linked) (hgrown : Grown base graph)
    {instantiation argument : Handle} (h : graph.HasArgument instantiation argument) :
    argument < graph.definitions.size := by
  obtain ⟨target, arguments, hdefinition, hmem⟩ := h
  obtain ⟨term, hterm⟩ := hgrown.exists_denotes (Array.getElem?_eq_some_iff.mp hdefinition).1
  obtain ⟨found, hfound, hagrees⟩ := hgrown.definition_agrees hbase hterm
  cases hdefinition.symm.trans hfound
  generalize term.definition base = other at hagrees
  cases hagrees with
  | reference _ harguments =>
    obtain ⟨term, -, hargument⟩ := exists_mem_of_forall₂ harguments.flip hmem
    exact hgrown.lt_of_denotes hargument

/-- A type unfolds where no reference under it reaches itself. -/
theorem AcyclicBelow.exists_unfoldsTo (hbase : base.Linked) (hgrown : Grown base graph)
    {ty : Handle} (h : graph.AcyclicBelow ty) (hlt : ty < graph.definitions.size) :
    ∃ tree, graph.UnfoldsTo ty tree := by
  have hbelow : ∀ place : Fin graph.definitions.size,
      Relation.ReflTransGen graph.HasArgument ty place → ∃ tree, graph.UnfoldsTo place tree := by
    intro place
    induction place using h.wellFounded.induction with
    | _ place ih =>
    intro hplace
    have hdefinition := Array.getElem?_eq_getElem place.isLt
    generalize graph.definitions[place] = found at hdefinition
    by_cases hreference : ∃ target arguments, found = .reference target arguments
    · obtain ⟨target, arguments, rfl⟩ := hreference
      obtain ⟨trees, htrees⟩ : ∃ trees, List.Forall₂ graph.UnfoldsTo arguments trees := by
        refine exists_forall₂ fun argument hmem => ?_
        have hargument : graph.HasArgument place argument := ⟨target, arguments, hdefinition, hmem⟩
        exact ih ⟨argument, hgrown.lt_of_hasArgument hbase hargument⟩ ⟨hplace, .single hargument⟩
          (hplace.tail hargument)
      exact ⟨_, .node hdefinition htrees⟩
    · exact ⟨_, .leaf hdefinition fun target arguments heq => hreference ⟨target, arguments, heq⟩⟩
  exact hbelow ⟨ty, hlt⟩ .refl

namespace Term

/-- A term unfolds to a tree. -/
abbrev UnfoldsTo (base : Graph) : Term → Unfolding Term → Prop :=
  Unfolds fun term => some (term.definition base)

theorem unfoldsTo_leaf {term : Term}
    (h : ∀ target arguments, term.definition base ≠ .reference target arguments) :
    UnfoldsTo base term (.leaf term) :=
  .leaf rfl h

theorem unfoldsTo_unknown : UnfoldsTo base unknown (.leaf unknown) := by
  refine unfoldsTo_leaf fun target arguments h => ?_
  cases h

theorem unfoldsTo_node {term target : Term} {arguments : List Term}
    {trees : List (Unfolding Term)} (h : term.definition base = .reference target arguments)
    (harguments : List.Forall₂ (UnfoldsTo base) arguments trees) :
    UnfoldsTo base term (.node target trees) :=
  .node (congrArg some h) harguments

theorem unfoldsTo_declared {handle : Handle}
    (h : ∀ target arguments, base.definitions[handle]? ≠ some (.reference target arguments)) :
    UnfoldsTo base (declared handle) (.leaf (declared handle)) := by
  refine unfoldsTo_leaf fun target arguments hreference => ?_
  obtain ⟨target, others, hdefinition, -⟩ := exists_getElem?_of_reference hreference
  exact h _ _ hdefinition

end Term

/-! ## Handles and terms -/

/-- What a handle unfolds to, the term that it stands for unfolds to as well. -/
theorem Grown.exists_term_unfoldsTo (hbase : base.Linked) (hgrown : Grown base graph)
    {handle : Handle} {term : Term} {tree : Unfolding Handle}
    (hdenotes : Denotes base graph handle term) (htree : graph.UnfoldsTo handle tree) :
    ∃ tree', Term.UnfoldsTo base term tree' ∧ tree.Agrees (Denotes base graph) tree' := by
  induction tree generalizing handle term with
  | leaf type =>
    cases htree with | leaf h hleaf
    obtain ⟨found, hfound, hagrees⟩ := hgrown.definition_agrees hbase hdenotes
    cases h.symm.trans hfound
    refine ⟨.leaf term, Term.unfoldsTo_leaf fun target arguments heq => ?_, .leaf hdenotes⟩
    rw [heq] at hagrees
    obtain ⟨target, arguments, rfl, -, -⟩ := hagrees.exists_reference
    exact hleaf _ _ rfl
  | node target trees ih =>
    cases htree with | @node _ _ arguments _ h harguments
    obtain ⟨found, hfound, hagrees⟩ := hgrown.definition_agrees hbase hdenotes
    cases h.symm.trans hfound
    cases hterm : term.definition base with
    | reference target' terms =>
      rw [hterm] at hagrees
      cases hagrees with | reference htarget hterms
      have hbetween : List.Forall₂ (fun term tree => ∃ tree', Term.UnfoldsTo base term tree' ∧
          tree.Agrees (Denotes base graph) tree') terms trees :=
        forall₂_trans hterms.flip (forall₂_and_mem harguments) fun hargument htree =>
          ih _ htree.1 hargument htree.2
      obtain ⟨trees', htrees', hagrees'⟩ := exists_forall₂_between hbetween
      exact ⟨_, Term.unfoldsTo_node hterm htrees', .node htarget hagrees'.flip⟩
    | _ =>
      rw [hterm] at hagrees
      cases hagrees

/-- What a term unfolds to, the handle that stands for it unfolds to as well. -/
theorem Grown.exists_unfoldsTo (hbase : base.Linked) (hgrown : Grown base graph)
    {handle : Handle} {term : Term} {tree' : Unfolding Term}
    (hdenotes : Denotes base graph handle term) (htree : Term.UnfoldsTo base term tree') :
    ∃ tree, graph.UnfoldsTo handle tree ∧ tree.Agrees (Denotes base graph) tree' := by
  induction tree' generalizing handle term with
  | leaf type =>
    cases htree with | leaf h hleaf
    cases h
    obtain ⟨found, hfound, hagrees⟩ := hgrown.definition_agrees hbase hdenotes
    refine ⟨.leaf handle, .leaf hfound fun target arguments heq => ?_, .leaf hdenotes⟩
    subst heq
    generalize type.definition base = definition at hagrees hleaf
    cases hagrees with
    | reference => exact hleaf _ _ rfl
  | node target trees' ih =>
    cases htree with | @node _ _ terms _ h hterms
    obtain ⟨found, hfound, hagrees⟩ := hgrown.definition_agrees hbase hdenotes
    rw [Option.some.inj h] at hagrees
    obtain ⟨target', arguments, rfl, htarget, harguments⟩ := hagrees.exists_reference
    have hbetween : List.Forall₂ (fun argument tree' => ∃ tree, graph.UnfoldsTo argument tree ∧
        tree.Agrees (Denotes base graph) tree') arguments trees' :=
      forall₂_trans harguments (forall₂_and_mem hterms) fun hargument htree =>
        ih _ htree.1 hargument htree.2
    obtain ⟨trees, htrees, hagrees'⟩ := exists_forall₂_between hbetween
    exact ⟨_, .node hfound htrees, .node htarget hagrees'⟩

/-- Handles of terms that unfold to one tree have the same unfolding. -/
theorem Grown.sameUnfolding (hbase : base.Linked) (hgrown : Grown base graph)
    {first second : Handle} {term other : Term} {tree : Unfolding Term}
    (hfirst : Denotes base graph first term) (hsecond : Denotes base graph second other)
    (hterm : Term.UnfoldsTo base term tree) (hother : Term.UnfoldsTo base other tree) :
    graph.SameUnfolding first second := by
  obtain ⟨tree₁, htree₁, hagrees₁⟩ := hgrown.exists_unfoldsTo hbase hfirst hterm
  obtain ⟨tree₂, htree₂, hagrees₂⟩ := hgrown.exists_unfoldsTo hbase hsecond hother
  obtain rfl := hagrees₁.left_unique hagrees₂ (hgrown.interned hbase).denotes_inj
  exact ⟨tree₁, htree₁, htree₂⟩

namespace Term

/-- Every declared type unfolds where no instantiation contains itself. -/
theorem exists_unfoldsTo_declared (hbase : base.Linked)
    (hacyclic : ∀ handle, ¬ Relation.TransGen base.HasArgument handle handle) (handle : Handle) :
    ∃ tree, UnfoldsTo base (declared handle) tree := by
  have hstart : Grown base base := .start
  rcases Nat.lt_or_ge handle base.definitions.size with hlt | hle
  · have hbelow : base.AcyclicBelow handle := fun place _ => hacyclic place
    obtain ⟨tree, htree⟩ := hbelow.exists_unfoldsTo hbase hstart hlt
    obtain ⟨tree', htree', -⟩ :=
      hstart.exists_term_unfoldsTo hbase (hstart.denotes_declared hlt) htree
    exact ⟨tree', htree'⟩
  · refine ⟨_, unfoldsTo_declared ?_⟩
    rw [Array.getElem?_eq_none hle]
    simp

/-- Every term unfolds where no declared instantiation contains itself. -/
theorem exists_unfoldsTo (hbase : base.Linked)
    (hacyclic : ∀ handle, ¬ Relation.TransGen base.HasArgument handle handle) :
    ∀ term, ∃ tree, UnfoldsTo base term tree
  | declared handle => exists_unfoldsTo_declared hbase hacyclic handle
  | applied _ _ =>
    have ⟨_, htrees⟩ := exists_forall₂ fun argument _ =>
      exists_unfoldsTo hbase hacyclic argument
    ⟨_, unfoldsTo_node rfl htrees⟩
  | unknown => ⟨_, unfoldsTo_unknown⟩

theorem exists_forall₂_unfoldsTo (hbase : base.Linked)
    (hacyclic : ∀ handle, ¬ Relation.TransGen base.HasArgument handle handle)
    (arguments : List Term) : ∃ trees, List.Forall₂ (UnfoldsTo base) arguments trees :=
  exists_forall₂ fun argument _ => exists_unfoldsTo hbase hacyclic argument

/-! ## Substitution -/

theorem unfoldsTo_instantiate (hbase : base.Linked) {target : Handle} {arguments : List Term}
    {trees : List (Unfolding Term)} (h : List.Forall₂ (UnfoldsTo base) arguments trees) :
    UnfoldsTo base (instantiate base target arguments) (.node (declared target) trees) := by
  rw [instantiate]
  cases hdeclared : declaredInstance? base target arguments with
  | none => exact unfoldsTo_node rfl h
  | some handle =>
    obtain ⟨handles, rfl, hlookup⟩ := declaredInstance?_eq_some_iff.mp hdeclared
    exact unfoldsTo_node (definition_declared (hbase.definition_of_lookup hlookup)) h

/-- Arguments that are kept where nothing is replaced in them, and applied where something is. -/
theorem unfoldsTo_replaced (hbase : base.Linked) {term : Term} {target : Handle}
    {arguments replaced : List Term} {trees : List (Unfolding Term)}
    (hterm : term.definition base = .reference (declared target) arguments)
    (hreplaced : List.Forall₂ (UnfoldsTo base) replaced trees) :
    UnfoldsTo base
      (if replaced = arguments then term else instantiate base target replaced)
      (.node (declared target) trees) := by
  split
  · rename_i heq
    exact unfoldsTo_node hterm (heq ▸ hreplaced)
  · exact unfoldsTo_instantiate hbase hreplaced

section Substitution

variable {pairs : Bindings} {σ : Term → Option (Unfolding Term)}

/-- Nothing is bound that is an instantiation itself. -/
def LeavesBound (base : Graph) (pairs : Bindings) : Prop :=
  ∀ pair ∈ pairs, ∀ target arguments, pair.1.definition base ≠ .reference target arguments

theorem LeavesBound.lookup_eq_none (h : LeavesBound base pairs) {term target : Term}
    {arguments : List Term} (hterm : term.definition base = .reference target arguments) :
    pairs.lookup term = none := by
  refine List.lookup_eq_none_iff.mpr fun pair hmem => bne_iff_ne.mpr ?_
  rintro rfl
  exact h pair hmem _ _ hterm

/-- Substitution replaces a leaf by what it is bound to. -/
theorem unfoldsTo_lookup_getD (hpairs : ∀ key, Option.Rel (UnfoldsTo base) (pairs.lookup key)
      (σ key)) {term : Term}
    (hleaf : ∀ target arguments, term.definition base ≠ .reference target arguments) :
    UnfoldsTo base ((pairs.lookup term).getD term) ((Unfolding.leaf term).substitute σ) := by
  rw [Unfolding.substitute]
  have hterm := hpairs term
  generalize pairs.lookup term = argument, σ term = tree at hterm
  cases hterm with
  | none => exact unfoldsTo_leaf hleaf
  | some hargument => exact hargument

/-- Without bindings an unfolding stays as it is. -/
theorem substitute_eq_self_of_isEmpty
    (hpairs : ∀ key, Option.Rel (UnfoldsTo base) (pairs.lookup key) (σ key))
    (hempty : pairs.isEmpty) (tree : Unfolding Term) : tree.substitute σ = tree := by
  refine Unfolding.substitute_eq_self fun type _ => ?_
  have htype := hpairs type
  rw [List.isEmpty_iff.mp hempty, List.lookup_nil] at htype
  generalize σ type = replaced at htype
  cases htype
  rfl

theorem substituteDeclared_of_leaf {steps : Nat} {path : List Handle} {handle : Handle}
    (hleaf : ∀ target arguments, base.definitions[handle]? ≠ some (.reference target arguments)) :
    substituteDeclared base pairs (steps + 1) path handle =
      (pairs.lookup (declared handle)).getD (declared handle) := by
  rw [substituteDeclared]
  cases pairs.lookup (declared handle) with
  | some argument => rfl
  | none =>
    dsimp only
    split
    · rename_i target arguments hdefinition
      exact absurd hdefinition (hleaf target arguments)
    · rfl

/-- Substitution in a declared type replaces leaves of its unfolding.  What is met on the way down
unfolds to larger trees, so no type comes twice. -/
theorem unfoldsTo_substituteDeclared (hbase : base.Linked)
    (hpairs : ∀ key, Option.Rel (UnfoldsTo base) (pairs.lookup key) (σ key))
    (hleaves : LeavesBound base pairs) {tree : Unfolding Term} {steps : Nat} {path : List Handle}
    {handle : Handle} (htree : UnfoldsTo base (declared handle) tree)
    (hpath : ∀ earlier ∈ path, earlier < base.definitions.size ∧
      ∃ larger, UnfoldsTo base (declared earlier) larger ∧ sizeOf tree < sizeOf larger)
    (hnodup : path.Nodup) (hsteps : base.definitions.size + 1 ≤ steps + path.length) :
    UnfoldsTo base (substituteDeclared base pairs steps path handle) (tree.substitute σ) := by
  induction steps generalizing tree path handle with
  | zero =>
    have hlength := length_le_of_nodup hnodup fun earlier hmem => (hpath earlier hmem).1
    omega
  | succ steps ih =>
    by_cases hreference : ∃ target arguments,
        base.definitions[handle]? = some (.reference target arguments)
    · obtain ⟨target, arguments, hdefinition⟩ := hreference
      have hterm := definition_declared hdefinition
      have hnew : handle ∉ path := by
        intro hmem
        obtain ⟨-, larger, hlarger, hsize⟩ := hpath handle hmem
        rw [htree.unique hlarger] at hsize
        exact lt_irrefl _ hsize
      rw [substituteDeclared, hleaves.lookup_eq_none hterm, hdefinition]
      dsimp only
      by_cases hempty : pairs.isEmpty
      · rwa [if_pos (.inl hempty), substitute_eq_self_of_isEmpty hpairs hempty]
      · rw [if_neg (by simp [hempty, hnew])]
        obtain ⟨hlt, -⟩ := Array.getElem?_eq_some_iff.mp hdefinition
        cases htree with
        | leaf h hleaf => exact absurd ((Option.some.inj h).symm.trans hterm) (hleaf _ _)
        | @node _ _ _ trees h harguments =>
          cases h.symm.trans (congrArg some hterm)
          rw [Unfolding.substitute]
          refine unfoldsTo_replaced hbase hterm ?_
          rw [List.forall₂_map_left_iff, List.forall₂_map_right_iff]
          refine (forall₂_and_mem (List.forall₂_map_left_iff.mp harguments)).imp ?_
          rintro argument tree ⟨hmem, hargument⟩
          have hsmaller : sizeOf tree < sizeOf (Unfolding.node (declared target) trees) := by
            have := List.sizeOf_lt_of_mem hmem
            rw [Unfolding.node.sizeOf_spec]
            omega
          refine ih hargument (List.forall_mem_cons.mpr ⟨?_, fun earlier hearlier => ?_⟩)
            (List.nodup_cons.mpr ⟨hnew, hnodup⟩) ?_
          · exact ⟨hlt, _, unfoldsTo_node hterm harguments, hsmaller⟩
          · obtain ⟨hlt', larger, hlarger, hsize⟩ := hpath earlier hearlier
            exact ⟨hlt', larger, hlarger, hsmaller.trans hsize⟩
          · rw [List.length_cons]
            omega
    · have hdefinition : ∀ target arguments,
          base.definitions[handle]? ≠ some (.reference target arguments) :=
        fun target arguments h => hreference ⟨target, arguments, h⟩
      cases htree.unique (unfoldsTo_declared hdefinition)
      cases unfoldsTo_declared hdefinition with | leaf h hleaf
      cases h
      rw [substituteDeclared_of_leaf hdefinition]
      exact unfoldsTo_lookup_getD hpairs hleaf

/-- Substitution replaces the leaves of an unfolding that are bound, all at once. -/
theorem unfoldsTo_substitute (hbase : base.Linked)
    (hpairs : ∀ key, Option.Rel (UnfoldsTo base) (pairs.lookup key) (σ key))
    (hleaves : LeavesBound base pairs) {term : Term} {tree : Unfolding Term}
    (htree : UnfoldsTo base term tree) :
    UnfoldsTo base (term.substitute base pairs) (tree.substitute σ) := by
  induction tree generalizing term with
  | leaf type =>
    cases term with
    | declared handle =>
      exact unfoldsTo_substituteDeclared hbase hpairs hleaves htree nofun List.nodup_nil (by simp)
    | applied target arguments =>
      cases htree with | leaf h hleaf
      cases h
      exact absurd rfl (hleaf _ _)
    | unknown =>
      cases htree
      exact unfoldsTo_lookup_getD hpairs nofun
  | node target trees ih =>
    cases term with
    | declared handle =>
      exact unfoldsTo_substituteDeclared hbase hpairs hleaves htree nofun List.nodup_nil (by simp)
    | applied target arguments =>
      rw [substitute, hleaves.lookup_eq_none rfl]
      dsimp only
      by_cases hempty : pairs.isEmpty
      · rwa [if_pos hempty, substitute_eq_self_of_isEmpty hpairs hempty]
      · rw [if_neg hempty, substituteList_eq]
        cases htree with | node h harguments
        cases h
        rw [Unfolding.substitute]
        refine unfoldsTo_replaced hbase rfl ?_
        rw [List.forall₂_map_left_iff, List.forall₂_map_right_iff]
        refine (forall₂_and_mem harguments).imp ?_
        rintro argument tree ⟨hmem, hargument⟩
        exact ih tree hmem hargument
    | unknown =>
      cases htree with | node h harguments
      cases h

end Substitution

end Term

end Graph

end GraphSchema
