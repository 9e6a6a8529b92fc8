import Mathlib
import GraphSchema.Proofs.Fields
import GraphSchema.Proofs.Graph.Substituting

/-!
# Properties, members and base types on graphs and on terms

The queries here walk along base types or substitute in what they find, and name what the
functions on terms describe.  The bound on a walk along base types is large enough because the
document's base types are acyclic: `BaseWalk.visit` being clear for a number of steps is the
measure that the induction goes by, two calls for each of its steps.
-/

namespace GraphSchema.Graph

variable {base graph graph' : Graph}

/-- Symbols under names stand for symbols under the same names. -/
def FieldsDenote (base graph : Graph) : Fields Symbol → Fields Term.Symbol → Prop :=
  List.Forall₂ fun entry entry' =>
    entry.1 = entry'.1 ∧ SymbolDenotes base graph entry.2 entry'.2

theorem FieldsDenote.later {known : Fields Symbol} {known' : Fields Term.Symbol}
    (h : FieldsDenote base graph known known') (hlater : Later base graph graph') :
    FieldsDenote base graph' known known' :=
  List.Forall₂.imp (fun _ _ h => ⟨h.1, h.2.later hlater⟩) h

theorem FieldsDenote.put {known : Fields Symbol} {known' : Fields Term.Symbol}
    (h : FieldsDenote base graph known known') (name : String) {symbol : Symbol}
    {symbol' : Term.Symbol} (hsymbol : SymbolDenotes base graph symbol symbol') :
    FieldsDenote base graph (Fields.put known name symbol) (Fields.put known' name symbol') :=
  Fields.forall₂_put (fun h => h.1) h ⟨rfl, hsymbol⟩

/-- A fold over queries follows the fold over what they answer. -/
theorem Gives.foldlM {ι κ γ δ : Type} {items : List ι} {others : List κ} {step : γ → ι → Query γ}
    {step' : δ → κ → δ} {R : Graph → γ → δ → Prop} {known : γ} {known' : δ}
    (hgrown : Grown base graph) (hknown : R graph known known')
    (h : List.Forall₂ (fun item other => ∀ graph' known known', Grown base graph' →
      Later base graph graph' → R graph' known known' →
      Gives base graph' (step known item) fun last answer => R last answer (step' known' other))
      items others) :
    Gives base graph (items.foldlM step known) fun last answer =>
      R last answer (others.foldl step' known') := by
  induction items generalizing graph others known known' with
  | nil =>
    cases h
    exact .pure hgrown hknown
  | cons item rest ih =>
    cases h with | cons hhead hrest
    rw [List.foldlM_cons, List.foldl_cons]
    refine (hhead graph known known' hgrown (.refl _ _) hknown).bind
      fun graph₁ answer hgrown₁ hlater₁ hanswer => ?_
    exact ih hgrown₁ hanswer (hrest.imp fun _ _ h graph' known known' hgrown' hlater' =>
      h graph' known known' hgrown' (hlater₁.trans hlater'))

/-! ## Properties -/

/-- A property is seen through an instantiation as its term is seen through the term of it. -/
theorem seenThrough_gives (hbase : base.Linked) (hgrown : Grown base graph)
    {instantiation target : Handle} {instantiation' target' : Term}
    (hinstantiation : Denotes base graph instantiation instantiation')
    (htarget : Denotes base graph target target') {pairs : Bindings} {pairs' : Term.Bindings}
    (hpairs : Binds base graph pairs pairs') {symbol : Symbol} {symbol' : Term.Symbol}
    (hsymbol : SymbolDenotes base graph symbol symbol') :
    Gives base graph (seenThrough instantiation target pairs symbol) fun last answer =>
      SymbolDenotes base last answer
        (Term.seenThrough base instantiation' target' pairs' symbol') := by
  cases hsymbol with
  | type h => exact .pure hgrown (.type h)
  | @property owner owner' _ _ name howner hthrough =>
    cases hthrough with
    | none =>
      refine .pure hgrown (.property name howner ?_)
      have hiff : owner = target ↔ owner' = target' := by
        constructor
        · rintro rfl
          exact howner.unique htarget
        · rintro rfl
          exact (hgrown.interned hbase).denotes_inj howner htarget
      by_cases howns : owner = target
      · rw [if_pos howns, if_pos (hiff.mp howns)]
        exact .some hinstantiation
      · rw [if_neg howns, if_neg fun h => howns (hiff.mpr h)]
        exact .none
    | some hinner =>
      refine (substitute_gives hbase hgrown hpairs hinner).bind
        fun graph₁ answer hgrown₁ hlater₁ hanswer => ?_
      exact .pure hgrown₁ (.property name (howner.later hlater₁) (.some hanswer))

/-- The properties of an object, given those of its base types. -/
theorem collectProperties_gives_object (hgrown : Grown base graph)
    {steps bound : Nat} {ty : Handle} {decl : ObjectDecl Handle} {known : Fields Symbol}
    {known' : Fields Term.Symbol} (hty : base.definitions[ty]? = some (.object decl))
    (hknown : FieldsDenote base graph known known')
    (hbases : ∀ parent ∈ decl.bases, ∀ graph' known known', Grown base graph' →
      FieldsDenote base graph' known known' →
      Gives base graph' (collectProperties steps parent known) fun last answer =>
        FieldsDenote base last answer
          (Term.collectProperties base bound (.declared parent) known')) :
    Gives base graph (collectProperties (steps + 1) ty known) fun last answer =>
      FieldsDenote base last answer
        (Term.collectProperties base (bound + 1) (.declared ty) known') := by
  obtain ⟨hlt, -⟩ := Array.getElem?_eq_some_iff.mp hty
  rw [collectProperties, Term.collectProperties, Term.definition, hty]
  refine Gives.of_reads (definition_reads (hgrown.definition_eq hty)) ?_
  have hfold : Gives base graph
      (decl.bases.foldlM (fun known parent => collectProperties steps parent known) known)
      fun last answer => FieldsDenote base last answer ((decl.bases.map Term.declared).foldl
        (fun known parent => Term.collectProperties base bound parent known) known') := by
    refine Gives.foldlM hgrown hknown (forall₂_map_right fun parent hmem => ?_)
    exact fun graph' known known' hgrown' _ => hbases parent hmem graph' known known' hgrown'
  refine hfold.bind fun graph₁ inherited hgrown₁ hlater₁ hinherited => ?_
  refine .pure hgrown₁ ?_
  show FieldsDenote base graph₁ (decl.properties.foldl _ inherited)
    ((Fields.mapValues Term.declared decl.properties).foldl _ _)
  rw [Fields.mapValues, List.foldl_map]
  generalize (decl.bases.map Term.declared).foldl _ known' = inherited' at hinherited
  induction decl.properties generalizing inherited inherited' with
  | nil => exact hinherited
  | cons property rest ih =>
    exact ih _ _ (hinherited.put property.1
      (.property property.1 (hgrown₁.denotes_declared hlt) .none))

/-- The properties of an instantiation, given those of its target. -/
theorem collectProperties_gives_reference (hbase : base.Linked) (hgrown : Grown base graph)
    {steps bound : Nat} {ty target : Handle} {term target' : Term} {arguments : List Handle}
    {terms : List Term} {known : Fields Symbol} {known' : Fields Term.Symbol}
    (hterm : Denotes base graph ty term)
    (hty : graph.definitions[ty]? = some (.reference target arguments))
    (hterm' : term.definition base = .reference target' terms)
    (htarget : Denotes base graph target target')
    (hknown : FieldsDenote base graph known known')
    (hinner : Gives base graph (collectProperties steps target []) fun last answer =>
      FieldsDenote base last answer (Term.collectProperties base bound target' [])) :
    Gives base graph (collectProperties (steps + 1) ty known) fun last answer =>
      FieldsDenote base last answer
        (Term.collectProperties base (bound + 1) term known') := by
  rw [collectProperties, Term.collectProperties, hterm']
  refine Gives.of_reads (definition_reads hty) ?_
  obtain ⟨pairs, hreads, hpairs⟩ := bindings_reads hbase hgrown hterm
  refine Gives.of_reads hreads (hinner.bind fun graph₁ inner hgrown₁ hlater₁ hinner' => ?_)
  refine Gives.foldlM hgrown₁ (hknown.later hlater₁) (hinner'.imp ?_)
  rintro ⟨name, symbol⟩ ⟨name', symbol'⟩ ⟨rfl, hsymbol⟩ graph₂ known known' hgrown₂ hlater₂ hknown
  have hlater := hlater₁.trans hlater₂
  refine (seenThrough_gives hbase hgrown₂ (hterm.later hlater) (htarget.later hlater)
    (hpairs.later hlater) (hsymbol.later hlater₂)).bind
    fun graph₃ seen hgrown₃ hlater₃ hseen => ?_
  exact .pure hgrown₃ ((hknown.later hlater₃).put name hseen)

/-- The properties of a declared type.  A step of the walk along base types is at most two calls
here, one for an instantiation and one for the object behind it. -/
theorem collectProperties_gives_declared (hbase : base.Linked) {walk steps bound : Nat}
    {path : List Handle} {ty : Handle} {known : Fields Symbol} {known' : Fields Term.Symbol}
    (hgrown : Grown base graph) (hclear : BaseWalk.visit base.definitions walk path ty = .clear)
    (hty : ty < base.definitions.size) (hsteps : 2 * walk ≤ steps) (hbound : 2 * walk ≤ bound)
    (hknown : FieldsDenote base graph known known') :
    Gives base graph (collectProperties steps ty known) fun last answer =>
      FieldsDenote base last answer
        (Term.collectProperties base bound (.declared ty) known') := by
  induction walk generalizing graph steps bound path ty known known' with
  | zero => cases hclear
  | succ walk ih =>
    obtain ⟨steps, rfl⟩ : ∃ rest, steps = rest + 2 := ⟨steps - 2, by omega⟩
    obtain ⟨bound, rfl⟩ : ∃ rest, bound = rest + 2 := ⟨bound - 2, by omega⟩
    -- An object that the walk comes to, at the first or at the second call.
    have hobject : ∀ {declaration : Handle} {decl : ObjectDecl Handle} {more more' : Nat}
        {known : Fields Symbol} {known' : Fields Term.Symbol},
        BaseWalk.declaration? base.definitions ty = some declaration →
        base.definitions[declaration]? = some (.object decl) → steps ≤ more → bound ≤ more' →
        FieldsDenote base graph known known' →
        Gives base graph (collectProperties (more + 1) declaration known) fun last answer =>
          FieldsDenote base last answer
            (Term.collectProperties base (more' + 1) (.declared declaration) known') := by
      intro declaration decl more more' known known' hdeclaration hdecl hmore hmore' hknown
      refine collectProperties_gives_object hgrown hdecl hknown ?_
      intro parent hmem graph' known known' hgrown' hknown'
      have hparent : parent ∈ BaseWalk.basesOf base.definitions declaration := by
        rwa [BaseWalk.basesOf_eq hdecl]
      have hlt := hbase.lt_of_mem_bases hdecl hmem
      exact ih hgrown' (BaseWalk.visit_eq_clear_of_mem hclear hdeclaration hparent) hlt (by omega)
        (by omega) hknown'
    have hdefinition := Array.getElem?_eq_getElem hty
    generalize base.definitions[ty] = found at hdefinition
    have hterm := Term.definition_declared hdefinition
    have hother : (∀ decl, found ≠ .object decl) →
        (∀ target arguments, found ≠ .reference target arguments) →
        Gives base graph (collectProperties (steps + 2) ty known) fun last answer =>
          FieldsDenote base last answer
            (Term.collectProperties base (bound + 2) (.declared ty) known') := by
      intro hobject hreference
      rw [collectProperties, Term.collectProperties, hterm]
      refine Gives.of_reads (definition_reads (hgrown.definition_eq hdefinition)) ?_
      cases found with
      | object decl => exact absurd rfl (hobject decl)
      | reference target arguments => exact absurd rfl (hreference target arguments)
      | _ => exact .pure hgrown hknown
    cases found with
    | object decl =>
      exact hobject (BaseWalk.declaration?_eq hdefinition) hdefinition (Nat.le_succ _)
        (Nat.le_succ _) hknown
    | reference target arguments =>
      obtain ⟨decl, htarget⟩ := hbase.target_object hdefinition
      have hlt : target < base.definitions.size :=
        hbase.mentions_lt hdefinition target List.mem_cons_self
      refine collectProperties_gives_reference hbase hgrown (hgrown.denotes_declared hty)
        (hgrown.definition_eq hdefinition) hterm (hgrown.denotes_declared hlt) hknown ?_
      exact hobject (BaseWalk.declaration?_eq hdefinition) htarget le_rfl le_rfl .nil
    | _ => exact hother nofun nofun

/-- The properties of any type. -/
theorem properties_gives (hbase : base.Linked) (hgrown : Grown base graph) {ty : Handle}
    {term : Term} (hterm : Denotes base graph ty term) :
    Gives base graph (properties ty) fun last answer =>
      List.Forall₂ (SymbolDenotes base last) answer (term.properties base) := by
  have hsize := hgrown.size_le
  have hfields : Gives base graph (collectProperties (2 * graph.definitions.size + 2) ty [])
      fun last answer => FieldsDenote base last answer
        (Term.collectProperties base (2 * base.definitions.size + 3) term []) := by
    rcases hgrown.denotes_cases hterm with ⟨hlt, rfl⟩ | ⟨hle, hadded⟩
    · exact collectProperties_gives_declared hbase hgrown (hbase.clear ty hlt) hlt (by omega)
        (by omega) .nil
    · have hlt := hgrown.lt_of_denotes hterm
      cases hadded with
      | unknown hdefinition =>
        rw [collectProperties]
        exact Gives.of_reads (definition_reads hdefinition) (.pure hgrown .nil)
      | @application target decl _ _ htarget hdefinition _ hterms =>
        obtain ⟨htarget', -⟩ := Array.getElem?_eq_some_iff.mp htarget
        have hgrows := hle.trans_lt hlt
        refine collectProperties_gives_reference hbase hgrown hterm hdefinition rfl
          (hgrown.denotes_declared htarget') .nil ?_
        exact collectProperties_gives_declared hbase hgrown (hbase.clear target htarget') htarget'
          (by omega) (by omega) .nil
  refine Gives.get (hfields.bind fun graph₁ fields hgrown₁ hlater₁ hfields' => ?_)
  refine .pure hgrown₁ ?_
  rw [Term.properties, List.forall₂_map_left_iff, List.forall₂_map_right_iff]
  exact List.Forall₂.imp (fun _ _ h => h.2) hfields'

/-! ## Members and base types -/

/-- The type behind a symbol is the one that the terms give, whatever is reported with it. -/
theorem typeOfSymbol_gives (hbase : base.Linked) (hgrown : Grown base graph) {symbol : Symbol}
    {symbol' : Term.Symbol} (hsymbol : SymbolDenotes base graph symbol symbol') :
    Gives base graph (typeOfSymbol symbol) fun last answer =>
      Denotes base last answer.1 (Term.typeOfSymbol base symbol') := by
  cases hsymbol with
  | type h => exact .pure hgrown h
  | property name howner hthrough =>
    rw [typeOfSymbol, Term.typeOfSymbol]
    refine Gives.get ?_
    have hdeclared := hgrown.declared?_rel hbase howner name
    generalize graph.declared? _ name = member, Term.declared? base _ name = member' at hdeclared
    cases hdeclared with
    | none =>
      refine (unknownType_gives hbase hgrown).bind fun graph₁ answer hgrown₁ _ hanswer => ?_
      exact .pure hgrown₁ hanswer
    | some hmember =>
      cases hthrough with
      | none => exact .pure hgrown hmember
      | some hinstantiation =>
        obtain ⟨pairs, hreads, hpairs⟩ := bindings_reads hbase hgrown hinstantiation
        refine Gives.of_reads hreads ((substitute_gives hbase hgrown hpairs hmember).bind
          fun graph₁ answer hgrown₁ _ hanswer => ?_)
        exact .pure hgrown₁ hanswer

theorem bases_gives (hbase : base.Linked) (hgrown : Grown base graph) {ty : Handle} {term : Term}
    (hterm : Denotes base graph ty term) :
    Gives base graph (bases ty) fun last answer =>
      Option.Rel (List.Forall₂ (Denotes base last)) answer (term.bases base) := by
  rw [bases, Term.bases]
  refine Gives.of_reads (flags_reads hbase hgrown hterm) ?_
  split
  · obtain ⟨pairs, hreads, hpairs⟩ := bindings_reads hbase hgrown hterm
    obtain ⟨parents, hreads', hparents⟩ := basesOf_reads hbase hgrown hterm
    refine Gives.of_reads hreads (Gives.of_reads hreads' ?_)
    refine (Gives.mapM hgrown (hparents.imp fun parent parent' h graph' hgrown' hlater' =>
      substitute_gives hbase hgrown' (hpairs.later hlater') (h.later hlater'))).bind
      fun graph₁ answer hgrown₁ _ hanswer => ?_
    exact .pure hgrown₁ (.some hanswer)
  · exact .pure hgrown .none

end GraphSchema.Graph
