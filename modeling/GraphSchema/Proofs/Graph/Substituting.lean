import Mathlib
import GraphSchema.Proofs.Graph.Queries

/-!
# Substitution on graphs and on terms

`Graph.substitute` looks its way through the definitions of a graph, bounded by the number of
types; `Term.substitute` goes by the structure of a term.  `substitute_gives` says that the first
names what the second describes.  Two bounds have to be large enough for that.  On the way down
through types that were added handles decrease, since arguments are there before the types that
are applied to them; and among the declared types no instantiation is looked into twice.
-/

namespace GraphSchema.Graph

variable {base graph graph' : Graph}

/-! ## Bindings -/

theorem Binds.later {pairs : Bindings} {pairs' : Term.Bindings}
    (h : Binds base graph pairs pairs') (hlater : Later base graph graph') :
    Binds base graph' pairs pairs' :=
  List.Forall₂.imp (fun _ _ h => ⟨h.1.later hlater, h.2.later hlater⟩) h

/-- A bound parameter is found under its term. -/
theorem Binds.lookup_rel (hbase : base.Linked) (hgrown : Grown base graph) {pairs : Bindings}
    {pairs' : Term.Bindings} (h : Binds base graph pairs pairs') {handle : Handle} {term : Term}
    (hterm : Denotes base graph handle term) :
    Option.Rel (Denotes base graph) (pairs.lookup handle) (pairs'.lookup term) := by
  induction h with
  | nil => exact .none
  | @cons pair pair' _ _ hhead _ ih =>
    obtain ⟨key, value⟩ := pair
    obtain ⟨key', value'⟩ := pair'
    obtain ⟨hkey, hvalue⟩ := hhead
    rw [List.lookup_cons, List.lookup_cons]
    by_cases heq : handle = key
    · obtain rfl : term = key' := hterm.unique (heq ▸ hkey)
      rw [beq_iff_eq.mpr heq, beq_self_eq_true]
      exact .some hvalue
    · have hne : term ≠ key' := by
        rintro rfl
        exact heq ((hgrown.interned hbase).denotes_inj hterm hkey)
      rw [beq_eq_false_iff_ne.mpr heq, beq_eq_false_iff_ne.mpr hne]
      exact ih

/-! ## Lists of queries -/

theorem Gives.mapM {γ : Type} {items : List Handle} {others : List γ}
    {query : Handle → Query Handle} {answer : γ → Term} (hgrown : Grown base graph)
    (h : List.Forall₂ (fun item other => ∀ graph', Grown base graph' → Later base graph graph' →
      Gives base graph' (query item) fun last handle => Denotes base last handle (answer other))
      items others) :
    Gives base graph (items.mapM query) fun last handles =>
      List.Forall₂ (Denotes base last) handles (others.map answer) := by
  induction items generalizing graph others with
  | nil =>
    cases h
    exact .pure hgrown .nil
  | cons item rest ih =>
    cases h with | cons hhead hrest
    rw [List.mapM_cons]
    refine (hhead graph hgrown (.refl _ _)).bind fun graph₁ handle hgrown₁ hlater₁ hhandle => ?_
    have hrest' := hrest.imp fun _ _ h graph' hgrown' hlater' =>
      h graph' hgrown' (hlater₁.trans hlater')
    refine (ih hgrown₁ hrest').bind fun graph₂ handles hgrown₂ hlater₂ hhandles => ?_
    exact .pure hgrown₂ (.cons (hhandle.later hlater₂) hhandles)

/-! ## Substitution -/

/-- Replaced arguments are looked up as an instantiation exactly where they differ. -/
theorem replaced_gives (hbase : base.Linked) (hgrown : Grown base graph) {ty target : Handle}
    {decl : ObjectDecl Handle} {arguments replaced : List Handle} {term : Term}
    {terms replaced' : List Term} (htarget : base.definitions[target]? = some (.object decl))
    (hty : Denotes base graph ty term)
    (harguments : List.Forall₂ (Denotes base graph) arguments terms)
    (hreplaced : List.Forall₂ (Denotes base graph) replaced replaced') :
    Gives base graph (if replaced = arguments then pure ty else instantiate target replaced)
      fun graph' handle => Denotes base graph' handle
        (if replaced' = terms then term else Term.instantiate base target replaced') := by
  have hiff : replaced = arguments ↔ replaced' = terms := by
    constructor
    · rintro rfl
      exact forall₂_denotes_unique hreplaced harguments
    · rintro rfl
      exact (hgrown.interned hbase).forall₂_inj hreplaced harguments
  by_cases heq : replaced = arguments
  · rw [if_pos heq]
    refine .pure hgrown ?_
    rwa [if_pos (hiff.mp heq)]
  · rw [if_neg heq, if_neg fun h => heq (hiff.mpr h)]
    exact instantiate_gives hbase hgrown htarget hreplaced

/-- Substitution in a declared type.  The declared types on the graph's way down are those of
the term's, and they do not repeat. -/
theorem substituteIn_gives_declared (hbase : base.Linked) {pairs : Bindings}
    {pairs' : Term.Bindings} {bound steps : Nat} {path way : List Handle} {ty : Handle}
    (hgrown : Grown base graph) (hpairs : Binds base graph pairs pairs')
    (hty : ty < base.definitions.size)
    (hpath : ∀ handle < base.definitions.size, handle ∈ path ↔ handle ∈ way)
    (hnodup : way.Nodup) (hway : ∀ handle ∈ way, handle < base.definitions.size)
    (hbound : base.definitions.size + 1 ≤ bound + way.length) (hsteps : bound ≤ steps) :
    Gives base graph (substituteIn pairs steps path ty) fun graph' handle =>
      Denotes base graph' handle (Term.substituteDeclared base pairs' bound way ty) := by
  induction bound generalizing graph steps path way ty with
  | zero =>
    have hlength := length_le_of_nodup hnodup hway
    omega
  | succ bound ih =>
    cases steps with
    | zero => omega
    | succ steps =>
      rw [substituteIn, Term.substituteDeclared]
      have hname := hgrown.denotes_declared hty
      have hlookup := hpairs.lookup_rel hbase hgrown hname
      generalize pairs.lookup ty = argument, pairs'.lookup (.declared ty) = argument' at hlookup
      cases hlookup with
      | some hargument => exact .pure hgrown hargument
      | none =>
        have hdefinition := Array.getElem?_eq_getElem hty
        generalize base.definitions[ty] = found at hdefinition
        refine Gives.of_reads (definition_reads (hgrown.definition_eq hdefinition)) ?_
        rw [hdefinition]
        cases found with
        | reference target arguments =>
          dsimp only
          have hstop : pairs.isEmpty ∨ ty ∈ path ↔ pairs'.isEmpty ∨ ty ∈ way := by
            rw [isEmpty_eq_of_forall₂ hpairs, hpath ty hty]
          by_cases hkeep : pairs.isEmpty ∨ ty ∈ path
          · rw [if_pos hkeep, if_pos (hstop.mp hkeep)]
            exact .pure hgrown hname
          · rw [if_neg hkeep, if_neg fun h => hkeep (hstop.mpr h)]
            have hnew : ty ∉ way := fun hmem => hkeep (hstop.mpr (.inr hmem))
            have harguments := (List.forall_mem_cons.mp (hbase.mentions_lt hdefinition)).2
            obtain ⟨decl, htarget⟩ := hbase.target_object hdefinition
            have hmap : Gives base graph (arguments.mapM (substituteIn pairs steps (ty :: path)))
                fun last handles => List.Forall₂ (Denotes base last) handles
                  (arguments.map (Term.substituteDeclared base pairs' bound (ty :: way))) := by
              refine Gives.mapM hgrown (List.forall₂_same.mpr ?_)
              intro argument hmem graph' hgrown' hlater'
              refine ih hgrown' (hpairs.later hlater') (harguments argument hmem) ?_
                (List.nodup_cons.mpr ⟨hnew, hnodup⟩) (List.forall_mem_cons.mpr ⟨hty, hway⟩) ?_ ?_
              · intro handle hlt
                rw [List.mem_cons, List.mem_cons, hpath handle hlt]
              · rw [List.length_cons]
                omega
              · omega
            refine hmap.bind fun graph₁ replaced hgrown₁ hlater₁ hreplaced => ?_
            exact replaced_gives hbase hgrown₁ htarget (hname.later hlater₁)
              (forall₂_map_right fun argument hmem =>
                hgrown₁.denotes_declared (harguments argument hmem)) hreplaced
        | _ => exact .pure hgrown hname

/-- Substitution in any type.  Types that were added are only reached from later ones. -/
theorem substituteIn_gives (hbase : base.Linked) {pairs : Bindings} {pairs' : Term.Bindings}
    {steps : Nat} {path : List Handle} {ty : Handle} {term : Term} (hgrown : Grown base graph)
    (hpairs : Binds base graph pairs pairs') (hterm : Denotes base graph ty term)
    (hpath : ∀ handle ∈ path, base.definitions.size ≤ handle ∧ ty < handle)
    (hsteps : ty + 2 ≤ steps) (hdeclared : base.definitions.size + 1 ≤ steps) :
    Gives base graph (substituteIn pairs steps path ty) fun graph' handle =>
      Denotes base graph' handle (term.substitute base pairs') := by
  induction ty using Nat.strong_induction_on generalizing graph steps path term with
  | _ ty ih =>
  rcases hgrown.denotes_cases hterm with ⟨hlt, rfl⟩ | ⟨hle, hadded⟩
  · refine substituteIn_gives_declared hbase hgrown hpairs hlt ?_ List.nodup_nil nofun (by simp)
      hdeclared
    intro handle hlt'
    simp only [List.not_mem_nil, iff_false]
    intro hmem
    have := (hpath handle hmem).1
    omega
  · cases steps with
    | zero => omega
    | succ steps =>
      have hlookup := hpairs.lookup_rel hbase hgrown hterm
      cases hadded with
      | unknown hdefinition =>
        rw [substituteIn, Term.substitute]
        generalize pairs.lookup ty = argument, pairs'.lookup .unknown = argument' at hlookup
        cases hlookup with
        | some hargument => exact .pure hgrown hargument
        | none =>
          refine Gives.of_reads (definition_reads hdefinition) ?_
          exact .pure hgrown hterm
      | @application target decl arguments terms htarget hdefinition hbelow hterms =>
        rw [substituteIn, Term.substitute]
        generalize pairs.lookup ty = argument, pairs'.lookup (.applied target terms) = argument'
          at hlookup
        cases hlookup with
        | some hargument => exact .pure hgrown hargument
        | none =>
          refine Gives.of_reads (definition_reads hdefinition) ?_
          dsimp only
          have hnew : ty ∉ path := fun hmem => (hpath ty hmem).2.false
          rw [← isEmpty_eq_of_forall₂ hpairs]
          by_cases hempty : pairs.isEmpty
          · rw [if_pos (.inl hempty), if_pos hempty]
            exact .pure hgrown hterm
          · rw [if_neg (by simp [hempty, hnew]), if_neg hempty, Term.substituteList_eq]
            have hmap : Gives base graph (arguments.mapM (substituteIn pairs steps (ty :: path)))
                fun last handles => List.Forall₂ (Denotes base last) handles
                  (terms.map (Term.substitute base pairs')) := by
              refine Gives.mapM hgrown ?_
              refine ((List.forall₂_and_left _ _).mpr ⟨hbelow, hterms⟩).imp ?_
              intro argument term ⟨hlt, hargument⟩ graph' hgrown' hlater'
              have hroom := Nat.le_of_succ_le_succ hsteps
              refine ih argument hlt hgrown' (hpairs.later hlater') (hargument.later hlater') ?_
                ((Nat.succ_le_succ hlt).trans hroom) ((Nat.succ_le_succ hle).trans hroom)
              refine List.forall_mem_cons.mpr ⟨⟨hle, hlt⟩, fun handle hmem => ?_⟩
              exact ⟨(hpath handle hmem).1, hlt.trans (hpath handle hmem).2⟩
            refine hmap.bind fun graph₁ replaced hgrown₁ hlater₁ hreplaced => ?_
            exact replaced_gives hbase hgrown₁ htarget (hterm.later hlater₁)
              (hterms.imp fun _ _ h => h.later hlater₁) hreplaced

/-- Substitution on a graph names what substitution on terms describes. -/
theorem substitute_gives (hbase : base.Linked) (hgrown : Grown base graph) {pairs : Bindings}
    {pairs' : Term.Bindings} (hpairs : Binds base graph pairs pairs') {ty : Handle} {term : Term}
    (hterm : Denotes base graph ty term) :
    Gives base graph (substitute pairs ty) fun graph' handle =>
      Denotes base graph' handle (term.substitute base pairs') := by
  refine Gives.get ?_
  have hlt := hgrown.lt_of_denotes hterm
  have hle := hgrown.size_le
  exact substituteIn_gives hbase hgrown hpairs hterm nofun (Nat.succ_lt_succ hlt)
    (Nat.succ_le_succ hle)

end GraphSchema.Graph
