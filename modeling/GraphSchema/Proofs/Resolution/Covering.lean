import Mathlib
import GraphSchema.Proofs.Resolution.Invariants
import GraphSchema.Proofs.Resolution.Merging

/-!
# Records of own members alone

A record is made of what its base types hand on and of its own members, which win.  Where a type
lists every name of its base types among its own members, nothing that is handed on can show: the
record is a rearrangement of the own members (`MemberParts.properties_perm_own`).

Whether it does is a matter of what the checker answers.  `Answers.Covered` asks it of every type
that is not replaced by its definition, and of every definition that replaces a type.  From this it
follows for what a call for a record *returns*, which may be the record of a definition, or of a
base type that has base types in turn (`Models.returns_recognizeObject`).

**Main statement.**  `Models.exists_perm_of_recognizeObject`.  Nothing is assumed there of the types
in progress, which could only keep names away, nor of how nested types are resolved, as long as
the world stays sound.  So the values of a resolution are no help here, as they depend on both, and
`Models.Returns` speaks of what inquiries return instead.
-/

namespace GraphSchema

variable {W τ σ ν τ' σ' ν' α β : Type}

open Inquiry (question within)

/-! ## Parts that are covered -/

namespace MemberParts

variable {parts : MemberParts}

theorem mem_keys_inherited {name : String} :
    name ∈ Fields.keys parts.inherited ↔
      ∃ claimed ∈ parts.bases, name ∈ Fields.keys (Schema.recordProperties claimed) := by
  simp [keys_inherited, Names.mem_union]

/-- The names of a record are those that base types hand on and the own ones. -/
theorem mem_keys_properties {name : String} :
    name ∈ Fields.keys parts.properties ↔
      (∃ claimed ∈ parts.bases, name ∈ Fields.keys (Schema.recordProperties claimed)) ∨
        name ∈ Fields.keys parts.own := by
  rw [properties, Fields.mem_keys_merge, mem_keys_inherited, Fields.ofEntries,
    Fields.mem_keys_merge]
  simp

/-- Where base types hand on no names but own ones, a record has its own members and no others. -/
theorem properties_perm_own (hnodup : (Fields.keys parts.own).Nodup)
    (hbases : ∀ claimed ∈ parts.bases,
      Fields.keys (Schema.recordProperties claimed) ⊆ Fields.keys parts.own) :
    parts.properties.Perm parts.own := by
  refine Fields.perm_of_get? parts.nodup_properties hnodup fun name => ?_
  rw [properties, Fields.ofEntries_of_nodup hnodup, Fields.get?_merge,
    Fields.lookup_reverse hnodup]
  cases hown : Fields.get? parts.own name with
  | some schema => rfl
  | none =>
    rw [Option.none_or, Fields.get?_eq_none_iff, mem_keys_inherited]
    rintro ⟨claimed, hclaimed, hname⟩
    exact Fields.get?_eq_none_iff.mp hown (hbases claimed hclaimed hname)

end MemberParts

/-- A sound world that comes later. -/
def Models.After {checker : Checker W τ σ ν} {answers : Answers τ' σ' ν'}
    (M : Models checker answers) (world later : W) : Prop :=
  M.Sound later ∧ M.Later world later

theorem Models.After.trans {checker : Checker W τ σ ν} {answers : Answers τ' σ' ν'}
    {M : Models checker answers} {world later last : W} (h : M.After world later)
    (hlast : M.After later last) : M.After world last :=
  ⟨hlast.1, M.later_trans h.2 hlast.2⟩

/-! ## Own members as they are read -/

variable [DecidableEq τ] {checker : Checker W τ σ ν} {nested : τ → Resolution W τ Schema}

/-- A member of a record that is read in `run`: a checker in a later state, with the same types in
progress and at the same nesting, has been asked for the type and the name, and the type has been
resolved. -/
inductive ReadsMember (checker : Checker W τ σ ν) (nested : τ → Resolution W τ Schema)
    (location : ν) (later : W → Prop) (run : Run W τ) (symbol : σ) : String × Schema → Prop where
  | read {asked typed named after : Run W τ} {ty : τ} {name : String} {schema : Schema}
      (hlater : later asked.world) (hactive : asked.active = run.active)
      (hdepth : asked.depth = run.depth)
      (htype : Resolution.ask checker (.memberType symbol location) asked = .ok (ty, typed))
      (hname : Resolution.ask checker (.symbolName symbol) typed = .ok (name, named))
      (hschema : nested ty named = .ok (schema, after)) :
      ReadsMember checker nested location later run symbol (name, schema)

theorem readsMember_of_listMembers {location : ν} {later : W → Prop} {run asked after : Run W τ}
    (hchecker : checker.Keeps later) (hkeeps : ∀ ty, (nested ty).Keeps later)
    (hrestores : ∀ ty, (nested ty).Restores) {symbols : List σ} {own : List (String × Schema)}
    (hlater : later asked.world) (hactive : asked.active = run.active)
    (hdepth : asked.depth = run.depth)
    (h : (listMembers location symbols).carryOut checker nested asked = .ok (own, after)) :
    List.Forall₂ (ReadsMember checker nested location later run) symbols own := by
  induction symbols generalizing asked own with
  | nil =>
    cases h
    exact .nil
  | cons symbol rest ih =>
    obtain ⟨⟨ty, typed⟩, htype, h⟩ := exists_of_bind_eq_ok h
    obtain ⟨⟨name, named⟩, hname, h⟩ := exists_of_bind_eq_ok h
    obtain ⟨⟨schema, resolved⟩, hschema, h⟩ := exists_of_bind_eq_ok h
    change ((listMembers location rest >>= fun listed => pure ((name, schema) :: listed) :
      Inquiry τ σ ν _).carryOut checker nested) resolved = _ at h
    rw [Models.carryOut_bind] at h
    obtain ⟨⟨listed, last⟩, hlisted, h⟩ := exists_of_bind_eq_ok h
    cases h
    have htyped : later typed.world := Resolution.keeps_ask hchecker _ _ _ _ hlater htype
    have hnamed : later named.world := Resolution.keeps_ask hchecker _ _ _ _ htyped hname
    have hresolved : later resolved.world := hkeeps ty _ _ _ hnamed hschema
    obtain ⟨hactive₁, hdepth₁⟩ := Resolution.restores_ask _ _ _ _ htype
    obtain ⟨hactive₂, hdepth₂⟩ := Resolution.restores_ask _ _ _ _ hname
    obtain ⟨hactive₃, hdepth₃⟩ := hrestores ty _ _ _ hschema
    exact .cons (.read hlater hactive hdepth htype hname hschema)
      (ih hresolved (by rw [hactive₃, hactive₂, hactive₁, hactive])
        (by rw [hdepth₃, hdepth₂, hdepth₁, hdepth]) hlisted)

/-- How the own members of a record are read, in a state like `run`. -/
theorem exists_readsMember {recognize : τ → Inquiry τ σ ν (Option Schema)} {location : ν}
    {flags : Flags} {ty : τ} {later : W → Prop} {run before after : Run W τ} {parts : MemberParts}
    (hchecker : checker.Keeps later) (hkeeps : ∀ ty, (nested ty).Keeps later)
    (hrestores : ∀ ty, (nested ty).Restores) (hlater : later before.world)
    (hactive : before.active = run.active) (hdepth : before.depth = run.depth)
    (h : (memberParts recognize location flags ty).carryOut checker nested before =
      .ok (parts, after)) :
    ∃ asked symbols listed, later asked.world ∧ asked.active = run.active ∧
      asked.depth = run.depth ∧
      Resolution.ask checker (.properties ty) asked = .ok (symbols, listed) ∧
      List.Forall₂ (ReadsMember checker nested location later run) symbols parts.own := by
  rw [memberParts, Models.carryOut_bind] at h
  obtain ⟨⟨bases, consulted⟩, hconsulted, h⟩ := exists_of_bind_eq_ok h
  dsimp only at h
  rw [Models.carryOut_bind] at h
  obtain ⟨⟨resolved, inherited⟩, hresolved, h⟩ := exists_of_bind_eq_ok h
  obtain ⟨⟨symbols, listed⟩, hlisted, h⟩ := exists_of_bind_eq_ok h
  change ((listMembers location symbols >>= fun own => symbolNameOf ty >>= fun title =>
    pure ⟨resolved, own, title⟩ : Inquiry τ σ ν MemberParts).carryOut checker nested) listed = _
    at h
  rw [Models.carryOut_bind] at h
  obtain ⟨⟨own, read⟩, hread, h⟩ := exists_of_bind_eq_ok h
  dsimp only at h
  rw [Models.carryOut_bind] at h
  obtain ⟨⟨title, named⟩, -, h⟩ := exists_of_bind_eq_ok h
  cases h
  have hinherited : later inherited.world := Resolution.keeps_carryOut hchecker hkeeps _ _ _ _
    (Resolution.keeps_carryOut hchecker hkeeps _ _ _ _ hlater hconsulted) hresolved
  have hlisted' : later listed.world := Resolution.keeps_ask hchecker _ _ _ _ hinherited hlisted
  obtain ⟨hactive₁, hdepth₁⟩ := Resolution.restores_carryOut hrestores _ _ _ _ hconsulted
  obtain ⟨hactive₂, hdepth₂⟩ := Resolution.restores_carryOut hrestores _ _ _ _ hresolved
  obtain ⟨hactive₃, hdepth₃⟩ := Resolution.restores_ask _ _ _ _ hlisted
  have hactive' := (hactive₂.trans hactive₁).trans hactive
  have hdepth' := (hdepth₂.trans hdepth₁).trans hdepth
  exact ⟨inherited, symbols, listed, hinherited, hactive', hdepth', hlisted,
    readsMember_of_listMembers hchecker hkeeps hrestores hlisted' (hactive₃.trans hactive')
      (hdepth₃.trans hdepth') hread⟩

/-! ## What calls return -/

/-- Every type of a set has the names of its base types and of its definition among its own. -/
structure Answers.Covered [DecidableEq τ'] (answers : Answers τ' σ' ν') (options : Options)
    (types : Set τ') : Prop where
  target : ∀ {ty target}, ty ∈ types → answers.redirect? options ty = some target →
    target ∈ types
  object_target : ∀ {ty target}, ty ∈ types → answers.redirect? options ty = some target →
    (answers (.flags target)).object
  target_subset : ∀ {ty target}, ty ∈ types → answers.redirect? options ty = some target →
    answers.memberNames target ⊆ answers.memberNames ty
  base : ∀ {ty base}, ty ∈ types → answers.redirect? options ty = none →
    base ∈ answers.baseTypes ty → base ∈ types
  base_subset : ∀ {ty base}, ty ∈ types → answers.redirect? options ty = none →
    base ∈ answers.baseTypes ty → answers.memberNames base ⊆ answers.memberNames ty

namespace Models

variable {answers : Answers τ' σ' ν'} (M : Models checker answers)

/-- Whatever is asked and resolved, sound worlds are followed by sound worlds. -/
structure Advances (nested : τ → Resolution W τ Schema) : Prop where
  asks : ∀ world, checker.Keeps (M.After world)
  resolves : ∀ world ty, (nested ty).Keeps (M.After world)

/-- From a sound world later than `world` on, what an inquiry returns is related to the world at
its end. -/
def Returns (nested : τ → Resolution W τ Schema) (world : W) (inquiry : Inquiry τ σ ν α)
    (related : W → α → Prop) : Prop :=
  ∀ run result after, M.After world run.world →
    inquiry.carryOut checker nested run = .ok (result, after) → related after.world result

variable {M} {world : W} {related : W → α → Prop}

theorem returns_any (inquiry : Inquiry τ σ ν α) :
    M.Returns nested world inquiry fun _ _ => True :=
  fun _ _ _ _ _ => trivial

theorem returns_of_yields {inquiry : Inquiry τ σ ν α} {property : α → Prop}
    (h : (inquiry.carryOut checker nested).Yields property) :
    M.Returns nested world inquiry fun _ => property :=
  fun run result after _ hcarry => h run result after hcarry

theorem returns_pure {result : α} (h : ∀ later, M.After world later → related later result) :
    M.Returns nested world (pure result : Inquiry τ σ ν α) related := by
  intro run _ _ hrun hcarry
  cases hcarry
  exact h run.world hrun

/-- The rest of a sequence starts in a later world, from what the first part has returned. -/
theorem Returns.bind {first : Inquiry τ σ ν α} {rest : α → Inquiry τ σ ν β}
    {related' : W → β → Prop} (hadvances : M.Advances nested)
    (h : M.Returns nested world first related)
    (hrest : ∀ later result, M.After world later → related later result →
      M.Returns nested later (rest result) related') :
    M.Returns nested world (first >>= rest) related' := by
  intro run result after hrun hcarry
  rw [carryOut_bind] at hcarry
  obtain ⟨⟨value, between⟩, hfirst, hlast⟩ := exists_of_bind_eq_ok hcarry
  have hbetween : M.After run.world between.world :=
    Resolution.keeps_carryOut (hadvances.asks run.world) (hadvances.resolves run.world) first _ _ _
      ⟨hrun.1, M.later_refl _⟩ hfirst
  exact hrest between.world value (hrun.trans hbetween) (h _ _ _ hrun hfirst) _ _ _
    ⟨hbetween.1, M.later_refl _⟩ hlast

theorem returns_question {q : Question τ σ ν} {q' : Question τ' σ' ν'}
    {related : W → q.Answer → q'.Answer → Prop}
    (h : ∀ later, M.Later world later → M.Sound later →
      checker.Replies M.Sound M.Later later q fun last answer =>
        related last answer (answers q')) :
    M.Returns nested world (question q) fun last answer => related last answer (answers q') := by
  intro run answer after hrun hcarry
  obtain ⟨reply, hreply, -, -, hrelated⟩ := h run.world hrun.2 hrun.1
  obtain ⟨⟨answer', asked⟩, hask, hlast⟩ := exists_of_bind_eq_ok hcarry
  obtain ⟨reply', hreply', hafter⟩ := exists_of_bind_eq_ok hask
  cases hreply.symm.trans hreply'
  cases hafter
  cases hlast
  exact hrelated

/-- A back-reference takes the place of what is in progress. -/
theorem returns_within {ty : τ} {body : Inquiry τ σ ν (Option Schema)}
    {property : Option Schema → Prop} (h : M.Returns nested world body fun _ => property)
    (hback : ∀ name, property (some (.reference name))) :
    M.Returns nested world (within ty body) fun _ => property := by
  intro run claimed after hrun hcarry
  obtain ⟨⟨claimed', left⟩, hguarded, hlast⟩ := exists_of_bind_eq_ok hcarry
  cases hlast
  rcases Resolution.exists_of_guarded hguarded with ⟨name, rfl⟩ | ⟨inside, hbody⟩
  · exact hback name
  · exact h { run with active := ty :: run.active } _ _ hrun hbody

/-! ## Parts -/

variable {ty : τ} {ty' : τ'}

theorem returns_consultedBases (hadvances : M.Advances nested) (h : M.type world ty ty') :
    M.Returns nested world (consultedBases (answers (.flags ty')) ty) fun later bases =>
      List.Forall₂ (M.type later) bases (answers.baseTypes ty') := by
  rw [consultedBases, Answers.baseTypes]
  split
  · refine Returns.bind hadvances (returns_question fun _ hlater hsound =>
      M.bases hsound (M.type_later hlater h)) fun later bases _ hbases => ?_
    refine returns_pure fun last hlast => ?_
    cases hbases' : answers (.bases ty') with
    | none =>
      rw [hbases'] at hbases
      cases hbases
      exact .nil
    | some bases' =>
      rw [hbases'] at hbases
      cases hbases with
      | some hbases => exact hbases.imp fun _ _ => M.type_later hlast.2
  · exact returns_pure fun _ _ => .nil

theorem returns_resolveBases {recognize : τ → Inquiry τ σ ν (Option Schema)}
    {names : List String} (hadvances : M.Advances nested) (hsound : M.Sound world)
    {bases : List τ} {bases' : List τ'} (hbases : List.Forall₂ (M.type world) bases bases')
    (hrecognize : ∀ later base, ∀ base' ∈ bases', M.After world later → M.type later base base' →
      M.Returns nested later (recognize base) fun _ claimed =>
        Fields.keys (Schema.recordProperties claimed) ⊆ names) :
    M.Returns nested world (resolveBases recognize bases) fun _ resolved =>
      ∀ claimed ∈ resolved, Fields.keys (Schema.recordProperties claimed) ⊆ names := by
  induction bases generalizing world bases' with
  | nil => exact returns_pure fun _ _ => by simp
  | cons base rest ih =>
    cases hbases with | @cons _ base' _ rest' hbase hrest
    have hfirst := hrecognize world base base' List.mem_cons_self ⟨hsound, M.later_refl _⟩ hbase
    refine Returns.bind hadvances
      (returns_within hfirst fun _ => List.nil_subset names) fun later claimed hlater hclaimed => ?_
    have hothers := ih hlater.1 (hrest.imp fun _ _ => M.type_later hlater.2)
      fun last base base' hmem hlast =>
        hrecognize last base base' (List.mem_cons_of_mem _ hmem) (hlater.trans hlast)
    refine Returns.bind hadvances hothers fun last resolved _ hresolved => ?_
    exact returns_pure fun _ _ => List.forall_mem_cons.mpr ⟨hclaimed, hresolved⟩

theorem returns_listMembers {location : ν} (hadvances : M.Advances nested) {symbols : List σ}
    {symbols' : List σ'} (hsymbols : List.Forall₂ (M.symbol world) symbols symbols') :
    M.Returns nested world (listMembers location symbols) fun _ own =>
      Fields.keys own = symbols'.map fun symbol => answers (.symbolName symbol) := by
  induction symbols generalizing world symbols' with
  | nil =>
    cases hsymbols
    exact returns_pure fun _ _ => rfl
  | cons symbol rest ih =>
    cases hsymbols with | cons hsymbol hrest
    refine Returns.bind hadvances (returns_any _) fun world₁ ty hlater₁ _ => ?_
    refine Returns.bind hadvances (returns_question fun _ hlater hsound =>
      M.symbolName hsound (M.symbol_later (M.later_trans hlater₁.2 hlater) hsymbol)) ?_
    rintro world₂ name hlater₂ rfl
    refine Returns.bind hadvances (returns_any _) fun world₃ schema hlater₃ _ => ?_
    have hlater := (hlater₁.trans hlater₂).trans hlater₃
    refine Returns.bind hadvances (ih (hrest.imp fun _ _ => M.symbol_later hlater.2)) ?_
    intro world₄ own _ hown
    exact returns_pure fun _ _ => congrArg _ hown

theorem returns_memberParts {recognize : τ → Inquiry τ σ ν (Option Schema)} {location : ν}
    (hadvances : M.Advances nested) (h : M.type world ty ty')
    (hrecognize : ∀ later base, ∀ base' ∈ answers.baseTypes ty', M.After world later →
      M.type later base base' → M.Returns nested later (recognize base) fun _ claimed =>
        Fields.keys (Schema.recordProperties claimed) ⊆ answers.memberNames ty') :
    M.Returns nested world (memberParts recognize location (answers (.flags ty')) ty)
      fun _ parts => Fields.keys parts.own = answers.memberNames ty' ∧
        ∀ claimed ∈ parts.bases,
          Fields.keys (Schema.recordProperties claimed) ⊆ answers.memberNames ty' := by
  rw [memberParts]
  refine Returns.bind hadvances (returns_consultedBases hadvances h) ?_
  intro world₁ bases hlater₁ hbases
  refine Returns.bind hadvances (returns_resolveBases hadvances hlater₁.1 hbases
    fun later base base' hmem hlater => hrecognize later base base' hmem (hlater₁.trans hlater)) ?_
  intro world₂ resolved hlater₂ hresolved
  have hty₂ := M.type_later (hlater₁.trans hlater₂).2 h
  refine Returns.bind hadvances (returns_question fun _ hlater hsound =>
    M.properties hsound (M.type_later hlater hty₂)) fun world₃ symbols hlater₃ hsymbols => ?_
  refine Returns.bind hadvances (returns_listMembers hadvances hsymbols) ?_
  intro world₄ own hlater₄ hown
  refine Returns.bind hadvances (returns_any _) fun world₅ title _ _ => ?_
  exact returns_pure fun _ _ => ⟨hown, hresolved⟩

/-! ## Calls for a record -/

variable [DecidableEq τ'] {options : Options} {types : Set τ'}

theorem returns_redirectTarget (hadvances : M.Advances nested) (h : M.type world ty ty') :
    M.Returns nested world (redirectTarget options (answers (.flags ty')) ty) fun later target =>
      Option.Rel (M.type later) target (answers.redirect? options ty') := by
  rw [redirectTarget, Answers.redirect?]
  split
  · refine Returns.bind hadvances (returns_question fun _ hlater hsound =>
      M.target hsound (M.type_later hlater h)) fun later target hlater htarget => ?_
    refine returns_pure fun last hlast => ?_
    exact rel_filter_ne hlast.2 hlast.1 (M.type_later hlater.2 h) htarget
  · exact returns_pure fun _ _ => .none

/-- What a call comes to, or goes on with, before it looks at members. -/
inductive Judged (answers : Answers τ' σ' ν') (options : Options) (ty : τ') : Verdict → Prop where
  | other (hobject : (answers (.flags ty)).object = false) :
      Judged answers options ty (.settled none)
  /-- A container or a tuple. -/
  | leaf {schema : Schema} (hschema : schema.isObject = false) :
      Judged answers options ty (.settled (some schema))
  | redirected {target : τ'} {schema : Schema}
      (htarget : answers.redirect? options ty = some target)
      (hnames : Fields.keys (Schema.recordProperties (some schema)) ⊆ answers.memberNames target) :
      Judged answers options ty (.settled (some schema))
  | members (hredirect : answers.redirect? options ty = none) :
      Judged answers options ty (.members (answers (.flags ty)))

/-- What is known of what a call returns: a record where the type is one, and no other names. -/
def Covers (answers : Answers τ' σ' ν') (ty : τ') (claimed : Option Schema) : Prop :=
  ((answers (.flags ty)).object → claimed ≠ none) ∧
    Fields.keys (Schema.recordProperties claimed) ⊆ answers.memberNames ty

theorem returns_verdict {steps : Nat} {location : ν} (hadvances : M.Advances nested)
    (hcovered : answers.Covered options types) (h : M.type world ty ty') (hmem : ty' ∈ types)
    (hcalls : ∀ {later ty ty'}, M.type later ty ty' → ty' ∈ types →
      M.Returns nested later (recognizeObject steps ⟨options, location⟩ ty) fun _ =>
        Covers answers ty') :
    M.Returns nested world (verdict steps ⟨options, location⟩ ty) fun _ =>
      Judged answers options ty' := by
  rw [verdict]
  refine Returns.bind hadvances
    (returns_question fun _ hlater hsound => M.flags hsound (M.type_later hlater h)) ?_
  rintro world₁ flags hlater₁ rfl
  split
  · rename_i hobject
    exact returns_pure fun _ _ => .other (by simpa using hobject)
  refine Returns.bind hadvances (returns_of_yields (yields_recognizeContainer ty)) ?_
  intro world₂ container hlater₂ hcontainer
  cases container with
  | some container => exact returns_pure fun _ _ => .leaf (hcontainer container rfl)
  | none =>
    dsimp only
    split
    · exact returns_pure fun _ _ => .leaf rfl
    have hlater := hlater₁.trans hlater₂
    refine Returns.bind hadvances
      (returns_redirectTarget hadvances (M.type_later hlater.2 h)) ?_
    intro world₃ target hlater₃ hredirect
    cases hredirect' : answers.redirect? options ty' with
    | none =>
      rw [hredirect'] at hredirect
      cases hredirect
      exact returns_pure fun _ _ => .members hredirect'
    | some target' =>
      rw [hredirect'] at hredirect
      cases hredirect with | some htype
      have hcall := hcalls htype (hcovered.target hmem hredirect')
      have hclaims : M.Returns nested world₃ (recognizeObject steps ⟨options, location⟩ _)
          fun _ claimed => claimed ≠ none ∧
            Fields.keys (Schema.recordProperties claimed) ⊆ answers.memberNames target' :=
        fun run claimed after hrun hcarry =>
          (hcall run claimed after hrun hcarry).imp_left
            fun hsome => hsome (hcovered.object_target hmem hredirect')
      refine Returns.bind hadvances (returns_within hclaims fun _ =>
        ⟨Option.some_ne_none _, List.nil_subset _⟩) fun world₄ claimed _ hclaimed => ?_
      cases claimed with
      | none => exact absurd rfl hclaimed.1
      | some schema => exact returns_pure fun _ _ => .redirected hredirect' hclaimed.2

/-- A record that is made of members has no names but the type's own. -/
theorem returns_ownParts {steps : Nat} {location : ν} (hadvances : M.Advances nested)
    (hcovered : answers.Covered options types) (h : M.type world ty ty') (hmem : ty' ∈ types)
    (hredirect : answers.redirect? options ty' = none)
    (hcalls : ∀ {later ty ty'}, M.type later ty ty' → ty' ∈ types →
      M.Returns nested later (recognizeObject steps ⟨options, location⟩ ty) fun _ =>
        Covers answers ty') :
    M.Returns nested world
      (memberParts (recognizeObject steps ⟨options, location⟩) location (answers (.flags ty')) ty)
      fun _ parts => Fields.keys parts.own = answers.memberNames ty' ∧
        ∀ claimed ∈ parts.bases,
          Fields.keys (Schema.recordProperties claimed) ⊆ answers.memberNames ty' := by
  refine returns_memberParts hadvances h fun later base base' hbase' _ hbase => ?_
  intro run claimed after hrun hcarry
  have hcovers : Covers answers base' claimed :=
    hcalls hbase (hcovered.base hmem hredirect hbase') run claimed after hrun hcarry
  exact List.Subset.trans hcovers.2 (hcovered.base_subset hmem hredirect hbase')

theorem returns_recognizeObject {location : ν} (hadvances : M.Advances nested)
    (hcovered : answers.Covered options types) (steps : Nat) (h : M.type world ty ty')
    (hmem : ty' ∈ types) :
    M.Returns nested world (recognizeObject steps ⟨options, location⟩ ty) fun _ =>
      Covers answers ty' := by
  induction steps generalizing world ty ty' with
  | zero =>
    intro run _ _ _ hcarry
    cases hcarry
  | succ steps ih =>
    rw [recognizeObject_succ]
    refine Returns.bind hadvances (returns_verdict hadvances hcovered h hmem ih) ?_
    intro later found hlater hfound
    cases hfound with
    | other hobject =>
      refine returns_pure fun _ _ => ⟨fun h => ?_, List.nil_subset _⟩
      exact absurd (hobject.symm.trans h) Bool.false_ne_true
    | leaf hschema =>
      refine returns_pure fun _ _ => ⟨fun _ => Option.some_ne_none _, ?_⟩
      rw [Answers.recordProperties_of_isObject hschema]
      exact List.nil_subset _
    | redirected htarget hnames =>
      refine returns_pure fun _ _ => ⟨fun _ => Option.some_ne_none _, ?_⟩
      exact List.Subset.trans hnames (hcovered.target_subset hmem htarget)
    | members hredirect =>
      dsimp only
      rw [memberRecord_eq]
      refine Returns.bind hadvances (returns_ownParts hadvances hcovered (M.type_later hlater.2 h)
        hmem hredirect ih) ?_
      rintro last parts _ ⟨hown, hbases⟩
      refine returns_pure fun _ _ => ⟨fun _ => Option.some_ne_none _, fun name hname => ?_⟩
      rcases MemberParts.mem_keys_properties.mp hname with ⟨claimed, hclaimed, hname⟩ | hname
      · exact hbases claimed hclaimed hname
      · exact hown ▸ hname

/-- **A record of own members.**  Where a type is not replaced by its definition and a call makes a
record of it, the record is a rearrangement of what the type's own members are read as. -/
theorem exists_perm_of_recognizeObject {steps : Nat} {location : ν} {later : W → Prop}
    {run after : Run W τ} {title : Option String} {properties : Fields Schema}
    {required : List String} (hadvances : M.Advances nested)
    (hcovered : answers.Covered options types) (hchecker : checker.Keeps later)
    (hkeeps : ∀ ty, (nested ty).Keeps later) (hrestores : ∀ ty, (nested ty).Restores)
    (hsound : M.Sound run.world) (hlater : later run.world) (h : M.type run.world ty ty')
    (hmem : ty' ∈ types) (hredirect : answers.redirect? options ty' = none)
    (hnodup : (answers.memberNames ty').Nodup)
    (hcall : (recognizeObject steps ⟨options, location⟩ ty).carryOut checker nested run =
      .ok (some (.object title properties required), after)) :
    ∃ asked symbols listed own, later asked.world ∧ asked.active = run.active ∧
      asked.depth = run.depth ∧
      Resolution.ask checker (.properties ty) asked = .ok (symbols, listed) ∧
      List.Forall₂ (ReadsMember checker nested location later run) symbols own ∧
      Fields.keys own = answers.memberNames ty' ∧ properties.Perm own := by
  cases steps with
  | zero => cases hcall
  | succ steps =>
    rw [recognizeObject_succ, carryOut_bind] at hcall
    obtain ⟨⟨found, before⟩, hverdict, hcall⟩ := exists_of_bind_eq_ok hcall
    have hstart : M.After run.world run.world := ⟨hsound, M.later_refl _⟩
    have hbefore : M.After run.world before.world := Resolution.keeps_carryOut
      (hadvances.asks run.world) (hadvances.resolves run.world) _ _ _ _ hstart hverdict
    have hcalls : ∀ {later ty ty'}, M.type later ty ty' → ty' ∈ types →
        M.Returns nested later (recognizeObject steps ⟨options, location⟩ ty) fun _ =>
          Covers answers ty' := returns_recognizeObject hadvances hcovered steps
    have hjudged : Judged answers options ty' found :=
      returns_verdict hadvances hcovered h hmem hcalls run found before hstart hverdict
    cases hjudged with
    | other => cases hcall
    | leaf hschema =>
      cases hcall
      cases hschema
    | redirected htarget => cases hredirect.symm.trans htarget
    | members _ =>
      dsimp only at hcall
      rw [memberRecord_eq, carryOut_bind] at hcall
      obtain ⟨⟨parts, made⟩, hparts, hcall⟩ := exists_of_bind_eq_ok hcall
      obtain ⟨hown, hbases⟩ := returns_ownParts hadvances hcovered (M.type_later hbefore.2 h) hmem
        hredirect hcalls before parts made ⟨hbefore.1, M.later_refl _⟩ hparts
      have hlater' : later before.world :=
        Resolution.keeps_carryOut hchecker hkeeps _ _ _ _ hlater hverdict
      obtain ⟨hactive, hdepth⟩ := Resolution.restores_carryOut hrestores _ _ _ _ hverdict
      obtain ⟨asked, symbols, listed, hasked, hactive', hdepth', hlisted, hread⟩ :=
        exists_readsMember hchecker hkeeps hrestores hlater' hactive hdepth hparts
      cases hcall
      exact ⟨asked, symbols, listed, parts.own, hasked, hactive', hdepth', hlisted, hread, hown,
        MemberParts.properties_perm_own (hown ▸ hnodup) (hown ▸ hbases)⟩

end Models

end GraphSchema
