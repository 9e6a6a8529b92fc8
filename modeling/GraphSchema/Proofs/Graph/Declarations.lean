import Mathlib
import GraphSchema.Proofs.Fields
import GraphSchema.Proofs.Graph.Naming

/-!
# The object behind a type

What a type has for base types and properties depends on the object behind it alone: the type
itself where it is an object, and the target of an instantiation.  Substitution keeps the object
behind a base type unless the base type is a parameter (`declaration?_of_mem_baseTypes`).  The
names of a type's properties are those that this object and the objects behind its base types list
(`mem_memberNames_iff`), however a base type is written, as long as it is no parameter.
-/

namespace GraphSchema.Graph

variable {base : Graph}

namespace Term

/-- The object behind a type: itself, or the target of an instantiation. -/
def declaration? (base : Graph) : Term → Option Handle
  | declared handle => BaseWalk.declaration? base.definitions handle
  | applied target _ => some target
  | unknown => none

theorem declaration?_instantiate (hbase : base.Linked) (target : Handle)
    (arguments : List Term) :
    (instantiate base target arguments).declaration? base = some target := by
  rw [instantiate]
  cases hdeclared : declaredInstance? base target arguments with
  | none => rfl
  | some handle =>
    obtain ⟨handles, -, hlookup⟩ := declaredInstance?_eq_some_iff.mp hdeclared
    exact BaseWalk.declaration?_eq (hbase.definition_of_lookup hlookup)

/-- Substitution keeps the object behind a declared type that is not bound itself. -/
theorem declaration?_substituteDeclared (hbase : base.Linked) {pairs : Bindings} {steps : Nat}
    {path : List Handle} {handle : Handle} (hfree : pairs.lookup (declared handle) = none) :
    (substituteDeclared base pairs steps path handle).declaration? base =
      BaseWalk.declaration? base.definitions handle := by
  cases steps with
  | zero => rfl
  | succ steps =>
    rw [substituteDeclared, hfree]
    dsimp only
    split
    · rename_i target arguments hdefinition
      split
      · rfl
      · split
        · rfl
        · rw [declaration?_instantiate hbase, BaseWalk.declaration?_eq hdefinition]
          rfl
    · rfl

/-- A record is no primitive leaf. -/
theorem intrinsic_eq_none_of_object {term : Term} (h : ((answers base) (.flags term)).object) :
    (answers base) (.intrinsic term) = none := by
  show term.intrinsic base = none
  change (term.flags base).object at h
  rw [flags] at h
  unfold intrinsic
  split at h <;> simp_all

theorem exists_object_of_definition {handle : Handle} {decl' : ObjectDecl Term}
    (h : (declared handle).definition base = .object decl') :
    ∃ decl, base.definitions[handle]? = some (.object decl) ∧
      decl'.bases = decl.bases.map declared ∧ decl'.parameters = decl.parameters.map declared := by
  rw [definition] at h
  cases hdefinition : base.definitions[handle]? with
  | none =>
    rw [hdefinition] at h
    cases h
  | some found =>
    rw [hdefinition] at h
    cases found with
    | object decl =>
      cases h
      exact ⟨decl, rfl, rfl, rfl⟩
    | _ => cases h

theorem exists_getElem?_of_reference {handle : Handle} {target' : Term} {arguments : List Term}
    (h : (declared handle).definition base = .reference target' arguments) :
    ∃ target others, base.definitions[handle]? = some (.reference target others) ∧
      target' = declared target := by
  rw [definition] at h
  cases hdefinition : base.definitions[handle]? with
  | none =>
    rw [hdefinition] at h
    cases h
  | some found =>
    rw [hdefinition] at h
    cases found with
    | reference target others =>
      cases h
      exact ⟨target, others, rfl, rfl⟩
    | _ => cases h

/-- An instantiation has the object behind it for a target. -/
theorem exists_reference_of_definition {term target' : Term} {arguments : List Term}
    (h : term.definition base = .reference target' arguments) :
    ∃ target, target' = declared target ∧ term.declaration? base = some target := by
  cases term with
  | declared handle =>
    obtain ⟨target, others, hdefinition, rfl⟩ := exists_getElem?_of_reference h
    exact ⟨target, rfl, BaseWalk.declaration?_eq hdefinition⟩
  | applied target arguments =>
    cases h
    exact ⟨target, rfl, rfl⟩
  | unknown => cases h

/-- A type with an object behind it is that object or an instantiation of it. -/
theorem eq_or_reference_of_declaration {term : Term} {declaration : Handle}
    (hdeclaration : term.declaration? base = some declaration) :
    term = declared declaration ∨
      ∃ arguments, term.definition base = .reference (declared declaration) arguments := by
  cases term with
  | declared handle =>
    change BaseWalk.declaration? base.definitions handle = some declaration at hdeclaration
    cases hdefinition : base.definitions[handle]? with
    | none => simp [BaseWalk.declaration?, hdefinition] at hdeclaration
    | some found =>
      rw [BaseWalk.declaration?_eq hdefinition] at hdeclaration
      cases found with
      | object own =>
        cases hdeclaration
        exact .inl rfl
      | reference target arguments =>
        cases hdeclaration
        exact .inr ⟨_, definition_declared hdefinition⟩
      | _ => cases hdeclaration
  | applied target arguments =>
    cases hdeclaration
    exact .inr ⟨arguments, rfl⟩
  | unknown => cases hdeclaration

/-- The base types of a type are those that the object behind it lists. -/
theorem basesOf_eq {term : Term} {declaration : Handle} {decl : ObjectDecl Handle}
    (hdeclaration : term.declaration? base = some declaration)
    (hdecl : base.definitions[declaration]? = some (.object decl)) :
    term.basesOf base = decl.bases.map declared := by
  have htarget := definition_declared hdecl
  rcases eq_or_reference_of_declaration hdeclaration with rfl | ⟨arguments, hreference⟩
  · rw [basesOf, htarget]
    rfl
  · rw [basesOf, hreference]
    dsimp only
    rw [htarget]
    rfl

/-- The base types of a type are those of the object behind it, and its bindings are for the
parameters of that object. -/
theorem exists_of_mem_basesOf {term parent : Term} (h : parent ∈ term.basesOf base) :
    ∃ declaration decl handle, term.declaration? base = some declaration ∧
      base.definitions[declaration]? = some (.object decl) ∧ handle ∈ decl.bases ∧
      parent = declared handle ∧
      ∀ pair ∈ term.bindings base, pair.1 ∈ decl.parameters.map declared := by
  rw [basesOf] at h
  cases hterm : term.definition base with
  | object decl' =>
    rw [hterm] at h
    cases term with
    | declared declaration =>
      obtain ⟨decl, hdecl, hbases, -⟩ := exists_object_of_definition hterm
      dsimp only at h
      rw [hbases] at h
      obtain ⟨handle, hmem, rfl⟩ := List.mem_map.mp h
      refine ⟨declaration, decl, handle, BaseWalk.declaration?_eq hdecl, hdecl, hmem, rfl, ?_⟩
      rw [bindings, hterm]
      exact nofun
    | applied target arguments => cases hterm
    | unknown => cases hterm
  | reference target' arguments =>
    rw [hterm] at h
    obtain ⟨target, rfl, hdeclaration⟩ := exists_reference_of_definition hterm
    dsimp only at h
    cases htarget : (declared target).definition base with
    | object decl' =>
      rw [htarget] at h
      obtain ⟨decl, hdecl, hbases, hparameters⟩ := exists_object_of_definition htarget
      dsimp only at h
      rw [hbases] at h
      obtain ⟨handle, hmem, rfl⟩ := List.mem_map.mp h
      refine ⟨target, decl, handle, hdeclaration, hdecl, hmem, rfl, fun pair hpair => ?_⟩
      rw [bindings, hterm] at hpair
      dsimp only at hpair
      rw [htarget] at hpair
      rw [← hparameters]
      exact (List.of_mem_zip hpair).1
    | _ =>
      rw [htarget] at h
      cases h
  | _ =>
    rw [hterm] at h
    cases h

/-! ## Base types -/

/-- No base type is bound by the type that it is looked up for. -/
def Unbound (base : Graph) (term : Term) : Prop :=
  ∀ general ∈ term.basesOf base, (term.bindings base).lookup general = none

/-- A base type in the answers is a base type that the bindings have been put into. -/
theorem exists_of_mem_baseTypes {term parent : Term} (h : parent ∈ (answers base).baseTypes term) :
    ∃ general ∈ term.basesOf base, parent = general.substitute base (term.bindings base) := by
  unfold Answers.baseTypes at h
  split at h
  · rename_i hinterface
    have hbases : (answers base) (.bases term) =
        some ((term.basesOf base).map (substitute base (term.bindings base))) :=
      if_pos hinterface
    rw [hbases] at h
    obtain ⟨general, hmem, rfl⟩ := List.mem_map.mp h
    exact ⟨general, hmem, rfl⟩
  · cases h

/-- A base type that is not bound has the same object behind it after substitution. -/
theorem declaration?_of_mem_basesOf (hbase : base.Linked) {term general : Term}
    (hgeneral : general ∈ term.basesOf base) (hfree : (term.bindings base).lookup general = none) :
    ∃ declaration handle, term.declaration? base = some declaration ∧
      handle ∈ BaseWalk.basesOf base.definitions declaration ∧
      (general.substitute base (term.bindings base)).declaration? base =
        BaseWalk.declaration? base.definitions handle := by
  obtain ⟨declaration, decl, handle, hdeclaration, hdecl, hmem, rfl, -⟩ :=
    exists_of_mem_basesOf hgeneral
  exact ⟨declaration, handle, hdeclaration, by rwa [BaseWalk.basesOf_eq hdecl],
    declaration?_substituteDeclared hbase hfree⟩

/-- The object behind a base type in the answers is the one behind a base type of the object
behind a type. -/
theorem declaration?_of_mem_baseTypes (hbase : base.Linked) {term parent : Term}
    (hunbound : term.Unbound base) (h : parent ∈ (answers base).baseTypes term) :
    ∃ declaration handle, term.declaration? base = some declaration ∧
      handle ∈ BaseWalk.basesOf base.definitions declaration ∧
      parent.declaration? base = BaseWalk.declaration? base.definitions handle := by
  obtain ⟨general, hgeneral, rfl⟩ := exists_of_mem_baseTypes h
  exact declaration?_of_mem_basesOf hbase hgeneral (hunbound _ hgeneral)

/-- An object that lists none of its parameters among its base types binds none of them. -/
theorem unbound_of_declaration {term : Term} {declaration : Handle} {decl : ObjectDecl Handle}
    (hdeclaration : term.declaration? base = some declaration)
    (hdecl : base.definitions[declaration]? = some (.object decl))
    (hfree : ∀ parent ∈ decl.bases, parent ∉ decl.parameters) : term.Unbound base := by
  intro general hgeneral
  obtain ⟨declaration', decl', handle, hdeclaration', hdecl', hmem, rfl, hbindings⟩ :=
    exists_of_mem_basesOf hgeneral
  cases hdeclaration.symm.trans hdeclaration'
  cases hdecl.symm.trans hdecl'
  refine List.lookup_eq_none_iff.mpr fun pair hpair => ?_
  obtain ⟨parameter, hparameter, heq⟩ := List.mem_map.mp (hbindings pair hpair)
  rw [← heq]
  refine bne_iff_ne.mpr fun hsame => hfree handle hmem ?_
  rwa [declared.inj hsame]

end Term

/-- No object lists one of its own type parameters among its base types. -/
def NoParameterBases (graph : Graph) : Prop :=
  ∀ (handle : Handle) (decl : ObjectDecl Handle),
    graph.definitions[handle]? = some (.object decl) →
    ∀ parent ∈ decl.bases, parent ∉ decl.parameters

theorem NoParameterBases.unbound (hfree : base.NoParameterBases) (term : Term) :
    term.Unbound base := by
  intro general hgeneral
  obtain ⟨declaration, decl, -, hdeclaration, hdecl, -, -, -⟩ :=
    Term.exists_of_mem_basesOf hgeneral
  exact Term.unbound_of_declaration hdeclaration hdecl (hfree declaration decl hdecl) general
    hgeneral

/-! ## Listed names -/

/-- An object lists a name: as one of its own, or through an object behind a base type. -/
inductive Lists (base : Graph) : Handle → String → Prop where
  | own {declaration : Handle} {decl : ObjectDecl Handle} {name : String}
      (hdecl : base.definitions[declaration]? = some (.object decl))
      (hname : name ∈ Fields.keys decl.properties) : Lists base declaration name
  | inherited {declaration handle parent : Handle} {name : String}
      (hbase : handle ∈ BaseWalk.basesOf base.definitions declaration)
      (hparent : BaseWalk.declaration? base.definitions handle = some parent)
      (h : Lists base parent name) : Lists base declaration name

namespace Term

/-- Every symbol is written under its name. -/
def Named (base : Graph) (fields : Fields Symbol) : Prop :=
  ∀ entry ∈ fields, symbolName base entry.2 = entry.1

theorem Named.put {fields : Fields Symbol} (h : Named base fields) {key : String}
    {symbol : Symbol} (hsymbol : symbolName base symbol = key) :
    Named base (Fields.put fields key symbol) :=
  Fields.forall_mem_put h hsymbol

theorem symbolName_seenThrough (instantiation target : Term) (pairs : Bindings)
    (symbol : Symbol) :
    symbolName base (seenThrough base instantiation target pairs symbol) =
      symbolName base symbol := by
  cases symbol with
  | type ty => rfl
  | property owner name through => cases through <;> rfl

theorem named_collectProperties {steps : Nat} {term : Term} {known : Fields Symbol}
    (h : Named base known) : Named base (collectProperties base steps term known) := by
  induction steps generalizing term known with
  | zero => exact h
  | succ steps ih =>
    rw [collectProperties]
    split
    · refine List.foldlRecOn _ _ (List.foldlRecOn _ _ h fun _ h _ _ => ih h) ?_
      exact fun _ h property _ => h.put rfl
    · rename_i target _ _
      have hinner : Named base (collectProperties base steps target []) := ih nofun
      refine List.foldlRecOn _ _ h fun _ h entry hentry => h.put ?_
      rw [symbolName_seenThrough]
      exact hinner entry hentry
    · exact h

theorem memberNames_eq_keys (term : Term) :
    (answers base).memberNames term =
      Fields.keys (collectProperties base (2 * base.definitions.size + 3) term []) := by
  have hnamed : Named base (collectProperties base (2 * base.definitions.size + 3) term []) :=
    named_collectProperties nofun
  show ((collectProperties base _ term []).map Prod.snd).map (symbolName base) = _
  rw [List.map_map]
  exact List.map_congr_left hnamed

/-- Names do not repeat in what is collected. -/
theorem nodup_collectProperties {steps : Nat} {term : Term} {known : Fields Symbol}
    (h : (Fields.keys known).Nodup) :
    (Fields.keys (collectProperties base steps term known)).Nodup := by
  induction steps generalizing term known with
  | zero => exact h
  | succ steps ih =>
    rw [collectProperties]
    split
    · refine List.foldlRecOn (motive := fun fields : Fields Symbol => (Fields.keys fields).Nodup)
        _ _ ?_ fun _ h property _ => Fields.nodup_put h _ _
      exact List.foldlRecOn (motive := fun fields : Fields Symbol => (Fields.keys fields).Nodup)
        _ _ h fun _ h _ _ => ih h
    · exact List.foldlRecOn (motive := fun fields : Fields Symbol => (Fields.keys fields).Nodup)
        _ _ h fun _ h _ _ => Fields.nodup_put h _ _
    · exact h

/-- No type has two properties of one name. -/
theorem nodup_memberNames (term : Term) : ((answers base).memberNames term).Nodup := by
  rw [memberNames_eq_keys]
  exact nodup_collectProperties List.nodup_nil

variable {walk steps : Nat} {path : List Handle} {handle : Handle} {known : Fields Symbol}
  {name : String}

/-- Collecting the properties of an object adds the names that it lists, where collecting those
of its base types does. -/
theorem mem_keys_collectProperties_object {decl : ObjectDecl Handle}
    (hdecl : base.definitions[handle]? = some (.object decl))
    (hbases : ∀ parent ∈ decl.bases, ∀ known : Fields Symbol,
      name ∈ Fields.keys (collectProperties base steps (declared parent) known) ↔
        name ∈ Fields.keys known ∨ ∃ declaration,
          BaseWalk.declaration? base.definitions parent = some declaration ∧
            Lists base declaration name) :
    name ∈ Fields.keys (collectProperties base (steps + 1) (declared handle) known) ↔
      name ∈ Fields.keys known ∨ Lists base handle name := by
  have hbasesOf := BaseWalk.basesOf_eq hdecl
  rw [collectProperties, definition_declared hdecl]
  dsimp only [Definition.map]
  have hkeys : (Fields.mapValues declared decl.properties).map Prod.fst =
      Fields.keys decl.properties := by
    rw [Fields.mapValues, List.map_map]
    rfl
  rw [Fields.mem_keys_foldl_put, hkeys, List.foldl_map, Fields.mem_keys_foldl hbases, or_assoc]
  refine or_congr_right ?_
  constructor
  · rintro (⟨parent, hmem, declaration, hdeclaration, hlists⟩ | hname)
    · exact .inherited (hbasesOf ▸ hmem) hdeclaration hlists
    · exact .own hdecl hname
  · intro hlists
    cases hlists with
    | own hdecl' hname =>
      cases hdecl.symm.trans hdecl'
      exact .inr hname
    | inherited hmem hparent hlists => exact .inl ⟨_, hbasesOf ▸ hmem, _, hparent, hlists⟩

/-- Collecting the properties of an instantiation adds the names of those of its target. -/
theorem mem_keys_collectProperties_reference {term target : Term} {arguments : List Term}
    (hreference : term.definition base = .reference target arguments) :
    name ∈ Fields.keys (collectProperties base (steps + 1) term known) ↔
      name ∈ Fields.keys known ∨
        name ∈ Fields.keys (collectProperties base steps target []) := by
  rw [collectProperties, hreference]
  dsimp only
  exact Fields.mem_keys_foldl_put

/-- Collecting the properties of a type adds the names that the object behind it lists. -/
theorem mem_keys_collectProperties (hbase : base.Linked)
    (hclear : BaseWalk.visit base.definitions walk path handle = .clear)
    (hsteps : 2 * walk ≤ steps) :
    name ∈ Fields.keys (collectProperties base steps (declared handle) known) ↔
      name ∈ Fields.keys known ∨ ∃ declaration,
        BaseWalk.declaration? base.definitions handle = some declaration ∧
          Lists base declaration name := by
  induction walk generalizing steps path handle known with
  | zero => cases hclear
  | succ walk ih =>
    obtain ⟨steps, rfl⟩ : ∃ rest, steps = rest + 2 := ⟨steps - 2, by omega⟩
    have hobject : ∀ {declaration decl more known}, 2 * walk ≤ more →
        BaseWalk.declaration? base.definitions handle = some declaration →
        base.definitions[declaration]? = some (.object decl) →
        (name ∈ Fields.keys (collectProperties base (more + 1) (declared declaration) known) ↔
          name ∈ Fields.keys known ∨ Lists base declaration name) := by
      intro declaration decl more known hmore hdeclaration hdecl
      refine mem_keys_collectProperties_object hdecl fun parent hmem known => ?_
      refine ih (BaseWalk.visit_eq_clear_of_mem hclear hdeclaration ?_) hmore
      rwa [BaseWalk.basesOf_eq hdecl]
    cases hdefinition : base.definitions[handle]? with
    | none =>
      simp [collectProperties, definition, BaseWalk.declaration?, hdefinition]
    | some found =>
      cases found with
      | object decl =>
        have hdeclaration : BaseWalk.declaration? base.definitions handle = some handle :=
          BaseWalk.declaration?_eq hdefinition
        rw [hobject (by omega) hdeclaration hdefinition, hdeclaration]
        simp
      | reference target arguments =>
        have hdeclaration : BaseWalk.declaration? base.definitions handle = some target :=
          BaseWalk.declaration?_eq hdefinition
        obtain ⟨decl, hdecl⟩ := hbase.target_object hdefinition
        rw [mem_keys_collectProperties_reference (definition_declared hdefinition),
          hobject (by omega) hdeclaration hdecl, hdeclaration]
        simp
      | _ =>
        simp [collectProperties, definition, BaseWalk.declaration?, hdefinition, Definition.map,
          Definition.declaration?]

/-! ## Types of grown graphs -/

/-- A type that is there in a graph to which queries have added types. -/
def Known (base : Graph) (term : Term) : Prop :=
  ∃ graph handle, Grown base graph ∧ Denotes base graph handle term

theorem Known.declared {handle : Handle} (h : handle < base.definitions.size) :
    Known base (declared handle) :=
  ⟨base, handle, .start, denotes_start_iff.mpr ⟨h, rfl⟩⟩

/-- An instantiation that is there is one of an object. -/
theorem Known.exists_object {target : Handle} {arguments : List Term}
    (h : Known base (applied target arguments)) :
    ∃ decl, base.definitions[target]? = some (.object decl) := by
  obtain ⟨graph, handle, hgrown, hdenotes⟩ := h
  rcases hgrown.denotes_cases hdenotes with ⟨-, heq⟩ | ⟨-, hadded⟩
  · cases heq
  · cases hadded with
    | application htarget => exact ⟨_, htarget⟩

/-- The target of an instantiation that is there is an object. -/
theorem Known.target_object (hbase : base.Linked) {term : Term} (hknown : Known base term)
    {target : Handle} {arguments : List Term}
    (h : term.definition base = .reference (Term.declared target) arguments) :
    ∃ decl, base.definitions[target]? = some (.object decl) := by
  cases term with
  | declared place =>
    obtain ⟨target', others, hplace, htarget⟩ := exists_getElem?_of_reference h
    cases htarget
    exact hbase.target_object hplace
  | applied target' others =>
    cases h
    exact hknown.exists_object
  | unknown => cases h

/-- The properties of a type have the names that the object behind it lists. -/
theorem mem_memberNames_iff (hbase : base.Linked) {term : Term} (hknown : Known base term) :
    name ∈ (answers base).memberNames term ↔
      ∃ declaration, term.declaration? base = some declaration ∧ Lists base declaration name := by
  have hclear : ∀ handle, BaseWalk.visit base.definitions (base.definitions.size + 1) [] handle =
      .clear := by
    intro handle
    by_cases hlt : handle < base.definitions.size
    · exact hbase.clear handle hlt
    · have hnone : base.definitions[handle]? = none := Array.getElem?_eq_none (Nat.not_lt.mp hlt)
      rw [BaseWalk.visit, BaseWalk.declaration?, hnone]
      rfl
  rw [memberNames_eq_keys]
  cases term with
  | declared handle =>
    rw [mem_keys_collectProperties hbase (hclear handle) (by omega)]
    simp [declaration?]
  | applied target arguments =>
    obtain ⟨decl, hdecl⟩ := hknown.exists_object
    have hdeclaration : BaseWalk.declaration? base.definitions target = some target :=
      BaseWalk.declaration?_eq hdecl
    have hreference : (applied target arguments).definition base =
        .reference (declared target) arguments := rfl
    rw [mem_keys_collectProperties_reference hreference,
      mem_keys_collectProperties hbase (hclear target) (by omega), hdeclaration]
    simp [declaration?]
  | unknown => simp [collectProperties, definition, declaration?]

/-- Types with the same object behind them have properties of the same names. -/
theorem mem_memberNames_congr (hbase : base.Linked) {term other : Term} (hknown : Known base term)
    (hother : Known base other) (h : term.declaration? base = other.declaration? base) :
    name ∈ (answers base).memberNames term ↔ name ∈ (answers base).memberNames other := by
  rw [mem_memberNames_iff hbase hknown, mem_memberNames_iff hbase hother, h]

/-- The names of a type are those of the object behind it and of the base types that this object
lists, whatever the type puts in their place. -/
theorem mem_memberNames_iff_of_declaration (hbase : base.Linked) {term : Term}
    (hknown : Known base term) {declaration : Handle} {decl : ObjectDecl Handle}
    (hdeclaration : term.declaration? base = some declaration)
    (hdecl : base.definitions[declaration]? = some (.object decl)) :
    name ∈ (answers base).memberNames term ↔ name ∈ Fields.keys decl.properties ∨
      ∃ handle ∈ decl.bases, name ∈ (answers base).memberNames (declared handle) := by
  have hparent : ∀ handle ∈ decl.bases, Known base (declared handle) := fun handle hmem =>
    .declared (hbase.lt_of_mem_bases hdecl hmem)
  have hbasesOf := BaseWalk.basesOf_eq hdecl
  rw [mem_memberNames_iff hbase hknown]
  constructor
  · rintro ⟨declaration', hdeclaration', hlists⟩
    cases hdeclaration.symm.trans hdeclaration'
    cases hlists with
    | own hdecl' hname =>
      cases hdecl.symm.trans hdecl'
      exact .inl hname
    | inherited hmem hbehind hlists =>
      rw [hbasesOf] at hmem
      exact .inr ⟨_, hmem, (mem_memberNames_iff hbase (hparent _ hmem)).mpr ⟨_, hbehind, hlists⟩⟩
  · rintro (hname | ⟨handle, hmem, hname⟩)
    · exact ⟨declaration, hdeclaration, .own hdecl hname⟩
    · obtain ⟨inner, hinner, hlists⟩ := (mem_memberNames_iff hbase (hparent handle hmem)).mp hname
      exact ⟨declaration, hdeclaration, .inherited (hbasesOf ▸ hmem) hinner hlists⟩

/-- A type has all names of a base type that it does not bind. -/
theorem mem_memberNames_of_mem_basesOf (hbase : base.Linked) {term general : Term}
    (hknown : Known base term) (hgeneral : general ∈ term.basesOf base)
    (hfree : (term.bindings base).lookup general = none)
    (hparent : Known base (general.substitute base (term.bindings base)))
    (hname : name ∈ (answers base).memberNames (general.substitute base (term.bindings base))) :
    name ∈ (answers base).memberNames term := by
  obtain ⟨declaration, handle, hdeclaration, hmem, hbehind⟩ :=
    declaration?_of_mem_basesOf hbase hgeneral hfree
  obtain ⟨inner, hinner, hlists⟩ := (mem_memberNames_iff hbase hparent).mp hname
  rw [hbehind] at hinner
  exact (mem_memberNames_iff hbase hknown).mpr ⟨declaration, hdeclaration,
    .inherited hmem hinner hlists⟩

end Term

/-- An instantiation in a grown graph is a term with the same target. -/
theorem Grown.exists_denotes_of_reference (hbase : base.Linked) {graph : Graph}
    (hgrown : Grown base graph) {handle target : Handle} {arguments : List Handle}
    (h : graph.definitions[handle]? = some (.reference target arguments)) :
    ∃ term others, Denotes base graph handle term ∧
      term.definition base = .reference (.declared target) others := by
  obtain ⟨term, hterm⟩ := hgrown.exists_denotes (Array.getElem?_eq_some_iff.mp h).1
  obtain ⟨found, hfound, hagrees⟩ := hgrown.definition_agrees hbase hterm
  cases h.symm.trans hfound
  cases hdefinition : term.definition base with
  | reference target' others =>
    rw [hdefinition] at hagrees
    cases hagrees with
    | reference htarget _ =>
      obtain ⟨place, rfl, -⟩ := Term.exists_reference_of_definition hdefinition
      rcases hgrown.denotes_cases htarget with ⟨-, heq⟩ | ⟨-, hadded⟩
      · cases heq
        exact ⟨term, others, hterm, hdefinition⟩
      · cases hadded
  | _ =>
    rw [hdefinition] at hagrees
    cases hagrees

/-- Queries add no objects. -/
theorem Grown.definition_of_object {graph : Graph} (hgrown : Grown base graph) {handle : Handle}
    {decl : ObjectDecl Handle} (h : graph.definitions[handle]? = some (.object decl)) :
    base.definitions[handle]? = some (.object decl) := by
  obtain ⟨term, hterm⟩ := hgrown.exists_denotes (Array.getElem?_eq_some_iff.mp h).1
  rcases hgrown.denotes_cases hterm with ⟨hlt, -⟩ | ⟨-, hadded⟩
  · have hdefinition := Array.getElem?_eq_getElem hlt
    rw [hdefinition, ← h, hgrown.definition_eq hdefinition]
  · cases hadded with
    | application _ hdefinition => cases h.symm.trans hdefinition
    | unknown hdefinition => cases h.symm.trans hdefinition

/-- The object behind a type of a grown graph is the one behind its term. -/
theorem Grown.declaration?_eq {graph : Graph} (hgrown : Grown base graph) {handle : Handle}
    {term : Term} (h : Denotes base graph handle term) :
    BaseWalk.declaration? graph.definitions handle = term.declaration? base := by
  rcases hgrown.denotes_cases h with ⟨hlt, rfl⟩ | ⟨-, hadded⟩
  · have hdefinition := Array.getElem?_eq_getElem hlt
    show _ = BaseWalk.declaration? base.definitions handle
    rw [BaseWalk.declaration?_eq hdefinition,
      BaseWalk.declaration?_eq (hgrown.definition_eq hdefinition)]
  · cases hadded with
    | application _ hdefinition => rw [BaseWalk.declaration?_eq hdefinition]; rfl
    | unknown hdefinition => rw [BaseWalk.declaration?_eq hdefinition]; rfl

end GraphSchema.Graph
